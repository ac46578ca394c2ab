import Bourse.Quantity

/-!
# Depth differences

Changes of depth are counted in signed 64-bit numbers. A sum or a negation that leaves their range
is a failure (`Delta.add`, `Delta.neg`).
-/

namespace Bourse.Delta

/-- The number, if it fits in 64 bits with a sign. -/
def ofInt? (n : Int) : Option Int64 :=
  if Int64.minValue.toInt ≤ n ∧ n ≤ Int64.maxValue.toInt then some (Int64.ofInt n) else none

/-- The sum, which has to fit. -/
def add (a b : Int64) : Except Failure Int64 :=
  match ofInt? (a.toInt + b.toInt) with
  | some sum => .ok sum
  | none => .error .additionOverflow

/-- The negation, which has to fit. -/
def neg (a : Int64) : Except Failure Int64 :=
  match ofInt? (-a.toInt) with
  | some n => .ok n
  | none => .error .negationOverflow

end Bourse.Delta
