import Bourse.Binary64
import Bourse.Decimal.Text
import Bourse.Json.Basic

/-!
# The decimal of a JSON number

A whole number of 64 bits is taken as it is. Any other number is one of double precision, and
stands for the shortest decimal that reads as this: `100.50` is `100.5`, and `1e2` is `100`.
-/

namespace Bourse.JsonNumber

/-- The whole number, if it fits in 64 bits, with a sign of its own if it is below zero. A zero
with a minus sign is no whole number. -/
def integer? : JsonNumber → Option Int
  | .whole false n => if n < UInt64.size then some n else none
  | .whole true n => if 0 < n ∧ Int64.minValue.toInt ≤ -n then some (-n) else none
  | .scaled .. => none

/-- The number is written with a minus sign. -/
def negative : JsonNumber → Bool
  | .whole negative _ => negative
  | .scaled negative .. => negative

/-- The number of double precision that it reads as, without the sign. -/
def magnitude? : JsonNumber → Option Binary64
  | .whole _ n => Binary64.ofDecimal? n [] 0
  | .scaled _ n places exponent => Binary64.ofDecimal? n places exponent

/-- The decimal that a number stands for. -/
def decimal? (n : JsonNumber) : Option Decimal :=
  match n.integer? with
  | some i => Decimal.ofParts? (i < 0) i.natAbs 0
  | none => do
    let (c, k) ← (← n.magnitude?).shortest?
    Decimal.ofScaled? n.negative c k

end Bourse.JsonNumber
