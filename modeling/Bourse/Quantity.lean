import Bourse.Failure

/-!
# Quantities

A `Quantity` counts whole shares in 64 bits. Sums that do not fit and differences below zero are
failures (`Quantity.add`, `Quantity.sub`); the two gentle differences are `Quantity.sub?`, which
has no answer below zero, and `Quantity.monus`, which stops there.
-/

namespace Bourse

/-- A number of whole shares. -/
structure Quantity where
  count : UInt64
deriving DecidableEq

namespace Quantity

/-- No shares. -/
def zero : Quantity := ⟨0⟩

/-- The number of shares, without the bound. -/
def toNat (q : Quantity) : Nat := q.count.toNat

instance : LE Quantity := ⟨fun a b => a.count ≤ b.count⟩

instance : LT Quantity := ⟨fun a b => a.count < b.count⟩

instance (a b : Quantity) : Decidable (a ≤ b) := inferInstanceAs (Decidable (a.count ≤ b.count))

instance (a b : Quantity) : Decidable (a < b) := inferInstanceAs (Decidable (a.count < b.count))

instance : Ord Quantity := ⟨fun a b => compare a.toNat b.toNat⟩

instance : Min Quantity := ⟨fun a b => if a ≤ b then a else b⟩

/-- There are no shares. -/
def isZero (q : Quantity) : Bool := q.count == 0

/-- The sum, which has to fit in 64 bits. -/
def add (a b : Quantity) : Except Failure Quantity :=
  if a.toNat + b.toNat < UInt64.size then .ok ⟨a.count + b.count⟩ else .error .additionOverflow

/-- The difference, unless it is below zero. -/
def sub? (a b : Quantity) : Option Quantity :=
  if b ≤ a then some ⟨a.count - b.count⟩ else none

/-- The difference, which must not be below zero. -/
def sub (a b : Quantity) : Except Failure Quantity :=
  match a.sub? b with
  | some rest => .ok rest
  | none => .error .quantityUnderflow

/-- The difference, or no shares when it would be below zero. -/
def monus (a b : Quantity) : Quantity :=
  if b ≤ a then ⟨a.count - b.count⟩ else zero

/-- The quantity as a signed 64-bit difference; from 2⁶³ on it wraps to a negative one. -/
def signed (q : Quantity) : Int64 := q.count.toInt64

/-- The quantity in decimal digits. -/
def text (q : Quantity) : String := toString q.toNat

theorem le_def {a b : Quantity} : a ≤ b ↔ a.toNat ≤ b.toNat := UInt64.le_iff_toNat_le

theorem lt_def {a b : Quantity} : a < b ↔ a.toNat < b.toNat := UInt64.lt_iff_toNat_lt

@[simp] theorem toNat_zero : zero.toNat = 0 := rfl

end Quantity

end Bourse
