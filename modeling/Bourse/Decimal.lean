/-!
# Decimals

A `Decimal` is a sign, a coefficient below 2⁹⁶ and a scale, the number of places behind the point,
of at most 28. A zero put together from its parts has no sign.

Every decimal is a whole number of units of 10⁻²⁸ (`Decimal.units`). Decimals are ordered and
compared by these units: `1.0` and `1.00` have the same value and are different decimals.
-/

namespace Bourse

/-- The coefficient of a decimal is below 2⁹⁶. -/
def Decimal.coefficientBound : Nat := 79228162514264337593543950336

/-- A decimal number together with its number of places. -/
structure Decimal where
  negative : Bool
  coefficient : Nat
  /-- The number of places behind the point. -/
  scale : Nat
  coefficient_lt : coefficient < Decimal.coefficientBound
  scale_le : scale ≤ 28
deriving DecidableEq

namespace Decimal

/-- The decimal of the given parts; a zero coefficient drops the sign. -/
def ofParts (negative : Bool) (coefficient scale : Nat) (hc : coefficient < coefficientBound)
    (hs : scale ≤ 28) : Decimal where
  negative := negative && coefficient != 0
  coefficient := coefficient
  scale := scale
  coefficient_lt := hc
  scale_le := hs

/-- The decimal of the given parts, if they are in range. -/
def ofParts? (negative : Bool) (coefficient scale : Nat) : Option Decimal :=
  if h : coefficient < coefficientBound ∧ scale ≤ 28 then
    some (ofParts negative coefficient scale h.1 h.2)
  else
    none

/-- Zero without places. -/
def zero : Decimal := ofParts false 0 0 (by decide) (by decide)

/-- A 64-bit count as a decimal without places. -/
def ofUInt64 (n : UInt64) : Decimal :=
  ofParts false n.toNat 0 (Nat.lt_trans n.toNat_lt (by decide)) (by decide)

/-- The value in units of 10⁻²⁸. -/
def units (d : Decimal) : Int :=
  let magnitude : Nat := d.coefficient * Nat.pow 10 (28 - d.scale)
  if d.negative then -(magnitude : Int) else magnitude

instance : LE Decimal := ⟨fun a b => a.units ≤ b.units⟩

instance : LT Decimal := ⟨fun a b => a.units < b.units⟩

instance (a b : Decimal) : Decidable (a ≤ b) := inferInstanceAs (Decidable (a.units ≤ b.units))

instance (a b : Decimal) : Decidable (a < b) := inferInstanceAs (Decidable (a.units < b.units))

/-- Decimals are compared by value, never by scale. -/
instance : Ord Decimal := ⟨fun a b => compare a.units b.units⟩

/-- The coefficient is zero, at any scale. -/
def isZero (d : Decimal) : Bool := d.coefficient == 0

theorem le_def {a b : Decimal} : a ≤ b ↔ a.units ≤ b.units := Iff.rfl

theorem lt_def {a b : Decimal} : a < b ↔ a.units < b.units := Iff.rfl

theorem compare_def (a b : Decimal) : compare a b = compare a.units b.units := rfl

end Decimal

end Bourse
