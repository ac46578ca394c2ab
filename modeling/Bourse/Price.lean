import Bourse.Decimal.Text
import Bourse.Failure

/-!
# Prices

A `Price` is a decimal per share. Market orders carry `Price.market`, zero. `Price.ofDecimal?`
admits positive values only, `Price.checked` also zero, and breaks off below it.

Prices are ordered by value. Two prices of the same value and different scale are `Price.Same`,
and each keeps its own text.
-/

namespace Bourse

/-- A price per share. -/
structure Price where
  value : Decimal
deriving DecidableEq

namespace Price

/-- The price of an order that takes any price. -/
def market : Price := ⟨Decimal.zero⟩

/-- A positive price. -/
def ofDecimal? (d : Decimal) : Option Price :=
  if Decimal.zero < d then some ⟨d⟩ else none

/-- A price put in as it is, which must not be below zero. -/
def checked (d : Decimal) : Except Failure Price :=
  if Decimal.zero ≤ d then .ok ⟨d⟩ else .error .negativePrice

/-- A whole price without places. -/
def ofUInt64 (n : UInt64) : Price := ⟨Decimal.ofUInt64 n⟩

/-- The value in units of 10⁻²⁸. -/
def units (p : Price) : Int := p.value.units

instance : LE Price := ⟨fun a b => a.value ≤ b.value⟩

instance : LT Price := ⟨fun a b => a.value < b.value⟩

instance (a b : Price) : Decidable (a ≤ b) := inferInstanceAs (Decidable (a.value ≤ b.value))

instance (a b : Price) : Decidable (a < b) := inferInstanceAs (Decidable (a.value < b.value))

instance : Ord Price := ⟨fun a b => compare a.value b.value⟩

/-- The two prices have the same value, whatever their scales. -/
def Same (a b : Price) : Prop := a.units = b.units

instance (a b : Price) : Decidable (a.Same b) := inferInstanceAs (Decidable (a.units = b.units))

/-- The price is zero, at any scale. -/
def isZero (p : Price) : Bool := p.value.isZero

/-- The price with all its places. -/
def text (p : Price) : String := p.value.text

theorem le_def {a b : Price} : a ≤ b ↔ a.units ≤ b.units := Iff.rfl

theorem lt_def {a b : Price} : a < b ↔ a.units < b.units := Iff.rfl

theorem compare_def (a b : Price) : compare a b = compare a.units b.units := rfl

end Price

end Bourse
