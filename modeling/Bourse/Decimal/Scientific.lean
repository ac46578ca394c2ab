import Bourse.Decimal.Text
import Bourse.Text.Count

/-!
# Decimals times a power of ten

`Decimal.ofScientific?` reads a decimal, an `e` of either case, and a power of ten that the decimal
is taken times: `12.34e1` is `123.4`, and `25e-3` is `0.025`. The power is written as a count is,
after a minus sign if it is negative, and is at most 28.

The power moves the point. To the right it takes places away, and behind the last digit it fills up
with zeros, so `1.50e1` is `15.0` and `1.50e3` is `1500`. To the left it adds places, and digits
pushed beyond the last place are rounded away, a half upwards. A number below zero that is rounded
to nothing in this way is the only zero that keeps its sign.
-/

namespace Bourse.Decimal

/-- Moves the point `n` digits to the right. -/
def pointRight? (d : Decimal) (n : Nat) : Option Decimal :=
  if 28 < n then
    none
  else if n ≤ d.scale then
    some { d with scale := d.scale - n, scale_le := Nat.le_trans (Nat.sub_le _ _) d.scale_le }
  else
    ofParts? d.negative (d.coefficient * Nat.pow 10 (n - d.scale)) 0

/-- Moves the point `n` digits to the left. -/
def pointLeft? (d : Decimal) (n : Nat) : Option Decimal :=
  if 28 < n then
    none
  else if h : d.scale + n ≤ 28 then
    some { d with scale := d.scale + n, scale_le := h }
  else
    let shifted := d.coefficient / Nat.pow 10 (d.scale + n - 29)
    some { d with
      coefficient := (shifted + 5) / 10
      scale := 28
      coefficient_lt := by
        have h₁ : shifted ≤ d.coefficient := Nat.div_le_self _ _
        have h₂ := d.coefficient_lt
        have h₃ : coefficientBound = 79228162514264337593543950336 := rfl
        omega
      scale_le := Nat.le_refl 28 }

/-- Reads the characters of a decimal with a power of ten. -/
def scientificOfChars? (cs : List Char) : Option Decimal :=
  match cs.span fun c => c ≠ 'e' ∧ c ≠ 'E' with
  | (base, _ :: '-' :: power) => do
    (← ofChars? base).pointLeft? (← Text.readCount? (String.ofList power)).toNat
  | (base, _ :: power) => do
    (← ofChars? base).pointRight? (← Text.readCount? (String.ofList power)).toNat
  | _ => none

/-- Reads the text of a decimal with a power of ten. -/
def ofScientific? (s : String) : Option Decimal := scientificOfChars? s.toList

/-- Reads the text of a decimal, with a power of ten or without. -/
def read? (s : String) : Option Decimal := ofText? s <|> ofScientific? s

end Bourse.Decimal
