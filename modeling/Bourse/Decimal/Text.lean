import Bourse.Decimal

/-!
# The text of a decimal

`Decimal.text` writes the digits of the coefficient with a point in front of the last `scale` of
them; at least one digit stands before the point. `Decimal.ofText?` reads an optional sign, digits
that may be set apart by underscores, and at most one point.

Digits behind the point that no longer fit are rounded away by the first of them, a half upwards.
Right behind the 28th place of a short coefficient an underscore counts as that first digit, a
zero; it sets digits apart everywhere else. Digits before the point that do not fit make the text
unreadable.
-/

namespace Bourse.Decimal

/-- The digits of the coefficient, at least one more than there are places. -/
def digits (d : Decimal) : List Char :=
  let ds := Nat.toDigits 10 d.coefficient
  List.replicate (d.scale + 1 - ds.length) '0' ++ ds

/-- The characters of the decimal: sign, whole part, point and places. -/
def chars (d : Decimal) : List Char :=
  let ds := d.digits
  let whole := ds.take (ds.length - d.scale)
  let places := ds.drop (ds.length - d.scale)
  (if d.negative then ['-'] else []) ++ whole ++ (if d.scale = 0 then [] else '.' :: places)

/-- The decimal with all its places, trailing zeros included. -/
def text (d : Decimal) : String := String.ofList d.chars

/-- The value of a decimal digit. -/
def digit? (c : Char) : Option Nat :=
  if c.isDigit then some (c.toNat - '0'.toNat) else none

/-- Rounds a coefficient by the first digit that no longer fits. A coefficient that rounding lifts
out of range gives up one more place. -/
def roundedBy (negative : Bool) (coefficient scale next : Nat) : Option Decimal :=
  if next < 5 then
    ofParts? negative coefficient scale
  else if coefficient + 1 < coefficientBound then
    ofParts? negative (coefficient + 1) scale
  else if scale = 0 then
    none
  else
    ofParts? negative ((coefficient + 5) / 10) (scale - 1)

/-- The decimal `coefficient · 10 ^ exponent`. Without places it has to fit as it is. -/
def ofScaled? (negative : Bool) (coefficient : Nat) (exponent : Int) : Option Decimal :=
  let places := (-exponent).toNat
  if places ≤ 28 then
    ofParts? negative (coefficient * Nat.pow 10 exponent.toNat) places
  else
    let cut := places - 29
    let shifted := coefficient / Nat.pow 10 cut
    roundedBy negative (shifted / 10) 28 (shifted % 10)

/-- The text goes on with digits and underscores only. -/
def onlyDigits (cs : List Char) : Bool := cs.all fun c => c.isDigit || c = '_'

/-- A decimal whose text goes on after the digit that rounds it. -/
def cutOff (negative : Bool) (coefficient scale next : Nat) (rest : List Char) : Option Decimal :=
  if onlyDigits rest then roundedBy negative coefficient scale next else none

/-- A coefficient is short if the digits before its last one are below this bound, so that 64 bits
hold one more. -/
def shortBound : Nat := (UInt64.size - 1) / 10 - 255

/-- The coefficient is short. -/
def isShort (coefficient : Nat) : Bool := coefficient / 10 < shortBound

/-- Reads digits, underscores and the point. `point` and `started` say whether a point and a digit
have been read, `coefficient` and `scale` are what they amount to so far. -/
def readDigits (negative : Bool) :
    (point started : Bool) → (coefficient scale : Nat) → List Char → Option Decimal
  | _, started, coefficient, scale, [] =>
    if started then ofParts? negative coefficient scale else none
  | point, started, coefficient, scale, c :: rest =>
    match digit? c with
    | some n =>
      let coefficient' := coefficient * 10 + n
      let scale' := if point then scale + 1 else scale
      if coefficient' < coefficientBound ∧ scale' ≤ 28 then
        readDigits negative point true coefficient' scale' rest
      else if point then
        cutOff negative coefficient scale n rest
      else
        none
    | none =>
      if c = '.' ∧ point = false then
        readDigits negative true started coefficient scale rest
      else if c = '_' ∧ started = true then
        if scale = 28 ∧ isShort coefficient then
          cutOff negative coefficient scale 0 rest
        else
          readDigits negative point started coefficient scale rest
      else
        none

/-- Reads the characters of a decimal, the sign first. -/
def ofChars? : List Char → Option Decimal
  | '-' :: rest => readDigits true false false 0 0 rest
  | '+' :: rest => readDigits false false false 0 0 rest
  | rest => readDigits false false false 0 0 rest

/-- Reads the text of a decimal; the scale is the number of places written. -/
def ofText? (s : String) : Option Decimal := ofChars? s.toList

end Bourse.Decimal
