/-!
# Counts in texts

`readCount?` reads a count of at most 64 bits: decimal digits, at least one, with a plus sign in
front or none.
-/

namespace Bourse.Text

/-- The value of a text of decimal digits, at least one. -/
def readDigits? (cs : List Char) : Option Nat :=
  if cs.isEmpty || !cs.all Char.isDigit then none else some (Nat.ofDigitChars 10 cs 0)

/-- The count that a text spells. -/
def readCount? (s : String) : Option UInt64 :=
  let digits :=
    match s.toList with
    | '+' :: rest => rest
    | cs => cs
  match readDigits? digits with
  | some n => if n < UInt64.size then some (UInt64.ofNat n) else none
  | none => none

end Bourse.Text
