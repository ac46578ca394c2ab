import Bourse.Json.Basic

/-!
# Reading JSON

`Json.parse?` reads a text that holds one JSON value, with blanks around any part of it and nothing
else. It is strict: no zero leads a whole number, no comma trails a list, and a control character
in a text has to be escaped.

A reader takes the characters that are left and answers with what it read and what is left then.
Reading a value is bounded by a number of steps; two for each character are enough.
-/

namespace Bourse.Json

/-- The blanks that JSON allows between its parts. -/
def isSpace (c : Char) : Bool := c = ' ' || c = '\t' || c = '\n' || c = '\r'

/-- What is left after blanks. -/
def skipSpace (cs : List Char) : List Char := cs.dropWhile isSpace

/-- The value of a hexadecimal digit of either case. -/
def hexDigit? (c : Char) : Option Nat :=
  if '0' ≤ c ∧ c ≤ '9' then some (c.toNat - '0'.toNat)
  else if 'a' ≤ c ∧ c ≤ 'f' then some (c.toNat - 'a'.toNat + 10)
  else if 'A' ≤ c ∧ c ≤ 'F' then some (c.toNat - 'A'.toNat + 10)
  else none

/-- The code unit of four hexadecimal digits. -/
def codeUnit? (a b c d : Char) : Option Nat := do
  return (((← hexDigit? a) * 16 + (← hexDigit? b)) * 16 + (← hexDigit? c)) * 16 + (← hexDigit? d)

/-- The character that an escape letter stands for. -/
def escapeLetter? : Char → Option Char
  | '"' => some '"'
  | '\\' => some '\\'
  | '/' => some '/'
  | 'b' => some '\x08'
  | 'f' => some '\x0c'
  | 'n' => some '\n'
  | 'r' => some '\r'
  | 't' => some '\t'
  | _ => none

/-- The unit is the first half of a surrogate pair. -/
def isHighSurrogate (n : Nat) : Bool := 0xd800 ≤ n && n ≤ 0xdbff

/-- The unit is the second half of a surrogate pair. -/
def isLowSurrogate (n : Nat) : Bool := 0xdc00 ≤ n && n ≤ 0xdfff

/-- Puts a character in front of the content of a text that was read. -/
def consChar (c : Char) : Option (Option (List Char) × List Char) →
    Option (Option (List Char) × List Char) :=
  Option.map fun r => (r.1.map (c :: ·), r.2)

/-- A text that was read, but whose content is not all characters. -/
def withoutContent : Option (Option (List Char) × List Char) →
    Option (Option (List Char) × List Char) :=
  Option.map fun r => (none, r.2)

/-- Reads a text after the opening quote. Escaped code units are read one at a time; `high` is the
first half of a surrogate pair, if that came just before. -/
def readText (high : Option Nat) : List Char → Option (Option (List Char) × List Char)
  | '"' :: rest => some (if high.isSome then none else some [], rest)
  | '\\' :: 'u' :: a :: b :: c :: d :: rest =>
    match codeUnit? a b c d with
    | none => none
    | some n =>
      match high with
      | some h =>
        if isLowSurrogate n then
          consChar (Char.ofNat (0x10000 + (h - 0xd800) * 0x400 + (n - 0xdc00)))
            (readText none rest)
        else
          withoutContent (readText none rest)
      | none =>
        if isHighSurrogate n then readText (some n) rest
        else if isLowSurrogate n then withoutContent (readText none rest)
        else consChar (Char.ofNat n) (readText none rest)
  | '\\' :: e :: rest =>
    match escapeLetter? e with
    | none => none
    | some c =>
      if high.isSome then withoutContent (readText none rest) else consChar c (readText none rest)
  | c :: rest =>
    if c = '\\' ∨ c.toNat < 0x20 then none
    else if high.isSome then withoutContent (readText none rest)
    else consChar c (readText none rest)
  | [] => none

/-- Reads a text after the opening quote. -/
def readString (cs : List Char) : Option (Option String × List Char) :=
  (readText none cs).map fun r => (r.1.map String.ofList, r.2)

/-- Splits off the decimal digits in front, at least one. -/
def readDigits (cs : List Char) : Option (List Char × List Char) :=
  let digits := cs.takeWhile Char.isDigit
  if digits.isEmpty then none else some (digits, cs.dropWhile Char.isDigit)

/-- Reads the whole part of a number; no zero leads it. -/
def readWhole (cs : List Char) : Option (List Char × List Char) :=
  match readDigits cs with
  | some ('0' :: _ :: _, _) => none
  | r => r

/-- Reads the places of a number, if a point follows. -/
def readPlaces : List Char → Option (List Char × List Char)
  | '.' :: rest => readDigits rest
  | cs => some ([], cs)

/-- Reads the digits of an exponent. -/
def readPower (negative : Bool) (cs : List Char) : Option (Int × List Char) :=
  (readDigits cs).map fun (digits, rest) =>
    let n := Nat.ofDigitChars 10 digits 0
    (if negative then -(n : Int) else n, rest)

/-- Reads the exponent of a number, if one follows. -/
def readExponent : List Char → Option (Option Int × List Char)
  | [] => some (none, [])
  | e :: rest =>
    if e = 'e' ∨ e = 'E' then
      (match rest with
        | '-' :: rest => readPower true rest
        | '+' :: rest => readPower false rest
        | rest => readPower false rest).map fun (n, rest) => (some n, rest)
    else
      some (none, e :: rest)

/-- The digit that a character stands for. -/
def digitOf (c : Char) : Fin 10 := Fin.ofNat 10 (c.toNat - '0'.toNat)

/-- Reads a number after its sign. -/
def readUnsigned (negative : Bool) (cs : List Char) : Option (JsonNumber × List Char) := do
  let (whole, rest) ← readWhole cs
  let (places, rest) ← readPlaces rest
  let (exponent, rest) ← readExponent rest
  if places.isEmpty && exponent.isNone then
    return (.whole negative (Nat.ofDigitChars 10 whole 0), rest)
  else
    return (.scaled negative (Nat.ofDigitChars 10 whole 0) (places.map digitOf)
      (exponent.getD 0), rest)

/-- Reads a number. -/
def readNumber : List Char → Option (JsonNumber × List Char)
  | '-' :: rest => readUnsigned true rest
  | cs => readUnsigned false cs

/-- Reads the name of a field and the colon after it. -/
def readName (cs : List Char) : Option (Option String × List Char) :=
  match skipSpace cs with
  | '"' :: rest =>
    match readString rest with
    | some (name, rest) =>
      match skipSpace rest with
      | ':' :: rest => some (name, rest)
      | _ => none
    | none => none
  | _ => none

mutual

/-- Reads a value, with blanks in front of it. -/
def readValue : (steps : Nat) → List Char → Option (Json × List Char)
  | 0, _ => none
  | steps + 1, cs =>
    match skipSpace cs with
    | 'n' :: 'u' :: 'l' :: 'l' :: rest => some (.null, rest)
    | 't' :: 'r' :: 'u' :: 'e' :: rest => some (.bool true, rest)
    | 'f' :: 'a' :: 'l' :: 's' :: 'e' :: rest => some (.bool false, rest)
    | '"' :: rest => (readString rest).map fun r => (.text r.1, r.2)
    | '[' :: rest =>
      match skipSpace rest with
      | ']' :: rest => some (.array [], rest)
      | rest => (readItems steps rest).map fun r => (.array r.1, r.2)
    | '\x7b' :: rest =>
      match skipSpace rest with
      | '\x7d' :: rest => some (.object [], rest)
      | rest => (readFields steps rest).map fun r => (.object r.1, r.2)
    | rest => (readNumber rest).map fun r => (.number r.1, r.2)

/-- Reads items and the end of the array; there is at least one. -/
def readItems : (steps : Nat) → List Char → Option (List Json × List Char)
  | 0, _ => none
  | steps + 1, cs =>
    match readValue steps cs with
    | none => none
    | some (item, rest) =>
      match skipSpace rest with
      | ']' :: rest => some ([item], rest)
      | ',' :: rest => (readItems steps rest).map fun r => (item :: r.1, r.2)
      | _ => none

/-- Reads fields and the end of the object; there is at least one. -/
def readFields : (steps : Nat) → List Char → Option (List (Option String × Json) × List Char)
  | 0, _ => none
  | steps + 1, cs =>
    match readName cs with
    | none => none
    | some (name, rest) =>
      match readValue steps rest with
      | none => none
      | some (value, rest) =>
        match skipSpace rest with
        | '\x7d' :: rest => some ([(name, value)], rest)
        | ',' :: rest => (readFields steps rest).map fun r => ((name, value) :: r.1, r.2)
        | _ => none

end

/-- Reads the characters of one value. -/
def ofChars? (cs : List Char) : Option Json :=
  match readValue (2 * cs.length + 2) cs with
  | some (j, rest) => if (skipSpace rest).isEmpty then some j else none
  | none => none

/-- Reads a text that holds one value. -/
def parse? (s : String) : Option Json := ofChars? s.toList

end Bourse.Json
