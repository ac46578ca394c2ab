import Bourse.Json.Basic

/-!
# Writing JSON

`Json.compact` writes a value without blanks. In a text the quote, the backslash and the control
characters of ASCII are escaped, by a letter where there is one; all other characters stand for
themselves.
-/

namespace Bourse.Json

/-- A character of a text as it is written between the quotes. -/
def escapeChar (c : Char) : List Char :=
  if c = '"' then ['\\', '"']
  else if c = '\\' then ['\\', '\\']
  else if c = '\x08' then ['\\', 'b']
  else if c = '\t' then ['\\', 't']
  else if c = '\n' then ['\\', 'n']
  else if c = '\x0c' then ['\\', 'f']
  else if c = '\r' then ['\\', 'r']
  else if c.toNat < 0x20 then
    ['\\', 'u', '0', '0', Nat.digitChar (c.toNat / 16), Nat.digitChar (c.toNat % 16)]
  else [c]

/-- A text in quotes; one without content as an unpaired surrogate. -/
def textChars : Option String → List Char
  | some s => '"' :: s.toList.flatMap escapeChar ++ ['"']
  | none => ['"', '\\', 'u', 'd', '8', '0', '0', '"']

/-- The sign of a number and its digits. -/
def signedChars (negative : Bool) (n : Nat) : List Char :=
  (if negative then ['-'] else []) ++ Nat.toDigits 10 n

/-- The places of a number behind the point, if there are any. -/
def placeChars : List (Fin 10) → List Char
  | [] => []
  | places => '.' :: places.map fun d => Nat.digitChar d.val

/-- A number; one that is not whole with its power of ten. -/
def numberChars : JsonNumber → List Char
  | .whole negative magnitude => signedChars negative magnitude
  | .scaled negative whole places exponent =>
    signedChars negative whole ++ placeChars places ++
      'e' :: signedChars (exponent < 0) exponent.natAbs

mutual

/-- The characters of a value. -/
def chars : Json → List Char
  | null => ['n', 'u', 'l', 'l']
  | bool true => ['t', 'r', 'u', 'e']
  | bool false => ['f', 'a', 'l', 's', 'e']
  | number n => numberChars n
  | text content => textChars content
  | array [] => ['[', ']']
  | array (item :: rest) => '[' :: chars item ++ itemsChars rest
  | object [] => ['\x7b', '\x7d']
  | object ((name, value) :: rest) =>
    '\x7b' :: textChars name ++ ':' :: chars value ++ fieldsChars rest

/-- The items after the first, and the end of the array. -/
def itemsChars : List Json → List Char
  | [] => [']']
  | item :: rest => ',' :: chars item ++ itemsChars rest

/-- The fields after the first, and the end of the object. -/
def fieldsChars : List (Option String × Json) → List Char
  | [] => ['\x7d']
  | (name, value) :: rest => ',' :: textChars name ++ ':' :: chars value ++ fieldsChars rest

end

/-- The value without blanks. -/
def compact (j : Json) : String := String.ofList j.chars

end Bourse.Json
