/-!
# JSON values

`Json` is a JSON text without its blanks. The fields of an object stay in the order they are
written in, repeated names included, and a number keeps whether it is written as a whole number
(`JsonNumber`).

A text may name code points that are no characters, by an unpaired half of a surrogate pair. Such a
text has no content: it is `none`.
-/

namespace Bourse

/-- A number as it is written. -/
inductive JsonNumber where
  /-- Digits only, with a minus sign or without. -/
  | whole (negative : Bool) (magnitude : Nat)
  /-- A number with a point or an exponent: the digits before the point, the digits behind it, and
  the power of ten that it is taken times. -/
  | scaled (negative : Bool) (whole : Nat) (places : List (Fin 10)) (exponent : Int)
deriving DecidableEq

/-- A JSON value. -/
inductive Json where
  | null
  | bool (b : Bool)
  | number (n : JsonNumber)
  | text (content : Option String)
  | array (items : List Json)
  | object (fields : List (Option String × Json))

namespace Json

/-- A number that counts something. -/
def ofNat (n : Nat) : Json := .number (.whole false n)

/-- A whole number. -/
def ofInt (n : Int) : Json := .number (.whole (n < 0) n.natAbs)

/-- A text. -/
def ofString (s : String) : Json := .text (some s)

/-- An object with named fields. -/
def ofFields (fields : List (String × Json)) : Json :=
  .object (fields.map fun f => (some f.1, f.2))

end Json

end Bourse
