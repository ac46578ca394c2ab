import Bourse.Depth.Delta
import Bourse.Json.Parser
import Bourse.Json.Printer
import Bourse.PriceMap

/-!
# Wire forms

A type with a `WireForm` can be written as JSON and read back. Records are objects with their
fields in order; they are also read from arrays of their fields, and fields of other names do not
matter (`Json.record?`). A choice without data is its name, also read as the only name of an object
that holds null (`Json.choice?`).

Numbers have to fit their type and prices are texts, so that they keep their places.
-/

namespace Bourse

/-- Types that are written as JSON and read back. -/
class WireForm (α : Type) where
  /-- The JSON of a value. -/
  encode : α → Json
  /-- The value that a JSON stands for. -/
  decode? : Json → Option α

namespace Json

/-- The values of the named fields, in the order of the names. Each has to be there exactly
once. -/
def record? (names : List String) : Json → Option (List Json)
  | .array items => if items.length = names.length then some items else none
  | .object fields =>
    if fields.all fun f => f.1.isSome then
      names.mapM fun name =>
        match fields.filter fun f => f.1 = some name with
        | [(_, value)] => some value
        | _ => none
    else
      none
  | _ => none

/-- The name of a choice without data. -/
def choice? : Json → Option String
  | .text name => name
  | .object [(name, .null)] => name
  | _ => none

end Json

namespace WireForm

/-- The value as a text. -/
def write {α : Type} [WireForm α] (a : α) : String := (encode a).compact

/-- The value that a text stands for. -/
def read? {α : Type} [WireForm α] (s : String) : Option α := (Json.parse? s).bind decode?

/-- A whole number without sign and below a bound. -/
def natBelow? (bound : Nat) : Json → Option Nat
  | .number (.whole false n) => if n < bound then some n else none
  | _ => none

instance : WireForm UInt64 where
  encode n := .ofNat n.toNat
  decode? j := (natBelow? UInt64.size j).map UInt64.ofNat

instance : WireForm UInt32 where
  encode n := .ofNat n.toNat
  decode? j := (natBelow? UInt32.size j).map UInt32.ofNat

/-- A zero with a minus sign is not a whole number. -/
instance : WireForm Int64 where
  encode n := .ofInt n.toInt
  decode?
    | .number (.whole false n) => Delta.ofInt? n
    | .number (.whole true n) => if n = 0 then none else Delta.ofInt? (-n)
    | _ => none

instance : WireForm Bool where
  encode := .bool
  decode?
    | .bool b => some b
    | _ => none

instance : WireForm String where
  encode := .ofString
  decode?
    | .text content => content
    | _ => none

instance {α : Type} [WireForm α] : WireForm (List α) where
  encode l := .array (l.map encode)
  decode?
    | .array items => items.mapM decode?
    | _ => none

instance {α β : Type} [WireForm α] [WireForm β] : WireForm (α × β) where
  encode p := .array [encode p.1, encode p.2]
  decode?
    | .array [a, b] => do return (← decode? a, ← decode? b)
    | _ => none

end WireForm

end Bourse
