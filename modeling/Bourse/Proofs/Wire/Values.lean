import Bourse.Proofs.Decimal.Text
import Bourse.Proofs.Json.RoundTrip
import Bourse.Proofs.Quantity
import Bourse.Wire.Values

/-!
# Values on the wire

A wire form returns a value in a plain form if what is written for a value is read as its plain
form, and if no two values are written in the same way (`WireForm.Returns`). Most types are
returned as they are; a price comes back without the sign of a zero (`Price.plain`). Lists and
pairs return what their items return.
-/

namespace Bourse

namespace Price

/-- The price, without the sign of a zero. -/
def plain (p : Price) : Price := ⟨p.value.plain⟩

/-- The price is a zero with a minus sign. -/
def isNegativeZero (p : Price) : Bool := p.value.isNegativeZero

@[simp] theorem units_plain (p : Price) : p.plain.units = p.units := p.value.units_plain

/-- A price is plain unless it is a negative zero. -/
theorem plain_eq_self_iff {p : Price} : p.plain = p ↔ p.isNegativeZero = false := by
  rw [isNegativeZero, ← Decimal.plain_eq_self_iff]
  exact ⟨congrArg Price.value, congrArg Price.mk⟩

/-- No two prices are written alike. -/
theorem text_injective : Function.Injective text :=
  fun _ _ h => congrArg Price.mk (Decimal.text_injective h)

end Price

namespace WireForm

variable {α β : Type} [WireForm α] [WireForm β]

/-- What is written for a value is read as the plain form of the value, and is written for no other
value. -/
structure Returns (plain : α → α) : Prop where
  decode_encode : ∀ a : α, decode? (encode a) = some (plain a)
  encode_injective : Function.Injective (encode : α → Json)

/-- What is decoded as it was encoded returns as it is. -/
theorem Returns.of_decode (h : ∀ a : α, decode? (encode a) = some a) : Returns (id : α → α) where
  decode_encode := h
  encode_injective a b hab := by
    have hread := h a
    rw [hab, h b] at hread
    exact (Option.some.inj hread).symm

/-- What is returned is also returned as a text. -/
theorem Returns.read?_write {plain : α → α} (h : Returns plain) (a : α) :
    read? (write a) = some (plain a) := by
  rw [read?, write, Json.parse?_compact]
  exact h.decode_encode a

/-- Values that return are written alike only if they are the same. -/
theorem Returns.write_injective {plain : α → α} (h : Returns plain) :
    Function.Injective (write : α → String) :=
  Json.compact_injective.comp h.encode_injective

/-! ## Numbers, flags and texts -/

/-- A number of 64 bits returns. -/
theorem returns_uint64 : Returns (id : UInt64 → UInt64) := .of_decode fun n => by
  show (if n.toNat < UInt64.size then some n.toNat else none).map UInt64.ofNat = some n
  rw [if_pos n.toNat_lt, Option.map_some, UInt64.ofNat_toNat]

/-- A number of 32 bits returns. -/
theorem returns_uint32 : Returns (id : UInt32 → UInt32) := .of_decode fun n => by
  show (if n.toNat < UInt32.size then some n.toNat else none).map UInt32.ofNat = some n
  rw [if_pos n.toNat_lt, Option.map_some, UInt32.ofNat_toNat]

/-- A difference is recovered from its value. -/
theorem ofInt?_toInt (n : Int64) : Delta.ofInt? n.toInt = some n := by
  obtain ⟨d, hd, hn⟩ := Delta.ofInt?_eq ⟨n.le_toInt, n.toInt_lt⟩
  rw [hd, Int64.toInt_inj.1 hn]

/-- A number below zero is written with its sign, and zero without one. -/
theorem returns_int64 : Returns (id : Int64 → Int64) := .of_decode fun n => by
  by_cases hneg : n.toInt < 0
  · have hencode : encode n = .number (.whole true n.toInt.natAbs) := by
      show Json.ofInt n.toInt = _
      rw [Json.ofInt, decide_eq_true hneg]
    have hne : n.toInt.natAbs ≠ 0 := by omega
    have habs : -(n.toInt.natAbs : Int) = n.toInt := by omega
    rw [hencode]
    show (if n.toInt.natAbs = 0 then none else Delta.ofInt? (-(n.toInt.natAbs : Int))) = some n
    rw [if_neg hne, habs, ofInt?_toInt]
  · have hencode : encode n = .number (.whole false n.toInt.natAbs) := by
      show Json.ofInt n.toInt = _
      rw [Json.ofInt, decide_eq_false hneg]
    have habs : (n.toInt.natAbs : Int) = n.toInt := by omega
    rw [hencode]
    show Delta.ofInt? (n.toInt.natAbs : Int) = some n
    rw [habs, ofInt?_toInt]

/-- A truth value returns. -/
theorem returns_bool : Returns (id : Bool → Bool) := .of_decode fun _ => rfl

/-- A text returns. -/
theorem returns_string : Returns (id : String → String) := .of_decode fun _ => rfl

/-! ## Lists, pairs and choices -/

/-- A list is decoded element by element. -/
theorem mapM_decode?_encode {plain : α → α} (h : Returns plain) (l : List α) :
    (l.map encode).mapM (decode? (α := α)) = some (l.map plain) := by
  induction l with
  | nil => rfl
  | cons a l ih => simp [h.decode_encode, ih]

/-- A list returns if its elements do. -/
theorem returns_list {plain : α → α} (h : Returns plain) : Returns (List.map plain) where
  decode_encode := mapM_decode?_encode h
  encode_injective _ _ heq :=
    (List.map_inj_right fun _ _ hab => h.encode_injective hab).1 (Json.array.inj heq)

/-- A pair returns if both parts do. -/
theorem returns_prod {plain : α → α} {plain' : β → β} (h : Returns plain) (h' : Returns plain') :
    Returns (Prod.map plain plain') where
  decode_encode p := by
    show (do return (← decode? (encode p.1), ← decode? (encode p.2))) = _
    rw [h.decode_encode, h'.decode_encode]
    rfl
  encode_injective p p' heq := by
    have hitems : [encode p.1, encode p.2] = [encode p'.1, encode p'.2] := Json.array.inj heq
    injection hitems with hfst hrest
    injection hrest with hsnd
    exact Prod.ext (h.encode_injective hfst) (h'.encode_injective hsnd)

/-- A choice is returned by its name. -/
theorem returns_ofNames {γ : Type} {name : γ → String} {members : List γ} (hmem : ∀ a, a ∈ members)
    (hname : Function.Injective name) : @Returns γ (ofNames name members) id := by
  refine @Returns.of_decode γ (ofNames name members) fun a => ?_
  show (members.find? fun b => name b = name a) = some a
  have hsome : (members.find? fun b => name b = name a).isSome :=
    List.find?_isSome.2 ⟨a, hmem a, decide_eq_true rfl⟩
  obtain ⟨b, hb⟩ := Option.isSome_iff_exists.1 hsome
  have hsame : name b = name a := by simpa using List.find?_some hb
  rw [hb, hname hsame]

/-- A type that only wraps another is returned as that one is. -/
theorem Returns.wrap {mk : α → β} {value : β → α} (h : Returns (id : α → α))
    (hencode : ∀ b, encode b = encode (value b)) (hdecode : ∀ j, decode? j = (decode? j).map mk)
    (hmk : ∀ b, mk (value b) = b) : Returns (id : β → β) := .of_decode fun b => by
  rw [hencode, hdecode, h.decode_encode, Option.map_some, id, hmk]

end WireForm

open WireForm

/-- A quantity returns. -/
theorem returns_quantity : Returns (id : Quantity → Quantity) :=
  returns_uint64.wrap (fun _ => rfl) (fun _ => rfl) fun _ => rfl

/-- The number of an instrument returns. -/
theorem returns_instrumentId : Returns (id : InstrumentId → InstrumentId) :=
  returns_uint32.wrap (fun _ => rfl) (fun _ => rfl) fun _ => rfl

/-- The number of a user returns. -/
theorem returns_userId : Returns (id : UserId → UserId) :=
  returns_uint32.wrap (fun _ => rfl) (fun _ => rfl) fun _ => rfl

/-- The number of an order returns. -/
theorem returns_orderId : Returns (id : OrderId → OrderId) :=
  returns_uint64.wrap (fun _ => rfl) (fun _ => rfl) fun _ => rfl

/-- A moment returns. -/
theorem returns_timestamp : Returns (id : Timestamp → Timestamp) :=
  returns_int64.wrap (fun _ => rfl) (fun _ => rfl) fun _ => rfl

/-- The sides have different names. -/
theorem Side.wireName_injective : Function.Injective Side.wireName := by
  intro a b h
  cases a <;> cases b <;> first | rfl | exact absurd h (by decide)

/-- A side returns. -/
theorem returns_side : Returns (id : Side → Side) :=
  returns_ofNames (fun a => by cases a <;> decide) Side.wireName_injective

/-- The types of orders have different names. -/
theorem OrderType.wireName_injective : Function.Injective OrderType.wireName := by
  intro a b h
  cases a <;> cases b <;> first | rfl | exact absurd h (by decide)

/-- The type of an order returns. -/
theorem returns_orderType : Returns (id : OrderType → OrderType) :=
  returns_ofNames (fun a => by cases a <;> decide) OrderType.wireName_injective

/-- A price is returned with all its places. -/
theorem returns_price : Returns Price.plain where
  decode_encode p := by
    show (Decimal.read? p.text).map Price.mk = some p.plain
    rw [Price.text, Decimal.read?_text]
    rfl
  encode_injective _ _ heq := Price.text_injective (Option.some.inj (Json.text.inj heq))

end Bourse
