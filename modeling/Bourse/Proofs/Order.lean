import Bourse.Orders
import Bourse.Proofs.Quantity

/-!
# Orders in time

An order keeps its terms for good; it can be filled, closed, and, if it is a dormant stop-loss,
activated. `Order.Follows` says that one state of an order comes after another, `Orders.Follow`
says it of all rows of the table. What is no longer open never is again (`Order.Follows.isOpen`).
-/

namespace Bourse

namespace Order

variable {o o' o'' : Order} {q : Quantity}

/-- An order is open if it is not closed and has something left. -/
theorem isOpen_iff : o.isOpen = true ↔ o.closed = false ∧ 0 < o.unfulfilled.toNat := by
  unfold isOpen
  rw [Bool.and_eq_true, Bool.not_eq_true', Bool.not_eq_true', Quantity.isZero_eq_false_iff]

/-- What is left of an order is its quantity without what was filled. -/
theorem toNat_unfulfilled (o : Order) :
    o.unfulfilled.toNat = o.quantity.toNat - o.fulfilled.toNat := Quantity.toNat_monus _ _

/-- The order with a fill added that it has left, closed if nothing is left then. -/
def filled (o : Order) (q : Quantity) : Order :=
  let fulfilled : Quantity := ⟨o.fulfilled.count + q.count⟩
  { o with fulfilled, closed := o.closed || fulfilled == o.quantity }

/-- A fill of what is left stays within the quantity. -/
theorem toNat_add_le (h : q.toNat ≤ o.unfulfilled.toNat) :
    o.fulfilled.toNat + q.toNat ≤ max o.quantity.toNat o.fulfilled.toNat := by
  rw [toNat_unfulfilled] at h
  omega

/-- A fill of what is left is carried out. -/
theorem fill_eq (h : q.toNat ≤ o.unfulfilled.toNat) : o.fill q = .ok (o.filled q) := by
  have hsum := toNat_add_le h
  have hq := o.quantity.toNat_lt
  have hf := o.fulfilled.toNat_lt
  have hadd : o.fulfilled.add q = .ok ⟨o.fulfilled.count + q.count⟩ :=
    if_pos (show o.fulfilled.toNat + q.toNat < 2 ^ 64 by omega)
  unfold fill
  rw [if_pos (Quantity.le_def.2 h), hadd]
  rfl

/-- A fill adds to what was filled. -/
theorem toNat_fulfilled_filled (h : q.toNat ≤ o.unfulfilled.toNat) :
    (o.filled q).fulfilled.toNat = o.fulfilled.toNat + q.toNat := by
  have hsum := toNat_add_le h
  have hq := o.quantity.toNat_lt
  have hf := o.fulfilled.toNat_lt
  show (o.fulfilled.count + q.count).toNat = _
  rw [UInt64.toNat_add]
  exact Nat.mod_eq_of_lt (show o.fulfilled.toNat + q.toNat < 2 ^ 64 by omega)

/-- A fill takes off what is left. -/
theorem toNat_unfulfilled_filled (h : q.toNat ≤ o.unfulfilled.toNat) :
    (o.filled q).unfulfilled.toNat = o.unfulfilled.toNat - q.toNat := by
  rw [toNat_unfulfilled, toNat_unfulfilled, toNat_fulfilled_filled h]
  show o.quantity.toNat - _ = _
  omega

/-- A fill closes an order that becomes full. -/
theorem closed_filled : (o.filled q).closed = (o.closed || (o.filled q).fulfilled == o.quantity) :=
  rfl

/-- An open order is closed by a fill of all it has left, and by no smaller one. -/
theorem closed_filled_iff (ho : o.isOpen = true) (h : q.toNat ≤ o.unfulfilled.toNat) :
    (o.filled q).closed = true ↔ q.toNat = o.unfulfilled.toNat := by
  obtain ⟨hclosed, hpos⟩ := isOpen_iff.1 ho
  rw [closed_filled, hclosed, Bool.false_or, beq_iff_eq, ← Quantity.toNat_inj,
    toNat_fulfilled_filled h]
  rw [toNat_unfulfilled] at *
  omega

/-- The second state of an order comes after the first. -/
structure Follows (o o' : Order) : Prop where
  id : o'.id = o.id
  user : o'.user = o.user
  instrument : o'.instrument = o.instrument
  side : o'.side = o.side
  type : o'.type = o.type ∨ o.type = .stopLoss ∧ o'.type = .stopLossActive
  price : o'.price = o.price
  quantity : o'.quantity = o.quantity
  createdAt : o'.createdAt = o.createdAt
  closed : o.closed = true → o'.closed = true
  fulfilled : o.fulfilled.toNat ≤ o'.fulfilled.toNat

namespace Follows

theorem refl (o : Order) : Follows o o :=
  ⟨rfl, rfl, rfl, rfl, .inl rfl, rfl, rfl, rfl, fun hc => hc, le_rfl⟩

theorem trans (h : Follows o o') (h' : Follows o' o'') : Follows o o'' where
  id := h'.id.trans h.id
  user := h'.user.trans h.user
  instrument := h'.instrument.trans h.instrument
  side := h'.side.trans h.side
  type := by
    rcases h.type with ht | ⟨ht, ht'⟩
    · rw [← ht]
      exact h'.type
    · rcases h'.type with hu | ⟨hu, _⟩
      · exact .inr ⟨ht, hu.trans ht'⟩
      · rw [ht'] at hu
        cases hu
  price := h'.price.trans h.price
  quantity := h'.quantity.trans h.quantity
  createdAt := h'.createdAt.trans h.createdAt
  closed hc := h'.closed (h.closed hc)
  fulfilled := h.fulfilled.trans h'.fulfilled

/-- An active order keeps its type. -/
theorem type_eq (h : Follows o o') (ht : o.type ≠ .stopLoss) : o'.type = o.type :=
  h.type.resolve_right fun h => ht h.1

/-- An active order stays active. -/
theorem type_ne (h : Follows o o') (ht : o.type ≠ .stopLoss) : o'.type ≠ .stopLoss :=
  h.type_eq ht ▸ ht

/-- What is not closed was not closed before. -/
theorem not_closed (h : Follows o o') (hc : o'.closed = false) : o.closed = false := by
  cases hc' : o.closed
  · rfl
  · exact (h.closed hc').symm.trans hc

/-- What is not open any more stays so. -/
theorem isOpen (h : Follows o o') (ho : o'.isOpen = true) : o.isOpen = true := by
  rw [isOpen_iff, toNat_unfulfilled] at *
  have := h.fulfilled
  rw [h.quantity] at ho
  exact ⟨h.not_closed ho.1, by omega⟩

/-- An order that is not open stays so. -/
theorem not_isOpen (h : Follows o o') (ho : o.isOpen = false) : o'.isOpen = false := by
  cases ho' : o'.isOpen
  · rfl
  · exact (h.isOpen ho').symm.trans ho

end Follows

/-- An order may be filled with what it has left. -/
theorem follows_filled (h : q.toNat ≤ o.unfulfilled.toNat) : Follows o (o.filled q) where
  id := rfl
  user := rfl
  instrument := rfl
  side := rfl
  type := .inl rfl
  price := rfl
  quantity := rfl
  createdAt := rfl
  closed hc := by rw [closed_filled, hc, Bool.true_or]
  fulfilled := by rw [toNat_fulfilled_filled h]; omega

/-- An order may be closed. -/
theorem follows_close : Follows o o.close :=
  ⟨rfl, rfl, rfl, rfl, .inl rfl, rfl, rfl, rfl, fun _ => rfl, le_rfl⟩

/-- A stop-loss may be activated. -/
theorem follows_activateStopLoss : Follows o o.activateStopLoss.2 := by
  unfold activateStopLoss
  split
  · next h => exact ⟨rfl, rfl, rfl, rfl, .inr ⟨h, rfl⟩, rfl, rfl, rfl, fun hc => hc, le_rfl⟩
  · exact .refl o

/-- An activated stop-loss is active. -/
theorem type_activateStopLoss : o.activateStopLoss.2.type ≠ .stopLoss := by
  unfold activateStopLoss
  split
  · nofun
  · next h => exact h

end Order

namespace Orders

variable {os os' os'' : Orders} {r r' : OrderRef} {f : Order → Order}

@[simp] theorem get_modify (os : Orders) (r r' : OrderRef) (f : Order → Order) :
    (os.modify r f).get r' = if r = r' then f (os.get r) else os.get r' := get_set ..

/-- An order is on one side only. -/
theorem ne_of_side (h : (os.get r).side = .ask) (h' : (os.get r').side = .bid) : r ≠ r' := by
  intro heq
  rw [heq, h'] at h
  cases h

/-- Each row of the second table comes after that of the first. -/
def Follow (os os' : Orders) : Prop := ∀ r, (os.get r).Follows (os'.get r)

theorem Follow.refl (os : Orders) : Follow os os := fun _ => .refl _

theorem Follow.trans (h : Follow os os') (h' : Follow os' os'') : Follow os os'' :=
  fun r => (h r).trans (h' r)

/-- Changing one order to a later one leads to later orders. -/
theorem follow_modify (h : (os.get r).Follows (f (os.get r))) : Follow os (os.modify r f) :=
  fun r' => by
    rw [get_modify]
    split
    · next heq => exact heq ▸ h
    · exact .refl _

end Orders

end Bourse
