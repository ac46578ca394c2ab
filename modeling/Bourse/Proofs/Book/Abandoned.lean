import Bourse.Proofs.Book.Stalled
import Bourse.Proofs.Queue.Served

/-!
# A match step that is abandoned

When settlement finishes neither order of a pair, the step is abandoned, and matching the incoming
order ends. `Desk.Abandoned` says that nothing of it is lost: what was set aside is back with its
old rank, the ledger shows what is left of the resting order, a trade has set the last price and
set off the stop-losses that it reaches, and the incoming order rests.

The book is in good order before (`Desk.WellKept`) and the incoming order is new to it
(`Desk.Newcomes`).
-/

namespace Bourse

open Bourse.Action

variable {σ : Type} {S : Settlement σ}

namespace Desk

variable {d d' : Desk (Recorded σ)} {s : Logged (Desk (Recorded σ))} {r : OrderRef} {i : Item}
  {out : FillOutcome} {o : Office σ} {side : Side} {roomy : Prop} {n : Nat} {fired : List OrderRef}

/-- A book in good order: its queues are sound, stop-losses are parked where they belong, no two
orders have the same number, and each open resting limit order is shown with what it has left. -/
structure WellKept (d : Desk σ) : Prop where
  sound : Sound (fun _ => True) d
  ordered : ∀ s, (d.book.stopLossQueue s).Ordered (.ofStopLoss s)
  parked : ∀ s, ∀ k ∈ (d.book.stopLossQueue s).bag, (d.order k.order).id = k.id ∧
    (d.order k.order).side = s ∧
    (d.order k.order).type = .stopLoss ∧ k.type = .stopLoss ∧ k.price = (d.order k.order).price
  distinct : (d.book.stock.map (·.id)).Nodup
  shown : ∀ s, ∀ k ∈ (d.book.queue s).bag, (d.order k.order).isOpen = true →
    (d.order k.order).type = .limit → d.book.ledger.find? k.id = some (.ofOrder (d.order k.order))

/-- The order is not in the book: its number is in no queue and not in the ledger. -/
structure Newcomes (d : Desk σ) (r : OrderRef) : Prop where
  fresh : ∀ k ∈ d.book.stock, k.id ≠ (d.order r).id
  unshown : d.book.ledger.find? (d.order r).id = none

namespace WellKept

variable {d : Desk σ} {s : Side} {j k : Item}

/-- An item carries the number of its order. -/
theorem id_of_mem (h : WellKept d) (hk : k ∈ d.book.stock) : (d.order k.order).id = k.id := by
  obtain ⟨s, hk | hk⟩ := Book.mem_stock.1 hk
  · exact (h.sound.resting s k hk).id
  · exact (h.parked s k hk).1

/-- Items of one number are the same item. -/
theorem eq_of_id (h : WellKept d) (hj : j ∈ d.book.stock) (hk : k ∈ d.book.stock)
    (hid : j.id = k.id) : j = k :=
  Multiset.inj_on_of_nodup_map h.distinct j hj k hk hid

/-- No two items of a queue have one number. -/
theorem nodup_queue (h : WellKept d) (s : Side) : ((d.book.queue s).bag.map (·.id)).Nodup := by
  obtain ⟨rest, hrest, -⟩ := Book.stock_withQueue d.book (d.book.queue s) s
  exact Multiset.nodup_of_le (Multiset.map_le_map (hrest ▸ Multiset.le_add_right _ _)) h.distinct

/-- Dormant stop-losses are where they belong, each of them once. -/
theorem parks (h : WellKept d) : Parks d where
  ordered := h.ordered
  item s k hk := (h.parked s k hk).2
  distinct s := by
    obtain ⟨rest, hrest, -⟩ := Book.stock_withStopLossQueue d.book (d.book.stopLossQueue s) s
    have hids : ((d.book.stopLossQueue s).bag.map (·.id)).Nodup :=
      Multiset.nodup_of_le (Multiset.map_le_map (hrest ▸ Multiset.le_add_right _ _)) h.distinct
    -- the number is that of the order
    refine Multiset.Nodup.of_map (fun r => (d.order r).id) ?_
    rw [Multiset.map_map]
    exact (Multiset.map_congr rfl fun k hk => (h.parked s k hk).1) ▸ hids

/-- A newcomer is none of the orders in the queues. -/
theorem ne_of_mem (h : WellKept d) {r : OrderRef} (hr : Newcomes d r) (hk : k ∈ d.book.stock) :
    k.order ≠ r := by
  rintro rfl
  exact hr.fresh k hk (h.id_of_mem hk).symm

/-- The number of an open order of the book is not spent. -/
theorem not_spent {d : Desk (Recorded σ)} (h : WellKept d) {side : Side} (hk : k ∈ d.book.stock)
    (hopen : (d.order k.order).isOpen = true) : ¬ d.Spent side k.id := by
  rintro ⟨j, hj, hclosed, hid⟩
  have hj := Book.mem_stock.2 ⟨side, .inl hj⟩
  rw [h.eq_of_id hj hk ((h.id_of_mem hj).symm.trans hid), hopen] at hclosed
  cases hclosed

end WellKept

/-- What is left when a step was abandoned, in which settlement was called for an incoming order
and the resting one of an item, answered with an outcome and left an office, and these stop-losses
fired. -/
structure Abandoned (S : Settlement σ) (r : OrderRef) (i : Item) (out : FillOutcome) (o : Office σ)
    (fired : List OrderRef) (d d' : Desk (Recorded σ)) : Prop where
  /-- No other call to fill was made. -/
  fills : d'.office.backend.transcript.fills =
    d.office.backend.transcript.fills ++ [d.call r i.order out o]
  /-- The open orders of the other side, those that were set aside included, are there with their
  old ranks. -/
  kept : ∀ k ∈ (d.book.queue (d.order r).side.opposite).bag, (d.order k.order).isOpen = true →
    k ∈ (d'.book.queue (d.order r).side.opposite).bag
  /-- But for what fired, the open orders of the other side are served as before. -/
  drained : ((d'.book.queue (d.order r).side.opposite).drain.filter fun k =>
      (d'.order k.order).isOpen && decide (k.order ∉ fired)) =
    (d.book.queue (d.order r).side.opposite).drain.filter fun k => (d'.order k.order).isOpen
  /-- What was traded is taken off what is shown of the resting order, if it is shown. -/
  shown : d'.book.ledger.find? i.id = (d.book.ledger.find? i.id).bind (·.left? false out.trade)
  /-- A limit order is shown with exactly as much less, and something is left. -/
  limit : (d.order i.order).type = .limit → ∃ e, d.book.ledger.find? i.id = some e ∧
    out.traded.toNat < e.quantity.toNat ∧
    d'.book.ledger.find? i.id = some { e with quantity := e.quantity.monus out.traded }
  /-- Nothing else that is open is shown differently. -/
  others : ∀ s, ∀ k ∈ (d.book.queue s).bag, k ≠ i → (d.order k.order).isOpen = true →
    d'.book.ledger.find? k.id = d.book.ledger.find? k.id
  lastPrice : d'.book.lastPrice = (out.trade.map (·.price)).getD d.book.lastPrice
  /-- Exactly those dormant stop-losses fire that are not closed and that the trade reaches. -/
  mem_fired : ∀ r', r' ∈ fired ↔ ∃ t s, out.trade = some t ∧ ∃ k ∈ (d.book.stopLossQueue s).bag,
    k.order = r' ∧ (o.orders.get r').closed = false ∧ (d.order r').ReachedAt t.price
  /-- Each is reported once. -/
  nodup : fired.Nodup
  reported : d'.office.backend.transcript.reported = d.office.backend.transcript.reported ++ fired
  /-- It is active, rests once on its side and is not dormant any more. -/
  active : ∀ r' ∈ fired, (d'.order r').type = .stopLossActive ∧
    ((d'.book.queue (d.order r').side).bag.map (·.order)).count r' = 1 ∧
    ∀ s, ∀ k ∈ (d'.book.stopLossQueue s).bag, k.order ≠ r'
  /-- The other dormant stop-losses that are not closed stay where they are. -/
  parked : ∀ s, ∀ k ∈ (d.book.stopLossQueue s).bag, (o.orders.get k.order).closed = false →
    k.order ∉ fired → k ∈ (d'.book.stopLossQueue s).bag
  /-- Nothing else is activated. -/
  unactivated : ∀ r', r' ∉ fired → (d'.order r').type = (d.order r').type
  /-- The incoming order is as the call left it, unless taking note of stop-losses changes it. -/
  still : S.LeavesAlone r → d'.order r = o.orders.get r
  /-- If it is open it rests once, and is shown with what it has left. -/
  rests : (d'.order r).isOpen = true →
    .ofOrder r (d'.order r) ∈ (d'.book.queue (d.order r).side).bag ∧
    ((d'.book.queue (d.order r).side).bag.map (·.order)).count r = 1 ∧
    d'.book.ledger.find? (d.order r).id = some (.ofOrder (d'.order r))

/-! ## The parts of the step -/

/-- Nothing changes orders but the call that stalls. -/
theorem Stalled.order {c : FillCall} {id : OrderId} (h : Stalled roomy n side c id out o d d')
    (r : OrderRef) : d'.order r = o.orders.get r := by
  unfold Desk.order
  rw [h.office]
  rfl

/-- A call that stalls puts nothing into a queue. -/
theorem Stalled.mem_bag {c : FillCall} {id : OrderId} (h : Stalled roomy n side c id out o d d')
    {s : Side} {k : Item} (hk : k ∈ (d'.book.queue s).bag) : k ∈ (d.book.queue s).bag := by
  obtain rfl | rfl : s = side ∨ s = side.opposite := by cases s <;> cases side <;> decide
  · rwa [h.others] at hk
  · obtain ⟨dropped, hbag, -⟩ := h.queue
    exact hbag ▸ Multiset.mem_add.2 (.inr hk)

namespace Course

variable {d₁ d₂ : Desk (Recorded σ)} {r' : OrderRef} {k : Item} {id : OrderId}
  (h : Course S roomy r i out o fired d d₁ d₂ d')

include h

/-- Once stop-losses are activated, orders are as the rest of the step leaves them. -/
theorem order (r' : OrderRef) : d'.order r' = d₂.order r' := h.leaves.order r'

/-- The step takes nothing back. -/
theorem follow (r' : OrderRef) : (d.order r').Follows (d'.order r') :=
  h.order r' ▸ h.fired.follow (h.stalled.office ▸ h.retain.follow) r'

/-- Settlement is asked once, for the pair that stalls. -/
theorem fills : d'.office.backend.transcript.fills =
    d.office.backend.transcript.fills ++ [d.call r i.order out o] := by
  rw [h.leaves.office, h.fired.fills, h.stalled.office]
  exact Transcript.fills_snoc_fill ..

/-- Settlement is told of the activated stop-losses, in the order in which they were activated. -/
theorem reported :
    d'.office.backend.transcript.reported = d.office.backend.transcript.reported ++ fired := by
  rw [h.leaves.office, h.fired.reported, h.stalled.office]
  exact congrArg (· ++ fired) (Transcript.reported_snoc_fill ..)

theorem lastPrice : d'.book.lastPrice = (out.trade.map (·.price)).getD d.book.lastPrice := by
  rw [h.leaves.lastPrice, ← h.stalled.lastPrice]
  exact congrArg (·.2.1) h.fired.header

/-! ### What fires -/

/-- Activated are the open dormant stop-losses that the trade reaches, and no others. -/
theorem mem_fired : r' ∈ fired ↔ ∃ t s, out.trade = some t ∧ ∃ k ∈ (d.book.stopLossQueue s).bag,
    k.order = r' ∧ (o.orders.get r').closed = false ∧ (d.order r').ReachedAt t.price := by
  rw [h.fired.mem, h.stalled.order]
  simp only [h.stalled.stopLossQueue]
  rw [show (o.orders.get r').ReachedAt = (d.order r').ReachedAt from
    funext fun p => propext (h.retain.follow r').reachedAt]

/-- What fires was dormant before. -/
theorem dormant_before (hr : r' ∈ fired) :
    ∃ s, ∃ k ∈ (d.book.stopLossQueue s).bag, k.order = r' := by
  obtain ⟨t, s, -, k, hk, hkr, -⟩ := h.mem_fired.1 hr
  exact ⟨s, k, hk, hkr⟩

/-- An activated stop-loss is active after the step. -/
theorem type_of_mem (hw : WellKept d) (hr : r' ∈ fired) :
    (d'.order r').type = .stopLossActive := by
  obtain ⟨s, k, hk, rfl⟩ := h.dormant_before hr
  have htype : (d₁.office.orders.get k.order).type = .stopLoss := by
    refine (congrArg (·.type) (h.stalled.order k.order)).trans ((h.retain.type k.order).trans ?_)
    exact (hw.parked s k hk).2.2.1
  rw [h.order]
  refine (h.fired.orders.type k.order).trans ?_
  rw [Office.get_activatedAll, if_pos hr, Order.activateStopLoss, if_pos htype]

/-- An order that was not activated keeps its type. -/
theorem type_of_not_mem (hr : r' ∉ fired) : (d'.order r').type = (d.order r').type := by
  rw [h.order]
  refine (h.fired.orders.type r').trans ?_
  rw [Office.get_activatedAll, if_neg hr]
  exact (congrArg (·.type) (h.stalled.order r')).trans (h.retain.type r')

/-- No resting order is among those that fire. -/
theorem not_mem_of_queue (hw : WellKept d) {s : Side} (hk : k ∈ (d.book.queue s).bag) :
    k.order ∉ fired := by
  intro hmem
  obtain ⟨s', k', hk', horder⟩ := h.dormant_before hmem
  have hrests := hw.sound.resting s k hk
  exact hrests.active (hrests.type.symm.trans (horder ▸ (hw.parked s' k' hk').2.2.1))

/-- Nor is the incoming order. -/
theorem not_mem_incoming (hw : WellKept d) (hr : Newcomes d r) : r ∉ fired := by
  intro hmem
  obtain ⟨s, k, hk, horder⟩ := h.dormant_before hmem
  exact hw.ne_of_mem hr (Book.mem_stock.2 ⟨s, .inr hk⟩) horder

/-- The order that came in is as settlement left it. -/
theorem order_incoming (hw : WellKept d) (hr : Newcomes d r) (hleft : S.LeavesAlone r) :
    d'.order r = o.orders.get r := by
  rw [h.order, h.fired.left r hleft, Office.get_activatedAll, if_neg (h.not_mem_incoming hw hr)]
  exact h.stalled.order r

/-! ### What is queued -/

/-- An item of the book is left if it is that of an open order. -/
theorem mem_bag (hk : k ∈ (d.book.queue (d.order r).side.opposite).bag)
    (hopen : (d.order k.order).isOpen = true) :
    k ∈ (d'.book.queue (d.order r).side.opposite).bag := by
  obtain ⟨dropped, hbag, hdropped⟩ := h.stalled.queue
  obtain ⟨new, hbag', -⟩ := h.fired.queue (d.order r).side.opposite
  rw [h.leaves.queue_of_ne (Side.opposite_ne _).symm, hbag']
  refine Multiset.mem_add.2 (.inr ((Multiset.mem_add.1 (hbag ▸ hk)).resolve_left fun hmem => ?_))
  exact absurd ((hdropped k hmem).symm.trans hopen) (by decide)

/-- But for what fired, the other side holds the open orders that it held. -/
theorem filter_bag (hw : WellKept d) :
    (d'.book.queue (d.order r).side.opposite).bag.filter
        (fun k => ((d'.order k.order).isOpen && decide (k.order ∉ fired)) = true) =
      (d.book.queue (d.order r).side.opposite).bag.filter fun k =>
      (d'.order k.order).isOpen = true := by
  obtain ⟨dropped, hbag, hdropped⟩ := h.stalled.queue
  obtain ⟨new, hbag', hnew⟩ := h.fired.queue (d.order r).side.opposite
  have hclosed : dropped.filter (fun k => (d'.order k.order).isOpen = true) = 0 := by
    refine Multiset.filter_eq_nil.2 fun k hk => ?_
    rw [(h.follow k.order).not_isOpen (hdropped k hk)]
    decide
  have hfired : new.filter
      (fun k => ((d'.order k.order).isOpen && decide (k.order ∉ fired)) = true) = 0 := by
    refine Multiset.filter_eq_nil.2 fun k hk => ?_
    have hmem : k.order ∈ new.map (·.order) := Multiset.mem_map_of_mem _ hk
    rw [hnew, Multiset.mem_coe] at hmem
    simp [List.mem_of_mem_filter hmem]
  rw [h.leaves.queue_of_ne (Side.opposite_ne _).symm, hbag', hbag, Multiset.filter_add,
    Multiset.filter_add, hclosed, hfired, zero_add, zero_add]
  refine Multiset.filter_congr fun k hk => ?_
  simp [h.not_mem_of_queue hw (h.stalled.mem_bag hk)]

/-- What fired rests once. -/
theorem count_fired (hw : WellKept d) (hr : Newcomes d r) (hmem : r' ∈ fired) :
    ((d'.book.queue (d.order r').side).bag.map (·.order)).count r' = 1 := by
  obtain ⟨came, hbag, hcame⟩ := h.leaves.bag (d.order r').side
  obtain ⟨new, hbag', hnew⟩ := h.fired.queue (d.order r').side
  have hside : (d₁.order r').side = (d.order r').side :=
    (congrArg (·.side) (h.stalled.order r')).trans (h.retain.follow r').side
  have hcame : (came.map (·.order)).count r' = 0 := by
    refine Multiset.count_eq_zero.2 fun hin => ?_
    obtain ⟨k, hk, rfl⟩ := Multiset.mem_map.1 hin
    exact h.not_mem_incoming hw hr (hcame k hk ▸ hmem)
  have hbefore : ((d₁.book.queue (d.order r').side).bag.map (·.order)).count r' = 0 := by
    refine Multiset.count_eq_zero.2 fun hin => ?_
    obtain ⟨k, hk, rfl⟩ := Multiset.mem_map.1 hin
    exact h.not_mem_of_queue hw (h.stalled.mem_bag hk) hmem
  have hnew : (new.map (·.order)).count r' = 1 := by
    rw [hnew, Multiset.coe_count]
    exact List.count_eq_one_of_mem (h.fired.nodup.filter _)
      (List.mem_filter.2 ⟨hmem, decide_eq_true hside⟩)
  rw [hbag, hbag', Multiset.map_add, Multiset.map_add, Multiset.count_add, Multiset.count_add,
    hcame, hbefore, hnew]

/-- If the incoming order is open it is queued once. -/
theorem count_incoming (hw : WellKept d) (hr : Newcomes d r) (hopen : (d'.order r).isOpen = true) :
    .ofOrder r (d'.order r) ∈ (d'.book.queue (d.order r).side).bag ∧
      ((d'.book.queue (d.order r).side).bag.map (·.order)).count r = 1 := by
  obtain ⟨new, hbag, hnew⟩ := h.fired.queue (d.order r).side
  have hnew : (new.map (·.order)).count r = 0 := by
    rw [hnew]
    exact Multiset.count_eq_zero.2 fun hin =>
      h.not_mem_incoming hw hr (List.mem_of_mem_filter (Multiset.mem_coe.1 hin))
  have hbefore : ((d₁.book.queue (d.order r).side).bag.map (·.order)).count r = 0 := by
    refine Multiset.count_eq_zero.2 fun hin => ?_
    obtain ⟨k, hk, horder⟩ := Multiset.mem_map.1 hin
    exact hw.ne_of_mem hr (Book.mem_stock.2 ⟨_, .inl (h.stalled.mem_bag hk)⟩) horder
  rw [h.order] at hopen ⊢
  rw [h.leaves.bag_of_isOpen hopen, hbag]
  refine ⟨Multiset.mem_cons_self .., ?_⟩
  rw [Multiset.map_cons, Multiset.map_add, show (Item.ofOrder r (d₂.order r)).order = r from rfl,
    Multiset.count_cons_self, Multiset.count_add, hnew, hbefore]

/-! ### What is shown -/

/-- What is found in the ledger of any order but the incoming one, if its number is not spent. -/
theorem find?_of_ne (hne : id ≠ (d.order r).id) (hnot : ¬ d.Spent (d.order r).side.opposite id) :
    d'.book.ledger.find? id = Ledger.takenOff i.id out.trade d.book.ledger.find? id := by
  rcases h.leaves with ⟨-, l, hlists, rfl⟩ | ⟨-, rfl⟩
  · have hfind := (hlists.find id).resolve_right fun h => hnot h.2
    rwa [shownAfter, if_neg hne.symm] at hfind
  · rw [h.fired.ledger]
    exact (h.stalled.ledger.find id).resolve_right fun h => hnot h.2

/-- What is found of an open order that was resting. -/
theorem find?_of_mem (hw : WellKept d) (hr : Newcomes d r) {s : Side}
    (hk : k ∈ (d.book.queue s).bag) (hopen : (d.order k.order).isOpen = true) :
    d'.book.ledger.find? k.id = Ledger.takenOff i.id out.trade d.book.ledger.find? k.id := by
  have hk := Book.mem_stock.2 ⟨s, .inl hk⟩
  exact h.find?_of_ne (hr.fresh k hk) (hw.not_spent hk hopen)

/-- If the incoming order is open then it is shown with what it has left. -/
theorem find?_incoming (hw : WellKept d) (hr : Newcomes d r) (hopen : (d'.order r).isOpen = true) :
    d'.book.ledger.find? (d.order r).id = some (.ofOrder (d'.order r)) := by
  rw [h.order] at hopen ⊢
  rcases h.leaves with ⟨-, l, hlists, rfl⟩ | ⟨hclosed, -⟩
  · refine ((hlists.find _).resolve_right ?_).trans (if_pos rfl)
    rintro ⟨-, k, hk, -, hid⟩
    have hk := Book.mem_stock.2 ⟨_, .inl hk⟩
    exact hr.fresh k hk ((hw.id_of_mem hk).symm.trans hid)
  · exact absurd (hclosed.symm.trans hopen) (by decide)

end Course

/-- What is traded is less than what the resting order has left. -/
theorem traded_lt (hS : S.Faithful) (hmeets : Meets d r i)
    (hstall : S.Stalls (d.call r i.order out o) out d.office.forget o) :
    out.traded.toNat < (d.order i.order).unfulfilled.toNat := by
  cases htrade : out.trade with
  | none =>
    rw [FillOutcome.traded, htrade]
    exact (Order.isOpen_iff.1 hmeets.best.eligible.1).2
  | some t =>
    rw [FillOutcome.traded, htrade]
    refine hstall.lt hS htrade (r := i.order) ?_
    unfold call
    cases (d.order r).side
    · exact .inr rfl
    · exact .inl rfl

/-- From an entry that shows more than what was traded exactly that is taken. -/
theorem takenOff_of_lt {f : OrderId → Option Shown} {id : OrderId} {e : Shown} (hf : f id = some e)
    (hlt : out.traded.toNat < e.quantity.toNat) : Ledger.takenOff id out.trade f id =
      some { e with quantity := e.quantity.monus out.traded } := by
  rw [Ledger.takenOff, if_pos rfl, hf]
  unfold FillOutcome.traded at *
  cases htrade : out.trade with
  | none =>
    exact congrArg some (congrArg (fun q => { e with quantity := q }) (Quantity.monus_zero _).symm)
  | some t =>
    rw [htrade] at hlt
    exact if_neg (Nat.not_le.2 hlt)

/-- The parts of the step lose nothing. -/
theorem Course.abandoned {d₁ d₂ : Desk (Recorded σ)}
    (h : Course S roomy r i out o fired d d₁ d₂ d') (hS : S.Faithful) (hw : WellKept d)
    (hr : Newcomes d r) (hmeets : Meets d r i)
    (hstall : S.Stalls (d.call r i.order out o) out d.office.forget o) :
    Abandoned S r i out o fired d d' where
  fills := h.fills
  kept _ := h.mem_bag
  drained := by
    refine Queue.filter_drain_eq ?_ (hw.sound.ordered _) (hw.nodup_queue _) (h.filter_bag hw)
    rw [h.leaves.queue_of_ne (Side.opposite_ne _).symm]
    exact h.fired.ordered _ h.stalled.ordered
  shown := (h.find?_of_mem hw hr hmeets.best.mem hmeets.best.eligible.1).trans (if_pos rfl)
  limit htype := by
    have hopen := hmeets.best.eligible.1
    have hshown := hw.shown _ i hmeets.best.mem hopen htype
    refine ⟨_, hshown, traded_lt hS hmeets hstall, ?_⟩
    exact (h.find?_of_mem hw hr hmeets.best.mem hopen).trans
      (takenOff_of_lt hshown (traded_lt hS hmeets hstall))
  others s k hk hne hopen := by
    refine (h.find?_of_mem hw hr hk hopen).trans (if_neg fun hid => hne ?_)
    exact hw.eq_of_id (Book.mem_stock.2 ⟨s, .inl hk⟩)
      (Book.mem_stock.2 ⟨_, .inl hmeets.best.mem⟩) hid.symm
  lastPrice := h.lastPrice
  mem_fired _ := h.mem_fired
  nodup := h.fired.nodup
  reported := h.reported
  active r' hmem := by
    refine ⟨h.type_of_mem hw hmem, h.count_fired hw hr hmem, fun s k hk horder => ?_⟩
    exact (h.fired.dormant s k (h.leaves.stopLossQueue s ▸ hk)).2 (horder ▸ hmem)
  parked s k hk hclosed hnot := by
    rw [h.leaves.stopLossQueue]
    exact h.fired.parked s k (h.stalled.stopLossQueue s ▸ hk)
      (h.stalled.order k.order ▸ hclosed) hnot
  unactivated _ := h.type_of_not_mem
  still := h.order_incoming hw hr
  rests hopen := by
    obtain ⟨hmem, hcount⟩ := h.count_incoming hw hr hopen
    exact ⟨hmem, hcount, h.find?_incoming hw hr hopen⟩

/-- A match step that is abandoned loses nothing. For every book in good order, every open order
that is new to it and every faithful settlement that answers the first call without finishing
either order: only that call is made, taking the order in ends as `Abandoned` says, and matching
what rests comes after. It breaks off only where a level of market depth overflows for want of
room, or where settlement breaks off. -/
theorem abandoned_step_loses_nothing (hS : S.Faithful) (hw : WellKept s.state)
    (hr : Newcomes s.state r) (hmeets : Meets s.state r i)
    (hstall : S.Stalls (s.state.call r i.order out o) out s.state.office.forget o) :
    process S.recorded r = (do if ← intake S.recorded r then reconcile S.recorded) ∧
      Ends (intake S.recorded r) s
        (fun activated t => ∃ fired, activated = !fired.isEmpty ∧
          Abandoned S r i out o fired s.state t.state)
        (fun f _ => f.IsOverflow ∧
            ¬ s.state.book.ledger.HasRoom (s.state.order r).unfulfilled.toNat ∨ S.Balks) := by
  refine ⟨process_eq_intake .., ?_⟩
  have hmem : i ∈ s.state.book.stock := Book.mem_stock.2 ⟨_, .inl hmeets.best.mem⟩
  refine (ends_intake_of_stall hS hw.sound hw.parks (hw.nodup_queue _) hmeets hstall
    (hr.fresh i hmem) hr.unshown id).imp ?_
  rintro _ t ⟨fired, d₁, d₂, rfl, hcourse⟩
  exact ⟨fired, rfl, hcourse.abandoned hS hw hr hmeets hstall⟩

/-! ## A trade of one share -/

namespace Trickle

def order (number : UInt64) (user : UInt32) (side : Side) (type : OrderType)
    (price quantity : UInt64) : Order :=
  ⟨⟨number⟩, ⟨user⟩, ⟨1⟩, side, type, .ofUInt64 price, ⟨quantity⟩, .zero, false,
    .ofNat number.toNat⟩

/-- A stop-loss that sells at 95, an ask at 89 of the user who is going to bid, an ask at 90 of
another user, and a bid at 90. -/
def orders : Orders where
  rows := #[order 1 3 .ask .stopLoss 95 4, order 2 2 .ask .limit 89 3, order 3 1 .ask .limit 90 5,
    order 4 2 .bid .limit 90 5]

/-- One share of a side, which is not finished by it. -/
def share : ScriptedSide := ⟨.undone, some ⟨1⟩, false⟩

/-- Settlement is about to move one share. -/
def office : Office Scripted :=
  ⟨orders, Scripted.empty.extend ⟨1⟩ [.answer share share (some ⟨⟨1⟩, none⟩)]⟩

def own : Item := .ofOrder ⟨1⟩ (orders.get ⟨1⟩)

def resting : Item := .ofOrder ⟨2⟩ (orders.get ⟨2⟩)

def dormant : Item := .ofOrder ⟨0⟩ (orders.get ⟨0⟩)

/-- The book before the bid comes in. -/
def desk : Desk (Recorded Scripted) where
  office := ⟨orders, office.backend, []⟩
  book :=
    let b : Book := .new ⟨⟨1⟩, .ofUInt64 100⟩ 10 1
    { b with
      asks := (b.asks.pushItem own).pushItem resting
      askStopLosses := b.askStopLosses.pushItem dormant
      ledger := (endState (do
        Ledger.add (orders.get ⟨1⟩)
        Ledger.add (orders.get ⟨2⟩)) ⟨b.ledger, #[]⟩).state }

def answer : FillOutcome := ⟨.undone, .undone, some ⟨⟨3⟩, ⟨4⟩, .ofUInt64 90, ⟨1⟩, .ofNat 1⟩⟩

/-- The office after the call. -/
def after : Office Scripted :=
  (endState (Scripted.settle ⟨2⟩ ⟨3⟩ (.ofUInt64 90) ⟨5⟩) ⟨office, #[]⟩).state

/-- Two asks rest in this book. -/
theorem bag_asks : (desk.book.queue .ask).bag = {resting, own} := by
  show (((Queue.empty (.ofResting .ask)).pushItem own).pushItem resting).bag = _
  rw [Queue.bag_pushItem, Queue.bag_pushItem]
  rfl

/-- One ask of this book is a dormant stop-loss. -/
theorem bag_askStopLosses : (desk.book.stopLossQueue .ask).bag = {dormant} := by
  show ((Queue.empty (.ofStopLoss .ask)).pushItem dormant).bag = _
  rw [Queue.bag_pushItem]
  rfl

/-- What is said of the resting orders is said of the two asks. -/
theorem forall_resting {P : Side → Item → Prop} (hresting : P .ask resting) (hown : P .ask own) :
    ∀ s, ∀ k ∈ (desk.book.queue s).bag, P s k := by
  intro s k hk
  cases s with
  | bid => exact absurd hk (Multiset.notMem_zero k)
  | ask =>
    rw [bag_asks] at hk
    rcases Multiset.mem_cons.1 hk with rfl | hk
    · exact hresting
    · exact Multiset.mem_singleton.1 hk ▸ hown

/-- This book is well kept. -/
theorem wellKept : WellKept desk where
  sound :=
    { ordered := by
        intro s
        cases s with
        | ask => exact (Queue.ordered_empty.pushItem own).pushItem resting
        | bid => exact Queue.ordered_empty
      resting := forall_resting ⟨trivial, rfl, rfl, rfl, rfl, by decide⟩ ⟨trivial, rfl, rfl, rfl,
        rfl, by decide⟩
      dormant := fun _ _ _ => trivial }
  ordered s := by
    cases s with
    | ask => exact Queue.ordered_empty.pushItem dormant
    | bid => exact Queue.ordered_empty
  parked s k hk := by
    cases s with
    | ask =>
      rw [bag_askStopLosses, Multiset.mem_singleton] at hk
      subst hk
      decide
    | bid => exact absurd hk (Multiset.notMem_zero k)
  distinct := by
    rw [Book.stock, bag_asks, bag_askStopLosses]
    decide
  shown := forall_resting (by decide) (by decide)

/-- The bid of this book is new to it. -/
theorem newcomes : Newcomes desk ⟨3⟩ where
  fresh := by
    rw [Book.stock, bag_asks, bag_askStopLosses]
    decide
  unshown := by decide

/-- The ask at 89 is passed over. -/
theorem meets : Meets desk ⟨3⟩ resting where
  isOpen := by decide
  best :=
    { mem := show resting ∈ (desk.book.queue .ask).bag from bag_asks ▸ Multiset.mem_cons_self ..
      eligible := ⟨by decide, by decide⟩
      isLE := forall_resting (P := fun _ k => Eligible (some ⟨2⟩) (desk.order k.order) →
        (rank (.ofResting .ask) k resting).isLE) (fun _ => by decide)
        (fun h => absurd rfl h.2) .ask }
  crosses := by decide

/-- Settlement trades one share of the pair, and finishes neither side. -/
theorem ends_settle (j : Array Event) :
    Ends (Scripted.settle ⟨2⟩ ⟨3⟩ (.ofUInt64 90) ⟨5⟩) ⟨office, j⟩
    (fun out t => out = answer ∧ t.state = after)
      (fun _ _ => False) := by
  have hinstrument : (office.orders.get ⟨2⟩).instrument = ⟨1⟩ := rfl
  have hscript : (office.backend.lane ⟨1⟩).script = [.answer share share (some ⟨⟨1⟩, none⟩)] := rfl
  have hask : (office.orders.get ⟨2⟩).fill ⟨1⟩ = .ok ((orders.get ⟨2⟩).filled ⟨1⟩) := by rfl
  have hbid : ((office.orders.set ⟨2⟩ ((orders.get ⟨2⟩).filled ⟨1⟩)).get ⟨3⟩).fill ⟨1⟩ =
    .ok ((orders.get ⟨3⟩).filled ⟨1⟩) := by rfl
  simp only [Scripted.settle, Scripted.nextDirective, Scripted.follow, Scripted.applySide,
    Scripted.simulating, Scripted.keep, Simulated.fillOrder, Office.onBackend,
    Office.withinBackend, ends_bind, ends_current, ends_within, ends_replace, ends_change,
    ends_pure, ends_ofExcept, hinstrument, hscript, share, hask, hbid, Bool.false_eq_true,
    if_false, Option.map_some]
  exact ⟨rfl, rfl⟩

/-- Settlement stalls on its first call. -/
theorem stalls :
    Scripted.settlement.Stalls (desk.call ⟨3⟩ ⟨2⟩ answer after) answer desk.office.forget
      after where
  answers := ends_settle
  ask := rfl
  bid := rfl
  filled := by
    rintro _ ⟨⟩ _ (rfl | rfl)
    · decide
    · decide

/-- Depth of this book has room for the order. -/
theorem hasRoom : desk.book.ledger.HasRoom 5 := by
  have hempty : Ledger.HasRoom 13 (.empty ⟨1⟩ 10) := Ledger.hasRoom_empty (by decide)
  have hadd : Ends (do
      Ledger.add (orders.get ⟨1⟩)
      Ledger.add (orders.get ⟨2⟩)) ⟨.empty ⟨1⟩ 10, #[]⟩ (fun _ t => t.state.HasRoom 5)
        (fun _ _ => False) :=
    (hempty.ends_add (p := 10) (by decide)).bind fun _ t ht => ht.ends_add (by decide)
  exact (hadd.mono (fun _ _ ht => ht) fun _ _ hf => hf.elim).endState

end Trickle

/-- One share of the bid is traded, and the step is abandoned. -/
theorem abandoned_after_one_share :
    (Scripted.settlement.Faithful ∧ WellKept Trickle.desk ∧ Newcomes Trickle.desk ⟨3⟩ ∧
      Meets Trickle.desk ⟨3⟩ Trickle.resting ∧ Scripted.settlement.Stalls
        (Trickle.desk.call ⟨3⟩ ⟨2⟩ Trickle.answer Trickle.after) Trickle.answer
        Trickle.desk.office.forget Trickle.after) ∧
      process Scripted.settlement.recorded ⟨3⟩ = (do
        if ← intake Scripted.settlement.recorded ⟨3⟩ then reconcile Scripted.settlement.recorded) ∧
      ∃ activated t,
        intake Scripted.settlement.recorded ⟨3⟩ ⟨Trickle.desk, #[]⟩ = .ok activated t ∧
        ∃ fired, activated = !fired.isEmpty ∧
          Abandoned Scripted.settlement ⟨3⟩ Trickle.resting Trickle.answer Trickle.after fired
            Trickle.desk t.state := by
  refine ⟨⟨Scripted.faithful, Trickle.wellKept, Trickle.newcomes, Trickle.meets,
    Trickle.stalls⟩, ?_⟩
  obtain ⟨hprocess, hintake⟩ := abandoned_step_loses_nothing (s := ⟨Trickle.desk, #[]⟩)
    Scripted.faithful Trickle.wellKept Trickle.newcomes Trickle.meets Trickle.stalls
  refine ⟨hprocess, (hintake.mono (fun _ _ ht => ht) ?_).exists_ok⟩
  rintro _ _ (⟨-, hroom⟩ | hbalks)
  · exact hroom Trickle.hasRoom
  · exact Scripted.not_balks hbalks

end Desk

end Bourse
