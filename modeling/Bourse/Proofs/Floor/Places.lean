import Bourse.Proofs.Book.Stock
import Bourse.Proofs.Floor.Stage

/-!
# Where the orders are

While a book is matching, an order is in one of the four queues or in hand; `Stage.held` counts
them all. A step takes no order in and puts none in a second place: what it takes away it discards
(`Step.held_eq`), because the order is not open any more, because settlement has called it
finished, or because it is a stop-loss that was closed (`Discarded`).

`Stage.Keeps` are the resting orders, those set aside included. What a step adds to them comes from
the hand (`Step.keeps`). No step adds to the dormant stop-losses (`Step.dormant`).
-/

namespace Bourse

open Bourse.Desk

variable {σ : Type} {S : Settlement σ} {st st' : Stage σ} {side : Side} {r : OrderRef} {i : Item}

/-! ## Orders in one of the places -/

namespace Stage

/-- The orders in the queues and in hand. -/
def held (st : Stage σ) : Multiset OrderRef :=
  st.desk.book.stock.map (·.order) + (st.hand.aside.map (·.2.order) : List OrderRef) +
    (st.hand.fired : List OrderRef) + ((st.hand.newcomer.map (·.order)).toList : List OrderRef)

/-- The item is that of a resting order, in the queue of the side or set aside from it. -/
def Keeps (st : Stage σ) (side : Side) (i : Item) : Prop :=
  i ∈ (st.desk.book.queue side).bag ∨ (side, i) ∈ st.hand.aside

/-- An order is held as a resting one, as a dormant stop-loss, as one that was activated, or as the
one that comes in. -/
theorem mem_held : r ∈ st.held ↔ (∃ side i, st.Keeps side i ∧ i.order = r) ∨
    (∃ side, ∃ i ∈ (st.desk.book.stopLossQueue side).bag, i.order = r) ∨ r ∈ st.hand.fired ∨
      ∃ n, st.hand.newcomer = some n ∧ n.order = r := by
  unfold held Keeps
  simp only [Multiset.mem_add, Multiset.mem_map, Multiset.mem_coe, List.mem_map, Option.mem_toList,
    Option.map_eq_some_iff]
  constructor
  · rintro (((⟨i, hi, rfl⟩ | ⟨⟨side, i⟩, hi, rfl⟩) | hr) | ⟨n, hn, rfl⟩)
    · obtain ⟨side, hi | hi⟩ := Book.mem_stock.1 hi
      · exact .inl ⟨side, i, .inl hi, rfl⟩
      · exact .inr (.inl ⟨side, i, hi, rfl⟩)
    · exact .inl ⟨side, i, .inr hi, rfl⟩
    · exact .inr (.inr (.inl hr))
    · exact .inr (.inr (.inr ⟨n, hn, rfl⟩))
  · rintro (⟨side, i, hi | hi, rfl⟩ | ⟨side, i, hi, rfl⟩ | hr | ⟨n, hn, rfl⟩)
    · exact .inl (.inl (.inl ⟨i, Book.mem_stock.2 ⟨side, .inl hi⟩, rfl⟩))
    · exact .inl (.inl (.inr ⟨(side, i), hi, rfl⟩))
    · exact .inl (.inl (.inl ⟨i, Book.mem_stock.2 ⟨side, .inr hi⟩, rfl⟩))
    · exact .inl (.inr hr)
    · exact .inr ⟨n, hn, rfl⟩

/-- With nothing in hand, what is held is in the queues. -/
theorem held_of_idle (h : st.hand = .idle) : st.held = st.desk.book.stock.map (·.order) := by
  unfold held
  rw [h]
  exact (add_zero _).trans ((add_zero _).trans (add_zero _))

/-- An order is taken in hand while no other comes in. -/
theorem held_of_newcomer (hnone : st.hand.newcomer = none) (n : Newcomer)
    (waiting brought accepted : List OrderRef) :
    held ⟨st.desk, { st.hand with newcomer := some n }, waiting, brought, accepted⟩ =
      n.order ::ₘ st.held := by
  unfold held
  rw [hnone, ← Multiset.singleton_add]
  simp only [Option.map_some, Option.toList_some, Option.map_none, Option.toList_none,
    Multiset.coe_singleton, Multiset.coe_nil]
  abel

end Stage

/-- Why an order is in none of the places any more. -/
inductive Discarded (st : Stage σ) (r : OrderRef) : Prop
  /-- A resting order that is not open. -/
  | dropped {side : Side} {i : Item} (kept : st.Keeps side i) (order : i.order = r)
    (isOpen : (st.desk.order r).isOpen = false)
  /-- A resting order that settlement called finished. -/
  | finished {side : Side} {i : Item} (kept : st.Keeps side i) (order : i.order = r)
    (finished : st.log.Finished r)
  /-- The order that came in, and is not open. -/
  | left {n : Newcomer} (newcomer : st.hand.newcomer = some n) (order : n.order = r)
    (isOpen : (st.desk.order r).isOpen = false)
  /-- A dormant stop-loss that is closed. -/
  | dormant (closed : (st.desk.order r).closed = true)

/-- A step discards orders, and keeps all others. -/
theorem Step.held_eq (h : Step S st st') :
    ∃ gone : Multiset OrderRef, st.held = gone + st'.held ∧ ∀ r ∈ gone, Discarded st r := by
  have hnone : st.held = st'.held →
      ∃ gone : Multiset OrderRef, st.held = gone + st'.held ∧ ∀ r ∈ gone, Discarded st r :=
    fun heq => ⟨0, heq.trans (zero_add _).symm, fun _ h => absurd h (Multiset.notMem_zero _)⟩
  cases h with
  | beside h =>
    refine hnone ?_
    unfold Stage.held Stage.put
    rw [Book.stock_congr h.queue h.stopLossQueue]
  | @search d side exclude dropped aside clear searched =>
    refine ⟨dropped.map (·.order), ?_, ?_⟩
    · unfold Stage.held Stage.put
      rw [searched.stock, clear]
      simp only [Multiset.map_add, Multiset.map_coe, List.map_map, List.map_nil, Multiset.coe_nil,
        Function.comp_def]
      abel
    · intro r hr
      obtain ⟨i, hi, rfl⟩ := Multiset.mem_map.1 hr
      exact .dropped (.inl (searched.mem_bag.2 (.inl hi))) rfl (searched.dropped i hi)
  | fill asked answered fired due => exact hnone rfl
  | @pop side i head finished =>
    refine ⟨{i.order}, ?_, ?_⟩
    · unfold Stage.held Stage.put
      rw [stock_withoutHead head st.desk.book.ledger, Multiset.map_add, Multiset.map_singleton]
      abel
    · intro r hr
      cases Multiset.mem_singleton.1 hr
      exact .finished (.inl (Queue.mem_bag_of_headItem? head)) rfl finished
  | @restore side items aside =>
    refine hnone ?_
    unfold Stage.held Stage.put
    rw [stock_withItems, aside]
    simp only [Multiset.map_add, Multiset.map_coe, List.map_map, List.map_nil, Multiset.coe_nil,
      Function.comp_def]
    abel
  | @drop side i head closed =>
    refine ⟨{i.order}, ?_, ?_⟩
    · unfold Stage.held Stage.put
      rw [stock_withoutDormant head, Multiset.map_add, Multiset.map_singleton]
      abel
    · intro r hr
      cases Multiset.mem_singleton.1 hr
      exact .dormant closed
  | @take side price i due head closed reached =>
    refine hnone ?_
    unfold Stage.held Stage.put
    rw [stock_withoutDormant head, Multiset.map_add, Multiset.map_singleton, ← Multiset.coe_add,
      Multiset.coe_singleton]
    abel
  | settle due head => exact hnone rfl
  | @promote r rest o fired due leads =>
    refine hnone ?_
    unfold Stage.held Stage.put
    rw [stock_withItems, fired, Multiset.map_add, Multiset.map_coe, List.map_singleton,
      ← Multiset.cons_coe, ← Multiset.singleton_add]
    show _ = ({r} : Multiset OrderRef) + st.desk.book.stock.map (·.order) + _ + _ + _
    abel
  | @rest n l newcomer =>
    refine hnone ?_
    unfold Stage.held Stage.put
    rw [stock_rested, newcomer, Multiset.map_add, Multiset.map_singleton]
    simp only [Option.map_some, Option.toList_some, Option.map_none, Option.toList_none,
      Multiset.coe_singleton, Multiset.coe_nil]
    show _ = {n.order} + _ + _ + _ + _
    abel
  | @leave n newcomer finished =>
    refine ⟨{n.order}, ?_, ?_⟩
    · unfold Stage.held Stage.put
      rw [newcomer]
      simp only [Option.map_some, Option.toList_some, Option.map_none, Option.toList_none,
        Multiset.coe_singleton, Multiset.coe_nil]
      abel
    · intro r hr
      cases Multiset.mem_singleton.1 hr
      exact .left newcomer rfl finished

/-- A resting order was resting before the step, or comes from the hand. -/
theorem Step.keeps (h : Step S st st') (hi : st'.Keeps side i) : st.Keeps side i ∨
    (∃ n, st.hand.newcomer = some n ∧ n.side = side ∧ n.order = i.order) ∨
      i.order ∈ st.hand.fired ∧ (st.desk.order i.order).side = side := by
  cases h with
  | beside h => exact .inl (hi.imp_left fun hi => h.queue side ▸ hi)
  | @search d side' exclude dropped aside clear searched =>
    refine .inl (.inl ?_)
    rcases hi with hi | hi
    · by_cases hs : side' = side
      · subst hs
        exact searched.mem_bag.2 (.inr (.inr hi))
      · exact searched.queue_of_ne hs ▸ hi
    · obtain ⟨i, hi, heq⟩ := List.mem_map.1 hi
      cases heq
      exact searched.mem_bag.2 (.inr (.inl hi))
  | fill asked answered fired due => exact .inl hi
  | @pop side' i' head finished =>
    refine .inl (hi.imp_left fun hi => ?_)
    by_cases hs : side' = side
    · subst hs
      rw [bag_withoutHead head st.desk.book.ledger]
      exact Multiset.mem_cons_of_mem hi
    · exact queue_withoutHead_of_ne st.desk side' _ hs ▸ hi
  | @restore side' items aside =>
    refine .inl ?_
    rcases hi with hi | hi
    · by_cases hs : side' = side
      · subst hs
        have hi : i ∈ ((st.desk.withItems side' items).book.queue side').bag := hi
        rw [bag_withItems, Multiset.mem_add, Multiset.mem_coe] at hi
        refine hi.elim (fun hi => .inr ?_) .inl
        rw [aside]
        exact List.mem_map_of_mem hi
      · have hi : i ∈ ((st.desk.withItems side' items).book.queue side).bag := hi
        rw [queue_withItems, if_neg hs] at hi
        exact .inl hi
    · exact absurd hi List.not_mem_nil
  | @drop side' i' head closed =>
    exact .inl (hi.imp_left fun hi => queue_withoutDormant (d := st.desk) side ▸ hi)
  | @take side' price i' due head closed reached =>
    exact .inl (hi.imp_left fun hi => queue_withoutDormant (d := st.desk) side ▸ hi)
  | settle due head => exact .inl hi
  | @promote r rest o fired due leads =>
    rcases hi with hi | hi
    · by_cases hs : (st.desk.order r).side = side
      · subst hs
        have hi : i ∈ (((st.desk.called (.triggered r st.orders) o).withItems
          (st.desk.order r).side
          [.ofOrder r (o.orders.get r)]).book.queue (st.desk.order r).side).bag := hi
        rw [bag_withItems, Multiset.mem_add, Multiset.mem_coe, List.mem_singleton] at hi
        rcases hi with rfl | hi
        · exact .inr (.inr ⟨fired ▸ List.mem_cons_self, rfl⟩)
        · exact .inl (.inl hi)
      · have hi : i ∈ (((st.desk.called (.triggered r st.orders) o).withItems
          (st.desk.order r).side [.ofOrder r (o.orders.get r)]).book.queue side).bag := hi
        rw [queue_withItems, if_neg hs] at hi
        exact .inl (.inl hi)
    · exact .inl (.inr hi)
  | @rest n l newcomer =>
    rcases hi with hi | hi
    · have hi : i ∈ ((st.desk.rested n.side n.order l).book.queue side).bag := hi
      rw [queue_rested] at hi
      split at hi
      · next hs =>
        rw [Queue.push, Queue.bag_pushItem, Multiset.mem_cons] at hi
        rcases hi with rfl | hi
        · exact .inr (.inl ⟨n, newcomer, hs, rfl⟩)
        · exact .inl (.inl (hs ▸ hi))
      · exact .inl (.inl hi)
    · exact .inl (.inr hi)
  | leave newcomer finished => exact .inl hi

/-- A dormant stop-loss was so before the step. -/
theorem Step.dormant (h : Step S st st') (hi : i ∈ (st'.desk.book.stopLossQueue side).bag) :
    i ∈ (st.desk.book.stopLossQueue side).bag := by
  have hwithout : ∀ {side' i'}, (st.desk.book.stopLossQueue side').headItem? = some i' →
      i ∈ ((st.desk.withoutDormant side').book.stopLossQueue side).bag →
      i ∈ (st.desk.book.stopLossQueue side).bag := by
    intro side' i' head hi
    by_cases hs : side' = side
    · subst hs
      rw [bag_withoutDormant head]
      exact Multiset.mem_cons_of_mem hi
    · exact stopLossQueue_withoutDormant_of_ne (d := st.desk) hs ▸ hi
  cases h with
  | beside h => exact h.stopLossQueue side ▸ hi
  | search clear searched => exact searched.stopLossQueue side ▸ hi
  | fill asked answered fired due => exact hi
  | @pop side' i' head finished =>
    exact stopLossQueue_withoutHead st.desk side' st.desk.book.ledger side ▸ hi
  | @restore side' items aside => exact stopLossQueue_withItems st.desk side' items side ▸ hi
  | drop head closed => exact hwithout head hi
  | take due head closed reached => exact hwithout head hi
  | settle due head => exact hi
  | @promote r rest o fired due leads =>
    exact stopLossQueue_withItems (st.desk.called (.triggered r st.orders) o)
      (st.desk.order r).side [.ofOrder r (o.orders.get r)] side ▸ hi
  | @rest n l newcomer => exact stopLossQueue_rested st.desk n.side n.order l side ▸ hi
  | leave newcomer finished => exact hi

end Bourse
