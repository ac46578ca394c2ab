import Bourse.Proofs.Book.Firing
import Bourse.Proofs.Queue.Served
import Bourse.Proofs.Queue.Snapshot

/-!
# One pass over the dormant stop-losses

The queues of dormant stop-losses are built by parking one order after the other, each in the
state in which it is then (`Desk.Parking`). A price is looked up from the front of each: what is
closed or reached surfaces, and the pass stops at the first that is neither, so it takes off the
longest prefix that surfaces (`Desk.drains_takeReached`). A queue serves orders by the state in
which they were parked, and triggers in the direction in which prices come to them
(`Desk.Parking.pairwise_line`). So none is reached behind one that is not, and what the pass
activates are all that are reached and not closed, wherever closed ones stand between them
(`Desk.reached_eq`).

`Desk.Passed` says what one pass does.
-/

namespace Bourse

open Bourse.Action

namespace Queue

variable {q : Queue} {i : Item}

/-- A queue without a first item gives nothing out. -/
theorem drain_of_none (hh : q.headItem? = none) : q.drain = [] := by
  have hsize : q.size = 0 := by rw [← bag_eq_zero, ← headItem?_eq_none, hh]
  rw [drain, hsize, drain.go]

/-- A queue gives out its first item, and then what it holds without it. -/
theorem drain_of_some (hh : q.headItem? = some i) : q.drain = i :: q.dropHead.drain := by
  obtain ⟨n, hn⟩ := Nat.exists_eq_add_one.2 (size_pos_of_headItem? hh)
  have hrest : q.dropHead.size = n := by rw [size_dropHead, hn, Nat.add_sub_cancel]
  rw [drain, hn, drain.go, pop, popIf, hh, drain, hrest]
  rfl

end Queue

namespace Desk

variable {σ : Type} {S : Settlement σ} {d d' : Desk σ} {was : OrderRef → Order} {side : Side}
  {price : Price} {i : Item} {r : OrderRef}

/-! ## Queues that were built by parking -/

/-- The queues of dormant stop-losses were built by parking orders of different numbers, each on
its own side and in the state that `was` tells. Meanwhile the orders may have been filled and
closed, and anything may have happened to the rest. -/
inductive Parking : (was : OrderRef → Order) → Desk σ → Prop
  | empty {was : OrderRef → Order} {d : Desk σ}
    (h : ∀ s, d.book.stopLossQueue s = .empty (.ofStopLoss s)) : Parking was d
  | park {was : OrderRef → Order} {d : Desk σ} (h : Parking was d) (r : OrderRef)
    (htype : (d.order r).type = .stopLoss)
    (hnew : ∀ s, ∀ i ∈ (d.book.stopLossQueue s).bag, i.id ≠ (d.order r).id) :
    Parking (Function.update was r (d.order r)) (d.parked r)
  | later {was : OrderRef → Order} {d d' : Desk σ} (h : Parking was d)
    (hqueue : ∀ s, d'.book.stopLossQueue s = d.book.stopLossQueue s)
    (horders : ∀ s, ∀ i ∈ (d.book.stopLossQueue s).bag,
      (d.order i.order).Follows (d'.order i.order) ∧
        (d'.order i.order).type = (d.order i.order).type) : Parking was d'

/-- An item of a queue that was built by parking: a dormant stop-loss of the side, shown as it was
when it was parked. -/
structure Parked (was : OrderRef → Order) (d : Desk σ) (s : Side) (i : Item) : Prop where
  shows : i.Shows (was i.order)
  follows : (was i.order).Follows (d.order i.order)
  side : (d.order i.order).side = s
  type : (d.order i.order).type = .stopLoss

namespace Parked

variable {s : Side} (h : Parked was d s i)

include h

/-- A dormant stop-loss was one when it was parked. -/
theorem type_was : (was i.order).type = .stopLoss := by
  rcases h.follows.type with ht | ⟨ht, -⟩
  · exact ht.symm.trans h.type
  · exact ht

/-- The item is that of a stop-loss. -/
theorem type_item : i.type = .stopLoss := h.shows.type.trans h.type_was

/-- The item has the trigger of its order. -/
theorem price_eq : i.price = (d.order i.order).price := h.shows.price.trans h.follows.price.symm

/-- The item has the number of its order. -/
theorem id_eq : i.id = (d.order i.order).id := h.shows.id.trans h.follows.id.symm

end Parked

namespace Parking

/-- Each queue is in order. -/
theorem ordered (h : Parking was d) (s : Side) :
    (d.book.stopLossQueue s).Ordered (.ofStopLoss s) := by
  induction h with
  | empty h => exact h s ▸ Queue.ordered_empty
  | park _ r _ _ ih =>
    rw [stopLossQueue_parked]
    split
    · exact ih.pushItem _
    · exact ih
  | later _ hqueue _ ih => exact hqueue s ▸ ih

/-- What is in a queue was parked there. -/
theorem item (h : Parking was d) (s : Side) :
    ∀ i ∈ (d.book.stopLossQueue s).bag, Parked was d s i := by
  induction h with
  | empty h =>
    intro i hi
    rw [h s] at hi
    exact absurd hi (Multiset.notMem_zero i)
  | @park was d _ r htype hnew ih =>
    -- what was parked before is another order
    have hold : ∀ i ∈ (d.book.stopLossQueue s).bag,
        Parked (Function.update was r (d.order r)) (d.parked r) s i := by
      intro i hi
      have hne : i.order ≠ r := fun heq => hnew s i hi (heq ▸ (ih i hi).id_eq)
      have hsame : Function.update was r (d.order r) i.order = was i.order :=
        Function.update_of_ne hne ..
      exact ⟨hsame.symm ▸ (ih i hi).shows, hsame.symm ▸ (ih i hi).follows, (ih i hi).side,
        (ih i hi).type⟩
    intro i hi
    rw [stopLossQueue_parked] at hi
    split at hi
    · next hside =>
      rw [Queue.push, Queue.bag_pushItem, Multiset.mem_cons] at hi
      rcases hi with rfl | hi
      · have hself : Function.update was r (d.order r) r = d.order r := Function.update_self ..
        exact ⟨hself.symm ▸ Item.shows_ofOrder r _, hself.symm ▸ .refl _, hside, htype⟩
      · exact hold i hi
    · exact hold i hi
  | later _ hqueue horders ih =>
    intro i hi
    rw [hqueue s] at hi
    obtain ⟨hfollows, hsame⟩ := horders s i hi
    exact ⟨(ih i hi).shows, (ih i hi).follows.trans hfollows, hfollows.side.trans (ih i hi).side,
      hsame.trans (ih i hi).type⟩

/-- No two that are parked have the same number. -/
theorem nodup (h : Parking was d) (s : Side) :
    ((d.book.stopLossQueue s).bag.map (·.id)).Nodup := by
  induction h with
  | empty h =>
    rw [h s]
    exact Multiset.nodup_zero
  | park _ r _ hnew ih =>
    rw [stopLossQueue_parked]
    split
    · rw [Queue.push, Queue.bag_pushItem, Multiset.map_cons, Multiset.nodup_cons]
      refine ⟨fun hmem => ?_, ih⟩
      obtain ⟨i, hi, hid⟩ := Multiset.mem_map.1 hmem
      exact hnew s i hi hid
    · exact ih
  | later _ hqueue _ ih => exact hqueue s ▸ ih

/-- Queues that were built by parking are as `Parks` says. -/
theorem parks (h : Parking was d) : Parks d where
  ordered := h.ordered
  item s i hi :=
    have hparked := h.item s i hi
    ⟨hparked.side, hparked.type, hparked.type_item, hparked.price_eq⟩
  distinct s := by
    -- the number is that of the order
    refine Multiset.Nodup.of_map (fun r => (d.order r).id) ?_
    rw [Multiset.map_map]
    exact (Multiset.map_congr rfl fun i hi => (h.item s i hi).id_eq) ▸ h.nodup s

/-- Parking changes no order. -/
theorem office_foldl_parked (rs : List OrderRef) (d : Desk σ) :
    (rs.foldl Desk.parked d).office = d.office := by
  induction rs generalizing d with
  | nil => rfl
  | cons r rest ih => exact ih (d.parked r)

/-- Parking stop-losses of different numbers in a book that had none builds its queues. All are
parked as they are in the beginning. -/
theorem of_foldl {rs : List OrderRef}
    (hempty : ∀ s, d.book.stopLossQueue s = .empty (.ofStopLoss s))
    (htype : ∀ r ∈ rs, (d.order r).type = .stopLoss)
    (hids : (rs.map fun r => (d.order r).id).Nodup) :
    Parking d.order (rs.foldl Desk.parked d) := by
  -- the numbers in the queues are those of the orders parked so far
  suffices Parking d.order (rs.foldl Desk.parked d) ∧ ∀ s,
      ∀ i ∈ ((rs.foldl Desk.parked d).book.stopLossQueue s).bag, ∃ r ∈ rs, i.id = (d.order r).id
    from this.1
  induction rs using List.reverseRecOn with
  | nil =>
    refine ⟨.empty hempty, fun s i hi => ?_⟩
    rw [List.foldl_nil, hempty s] at hi
    exact absurd hi (Multiset.notMem_zero i)
  | append_singleton rs r ih =>
    rw [List.map_append, List.nodup_append] at hids
    obtain ⟨hpark, hqueued⟩ := ih (fun r' hr' => htype r' (List.mem_append_left _ hr')) hids.1
    have horder : (rs.foldl Desk.parked d).order r = d.order r := by
      rw [Desk.order, office_foldl_parked, Desk.order]
    rw [List.foldl_append, List.foldl_cons, List.foldl_nil]
    constructor
    · have hnext := hpark.park r (horder ▸ htype r (by simp)) fun s i hi heq => by
        obtain ⟨r', hr', hid⟩ := hqueued s i hi
        refine hids.2.2 _ (List.mem_map_of_mem hr') _
          (List.mem_map_of_mem (List.mem_singleton_self r)) ?_
        exact hid.symm.trans (horder ▸ heq)
      rwa [horder, Function.update_eq_self] at hnext
    · intro s i hi
      have hold : ∀ i ∈ ((rs.foldl Desk.parked d).book.stopLossQueue s).bag,
          ∃ r' ∈ rs ++ [r], i.id = (d.order r').id := fun i hi =>
        let ⟨r', hr', hid⟩ := hqueued s i hi
        ⟨r', List.mem_append_left _ hr', hid⟩
      rw [stopLossQueue_parked] at hi
      split at hi
      · rw [Queue.push, Queue.bag_pushItem, Multiset.mem_cons] at hi
        rcases hi with rfl | hi
        · exact ⟨r, by simp, congrArg (·.id) horder⟩
        · exact hold i hi
      · exact hold i hi

end Parking

/-! ## The line of a queue -/

/-- The dormant stop-losses of a side in the order in which they are served. -/
def line (d : Desk σ) (s : Side) : List Item := (d.book.stopLossQueue s).drain

/-- What a pass takes off when it is in front: it is closed or reached. -/
def surfaces (d : Desk σ) (price : Price) (i : Item) : Bool :=
  (d.order i.order).closed || (d.order i.order).isReachedBy price

/-- The dormant stop-losses of a side that are not closed and that the price reaches, as they are
served. -/
def reached (d : Desk σ) (price : Price) (s : Side) : List Item :=
  (d.line s).filter fun i => !(d.order i.order).closed && (d.order i.order).isReachedBy price

/-- All that are reached, the asks first. -/
def fires (d : Desk σ) (price : Price) : List OrderRef :=
  (d.reached price .ask ++ d.reached price .bid).map (·.order)

/-- In line are the items of the queue. -/
theorem mem_line (hd : Parks d) : i ∈ d.line side ↔ i ∈ (d.book.stopLossQueue side).bag := by
  rw [← Queue.coe_drain (hd.ordered side), Multiset.mem_coe]
  rfl

/-- Reached are the open stop-losses of the queue that the price reaches. -/
theorem mem_reached (hd : Parks d) :
    i ∈ d.reached price side ↔ i ∈ (d.book.stopLossQueue side).bag ∧
    (d.order i.order).closed = false ∧ (d.order i.order).ReachedAt price := by
  rw [reached, List.mem_filter, mem_line hd, Bool.and_eq_true, Bool.not_eq_true',
    Order.isReachedBy_iff]

/-- The line of a side is strictly in order, by what was parked. -/
theorem Parking.pairwise_line (h : Parking was d) (s : Side) : (d.line s).Pairwise fun a b =>
    (was a.order).Precedes s.TriggersBefore (was b.order) := by
  have hids : (d.line s).Pairwise fun a b => a.id ≠ b.id := by
    have hnodup := h.nodup s
    rw [← Queue.coe_drain (h.ordered s), Multiset.map_coe, Multiset.coe_nodup] at hnodup
    exact List.pairwise_map.1 hnodup
  have hparked : ∀ i ∈ d.line s, Parked was d s i := fun i hi =>
    h.item s i ((mem_line h.parks).1 hi)
  refine ((Queue.pairwise_drain (h.ordered s)).and hids).imp_of_mem ?_
  rintro a b ha hb ⟨hle, hne⟩
  rw [← s.prefers_ofStopLoss]
  refine Item.precedes_of_isLE (hparked a ha).shows (hparked b hb).shows ?_ hne hle
  rw [Order.isMarket, (hparked a ha).type_was]
  rfl

/-- Behind the first that neither is closed nor reached, none is reached. -/
theorem not_reached_of_mem_dropWhile (hd : Parks d)
    (hi : i ∈ (d.line side).dropWhile (d.surfaces price)) :
    (d.order i.order).isReachedBy price = false := by
  have hitem : ∀ {k}, k ∈ (d.line side).dropWhile (d.surfaces price) →
      (d.order k.order).side = side ∧
        (d.order k.order).type = .stopLoss ∧ k.type = .stopLoss ∧
        k.price = (d.order k.order).price :=
    fun hk => hd.item side _ ((mem_line hd).1 ((List.dropWhile_sublist _).subset hk))
  have hrank := (Queue.pairwise_drain (hd.ordered side)).sublist
    (List.dropWhile_sublist (d.surfaces price))
  have hfirst := List.head?_dropWhile_not (d.surfaces price) (d.line side)
  unfold line at *
  cases hleft : ((d.book.stopLossQueue side).drain.dropWhile (d.surfaces price)) with
  | nil =>
    rw [hleft] at hi
    exact absurd hi List.not_mem_nil
  | cons first rest =>
    rw [hleft] at hi hitem hrank hfirst
    have hfirst : (d.order first.order).isReachedBy price = false :=
      (Bool.or_eq_false_iff.1 hfirst).2
    rcases List.mem_cons.1 hi with rfl | hi
    · exact hfirst
    · obtain ⟨hside, -, htype, hprice⟩ := hitem (List.mem_cons_of_mem _ hi)
      obtain ⟨hside', -, htype', hprice'⟩ := hitem List.mem_cons_self
      have hle := (List.pairwise_cons.1 hrank).1 i hi
      have hnot := not_reachedAt_of_isLE (p := price) hle htype htype' ⟨hside, hprice⟩
        ⟨hside', hprice'⟩ (by rw [← Order.isReachedBy_iff, hfirst]; exact Bool.false_ne_true)
      rwa [← Order.isReachedBy_iff, Bool.not_eq_true] at hnot

/-- All that are reached and not closed are in front. -/
theorem reached_eq (hd : Parks d) : d.reached price side =
    ((d.line side).takeWhile (d.surfaces price)).filter fun i => !(d.order i.order).closed := by
  conv_lhs => rw [reached, ← List.takeWhile_append_dropWhile (p := d.surfaces price)
    (l := d.line side), List.filter_append]
  have hleft : ((d.line side).dropWhile (d.surfaces price)).filter
      (fun i => !(d.order i.order).closed && (d.order i.order).isReachedBy price) = [] := by
    refine List.filter_eq_nil_iff.2 fun i hi => ?_
    rw [not_reached_of_mem_dropWhile hd hi, Bool.and_false]
    exact Bool.false_ne_true
  rw [hleft, List.append_nil]
  refine List.filter_congr fun i hi => ?_
  have hsurfaces : d.surfaces price i = true := List.all_eq_true.1 List.all_takeWhile i hi
  unfold surfaces at hsurfaces
  cases hc : (d.order i.order).closed
  · rw [hc, Bool.false_or] at hsurfaces
    rw [hsurfaces]
    rfl
  · rfl

/-- What is not closed is left if it is not reached. -/
theorem filter_dropWhile_line (hd : Parks d) :
    ((d.line side).dropWhile (d.surfaces price)).filter (fun i => !(d.order i.order).closed) =
      (d.line side).filter fun i => !(d.order i.order).closed &&
      !(d.order i.order).isReachedBy price := by
  conv_rhs => rw [← List.takeWhile_append_dropWhile (p := d.surfaces price) (l := d.line side),
    List.filter_append]
  have hfront : ((d.line side).takeWhile (d.surfaces price)).filter
      (fun i => !(d.order i.order).closed && !(d.order i.order).isReachedBy price) = [] := by
    refine List.filter_eq_nil_iff.2 fun i hi => ?_
    have hsurfaces : d.surfaces price i = true := List.all_eq_true.1 List.all_takeWhile i hi
    rw [← Bool.not_or, Bool.not_eq_true', Bool.not_eq_false]
    exact hsurfaces
  rw [hfront, List.nil_append]
  refine List.filter_congr fun i hi => ?_
  rw [not_reached_of_mem_dropWhile hd hi, Bool.not_false, Bool.and_true]

/-- What is reached is on the side whose line it is in. -/
theorem filter_fires (hd : Parks d) (s : Side) :
    ((d.fires price).filter fun r => (d.order r).side = s) =
      (d.reached price s).map (·.order) := by
  have hside : ∀ s', ∀ i ∈ d.reached price s', (d.order i.order).side = s' := fun s' i hi =>
    (hd.item s' i ((mem_reached hd).1 hi).1).1
  have hfilter : ∀ s', (d.reached price s').filter
      ((fun r => decide ((d.order r).side = s)) ∘ Item.order) =
        if s' = s then d.reached price s' else [] := by
    intro s'
    split
    · next h => exact List.filter_eq_self.2 fun i hi => decide_eq_true ((hside s' i hi).trans h)
    · next h => exact List.filter_eq_nil_iff.2 fun i hi => by simp [hside s' i hi, h]
  rw [fires, List.filter_map, List.filter_append, hfilter, hfilter]
  cases s <;> simp

namespace Drawn

variable {dropped : Multiset Item} {taken : List Item} (h : Drawn side price d d' dropped taken)

include h

/-- A draw makes no difference to what surfaces. -/
theorem surfaces (p : Price) : d'.surfaces p = d.surfaces p := by
  funext i
  rw [Desk.surfaces, h.order_eq i.order]
  rfl

/-- The line of the other side stays. -/
theorem line_of_ne {s : Side} (hs : side ≠ s) : d'.line s = d.line s := by
  rw [line, h.stopLossQueue_of_ne hs, line]

/-- Nor to what is reached on the other side. -/
theorem reached_of_ne {s : Side} (hs : side ≠ s) (p : Price) : d'.reached p s = d.reached p s := by
  rw [reached, h.line_of_ne hs]
  refine List.filter_congr fun i _ => ?_
  rw [h.order_eq i.order]
  rfl

end Drawn

/-- A pass takes the longest prefix of the line that surfaces, and activates of it what is not
closed. -/
theorem drains_takeReached {s : Logged (Desk σ)} (n : Nat)
    (hn : (s.state.book.stopLossQueue side).size ≤ n) : Ends (takeReached side price n) s
      (fun rs t => rs = (((s.state.line side).takeWhile (s.state.surfaces price)).filter
          fun i => !(s.state.order i.order).closed).map (·.order) ∧
        t.state.line side = (s.state.line side).dropWhile (s.state.surfaces price))
      (fun _ _ => False) := by
  induction n generalizing s with
  | zero =>
    have hline : s.state.line side = [] :=
      Queue.drain_of_none (Queue.headItem?_of_size (Nat.le_zero.1 hn))
    rw [hline]
    exact ⟨rfl, hline⟩
  | succ n ih =>
    simp only [takeReached, ends_bind, ends_current, Queue.popIf]
    have hsize : ((s.state.withoutDormant side).book.stopLossQueue side).size ≤ n := by
      rw [stopLossQueue_withoutDormant, Queue.size_dropHead]
      omega
    cases hhead : (s.state.book.stopLossQueue side).headItem? with
    | none =>
      have hline : s.state.line side = [] := Queue.drain_of_none hhead
      rw [hline]
      exact ⟨rfl, hline⟩
    | some head =>
      have hline : s.state.line side = head :: (s.state.withoutDormant side).line side := by
        rw [line, Queue.drain_of_some hhead, line, stopLossQueue_withoutDormant]
      rw [hline]
      by_cases hpop : ((s.state.order head.order).closed ||
          (s.state.order head.order).isReachedBy price) = true
      · simp only [hpop, if_true, ends_bind, ends_changeStopLossQueue]
        rw [List.takeWhile_cons_of_pos (p := s.state.surfaces price) hpop,
          List.dropWhile_cons_of_pos (p := s.state.surfaces price) hpop]
        split
        · next hc =>
          rw [ends_bind, ends_log, List.filter_cons_of_neg (by rw [hc]; decide)]
          exact ih (s := ⟨s.state.withoutDormant side, _⟩) hsize
        · next hc =>
          simp only [ends_bind, ends_onOffice, Office.onOrders, ends_within,
            ends_change, ends_pure]
          rw [List.filter_cons_of_pos (by simpa using hc), List.map_cons]
          -- activation makes no difference to what surfaces, nor to what is closed
          have hclosed : ∀ r, ((s.state.office.activated head.order).orders.get r).closed =
              (s.state.order r).closed := Office.closed_activated _ _
          have hsurfaces : surfaces { s.state.withoutDormant side with
              office := s.state.office.activated head.order } price = s.state.surfaces price :=
            funext fun i => congrArg₂ or (hclosed i.order) (Office.isReachedBy_activated ..)
          refine (ih (s := ⟨{ s.state.withoutDormant side with
            office := s.state.office.activated head.order }, _⟩) hsize).imp ?_
          rintro rs t ⟨rfl, ht⟩
          rw [hsurfaces] at ht ⊢
          simp only [Desk.order, hclosed]
          exact ⟨rfl, ht⟩
      · simp only [hpop, Bool.false_eq_true, if_false]
        rw [List.takeWhile_cons_of_neg (p := s.state.surfaces price) hpop,
          List.dropWhile_cons_of_neg (p := s.state.surfaces price) hpop]
        exact ⟨rfl, hline⟩

/-! ## The pass -/

/-- What one pass over the dormant stop-losses does when a price is looked up. -/
structure Passed (S : Settlement σ) (price : Price) (was : OrderRef → Order)
    (d d' : Desk (Recorded σ)) : Prop where
  /-- Exactly those stop-losses of a side are reached that are not closed and whose trigger the
  price reaches. -/
  mem_reached : ∀ s i, i ∈ d.reached price s ↔ i ∈ (d.book.stopLossQueue s).bag ∧
    (d.order i.order).closed = false ∧ (d.order i.order).ReachedAt price
  /-- They come by trigger, then by what they had left when they were parked, then by age and
  number. -/
  sorted : ∀ s, (d.reached price s).Pairwise fun a b =>
    (was a.order).Precedes s.TriggersBefore (was b.order)
  /-- Each is reported once, the asks first. -/
  reported : d'.office.backend.transcript.reported = d.office.backend.transcript.reported ++
    d.fires price
  nodup : (d.fires price).Nodup
  /-- It is active, -/
  active : ∀ r ∈ d.fires price, (d'.order r).type = .stopLossActive
  /-- rests on its side, where nothing else came or went, -/
  joined : ∀ s, ∃ new : Multiset Item, (d'.book.queue s).bag = new + (d.book.queue s).bag ∧
    new.map (·.order) = ((d.reached price s).map (·.order) : List OrderRef)
  /-- and is not dormant any more. -/
  gone : ∀ s, ∀ i ∈ (d'.book.stopLossQueue s).bag, i.order ∉ d.fires price
  /-- What surfaces leaves the line. -/
  left : ∀ s, d'.line s = (d.line s).dropWhile (d.surfaces price)
  /-- What is neither closed nor reached stays, in the same order. -/
  kept : ∀ s, (d'.line s).filter (fun i => !(d.order i.order).closed) =
    (d.line s).filter fun i => !(d.order i.order).closed && !(d.order i.order).isReachedBy price
  /-- Nothing else is activated. -/
  unactivated : ∀ r, r ∉ d.fires price → (d'.order r).type = (d.order r).type
  /-- An order that is not reached is unchanged, unless taking note of stop-losses changes it. -/
  unchanged : ∀ r, r ∉ d.fires price → S.LeavesAlone r → d'.order r = d.order r
  fills : d'.office.backend.transcript.fills = d.office.backend.transcript.fills
  ledger : d'.book.ledger = d.book.ledger
  header : d'.book.header = d.book.header

/-- The two lines were gone through, and what was picked joined the resting orders. -/
theorem Parking.passed {d d₁ d' : Desk (Recorded σ)} (h : Parking was d)
    (hpicked : Picked price (d.fires price) d d₁)
    (hleft : ∀ s, d₁.line s = (d.line s).dropWhile (d.surfaces price))
    (hjoined : Joined S (d.fires price) d₁ d') :
    Passed S price was d d' := by
  have horder : ∀ r, d₁.order r = (d.office.activatedAll (d.fires price)).orders.get r :=
    fun r => by
    rw [← hpicked.office]
    rfl
  have hline : ∀ s, d'.line s = (d.line s).dropWhile (d.surfaces price) := fun s => by
    rw [← hleft s, line, hjoined.stopLossQueue, line]
  constructor
  case mem_reached => exact fun s i => mem_reached h.parks
  case sorted => exact fun s => (h.pairwise_line s).filter _
  case reported => rw [hjoined.reported, hpicked.office, Office.backend_activatedAll]
  case nodup => exact hpicked.nodup
  case active =>
    intro r hr
    obtain ⟨s, i, hi, rfl, -⟩ := (hpicked.mem r).1 hr
    have htype : (d.office.orders.get i.order).type = .stopLoss := (h.item s i hi).type
    refine (hjoined.orders.type i.order).trans ((congrArg (·.type) (horder i.order)).trans ?_)
    rw [Office.get_activatedAll, if_pos hr, Order.activateStopLoss, if_pos htype]
  case joined =>
    intro s
    obtain ⟨new, hbag, hnew⟩ := hjoined.queue s
    refine ⟨new, by rw [hbag, hpicked.queue], hnew.trans (congrArg _ ?_)⟩
    rw [← filter_fires h.parks]
    refine List.filter_congr fun r _ => ?_
    rw [horder, Office.get_activatedAll_eq]
    rfl
  case gone =>
    intro s i hi
    rw [hjoined.stopLossQueue] at hi
    exact (hpicked.dormant s i hi).2
  case left => exact hline
  case kept => exact fun s => (hline s).symm ▸ filter_dropWhile_line h.parks
  case unactivated =>
    intro r hr
    refine (hjoined.orders.type r).trans ((congrArg (·.type) (horder r)).trans ?_)
    rw [Office.get_activatedAll, if_neg hr]
    rfl
  case unchanged =>
    intro r hr hleave
    rw [hjoined.left r hleave, horder, Office.get_activatedAll, if_neg hr]
    rfl
  case fills => rw [hjoined.fills, hpicked.office, Office.backend_activatedAll]
  case ledger => exact hjoined.ledger.trans hpicked.ledger
  case header => exact hjoined.header.trans hpicked.header

/-- One pass promotes exactly the stop-losses that are reached. However the queues of dormant
stop-losses were built by parking, and whichever of these were closed since: looking up a price
ends as `Passed` says, and the answer tells whether any was reached. It breaks off only where
settlement does. -/
theorem triggerStopLosses_promotes_reached (hS : S.Faithful) {s : Logged (Desk (Recorded σ))}
    (h : Parking was s.state) (price : Price) :
    Ends (triggerStopLosses S.recorded price) s
      (fun activated t => activated = !(s.state.fires price).isEmpty ∧
        Passed S price was s.state t.state)
      (fun _ _ => S.Balks) := by
  have hd := h.parks
  simp only [triggerStopLosses, ends_bind, ends_current, ends_pure]
  refine ((draws_takeReached _ le_rfl).and (drains_takeReached _ le_rfl)).mono ?_ fun _ _ hf =>
    hf.1.elim
  rintro _ t ⟨⟨dropped, asks, rfl, hasks⟩, hreached, hline⟩
  refine ((draws_takeReached _ le_rfl).and (drains_takeReached _ le_rfl)).mono ?_ fun _ _ hf =>
    hf.1.elim
  rintro _ u ⟨⟨dropped', bids, rfl, hbids⟩, hreached', hline'⟩
  have hd' := hasks.parks hd
  -- what the bids are compared with is as it was before the asks were drawn
  have hfires : asks.map (·.order) ++ bids.map (·.order) = s.state.fires price := by
    rw [hreached, hreached', ← reached_eq hd, ← reached_eq hd', hasks.reached_of_ne
      (by decide), fires, List.map_append]
  have hleft : ∀ side, u.state.line side = (s.state.line side).dropWhile
      (s.state.surfaces price) := by
    intro side
    cases side with
    | ask => rw [hbids.line_of_ne (by decide), hline]
    | bid => rw [hline', hasks.surfaces, hasks.line_of_ne (by decide)]
  have hpicked := hasks.picked hd hbids
  rw [hfires] at hpicked ⊢
  exact (joins_promoteAll hS).imp fun _ v hjoined => ⟨rfl, h.passed hpicked hleft hjoined⟩

/-- Asks that sell at 95, twice at 93 and at 90 and a bid that buys at 92 are parked, the first is
cancelled, and 93 is traded. Of the two at 93 the later one comes first, since more of it is
left. -/
theorem triggerStopLosses_promotes_fiveParked :
    let order (number : UInt64) (side : Side) (trigger quantity : UInt64) : Order :=
      ⟨⟨number⟩, ⟨1⟩, ⟨1⟩, side, .stopLoss, .ofUInt64 trigger, ⟨quantity⟩, .zero, false,
        .ofNat number.toNat⟩
    let orders : Orders := ⟨#[order 1 .ask 95 5, order 2 .ask 93 5, order 3 .ask 93 7,
      order 4 .ask 90 5, order 5 .bid 92 5]⟩
    let fresh : Desk (Recorded Scripted) :=
      ⟨⟨orders, .empty, []⟩, .new ⟨⟨1⟩, .ofUInt64 100⟩ 10 1⟩
    let parked := [⟨0⟩, ⟨1⟩, ⟨2⟩, ⟨3⟩, ⟨4⟩].foldl Desk.parked fresh
    let desk : Desk (Recorded Scripted) :=
      ⟨⟨orders.modify ⟨0⟩ Order.close, .empty, []⟩, parked.book⟩
    (Scripted.settlement.Faithful ∧ Parking fresh.order desk) ∧
      desk.fires (.ofUInt64 93) = [⟨2⟩, ⟨1⟩, ⟨4⟩] ∧ ∃ activated t,
        triggerStopLosses Scripted.settlement.recorded (.ofUInt64 93) ⟨desk, #[]⟩ =
            .ok activated t ∧
          activated = !(desk.fires (.ofUInt64 93)).isEmpty ∧
          Passed Scripted.settlement (.ofUInt64 93) fresh.order desk t.state := by
  intro order orders fresh parked desk
  have hparked : Parking fresh.order parked := by
    refine .of_foldl (fun s => ?_) ?_ ?_
    · cases s <;> rfl
    · decide
    · decide
  have hdesk : Parking fresh.order desk := by
    refine hparked.later (fun _ => rfl) fun s i _ => ?_
    have hclosed := orders.retain_close ⟨0⟩
    exact ⟨hclosed.follow i.order, hclosed.type i.order⟩
  refine ⟨⟨Scripted.faithful, hdesk⟩, by decide +kernel, ?_⟩
  refine ((triggerStopLosses_promotes_reached (s := ⟨desk, #[]⟩) Scripted.faithful hdesk _).mono
    (fun _ _ ht => ht) ?_).exists_ok
  exact fun _ _ hbalks => Scripted.not_balks hbalks

end Desk

end Bourse
