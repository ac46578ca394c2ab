import Bourse.Proofs.Book.Stock
import Bourse.Proofs.Settlement.Faithful
import Bourse.Proofs.Settlement.Recorded

/-!
# Stop-losses that fire, whatever the settlement

A trade is looked up in the queues of dormant stop-losses. `Desk.Drawn` says what is drawn from one
of them: closed ones are dropped, the ones that the price reaches are activated, and the first that
is left is neither. As the queue is ranked by triggers, none that is left is reached then
(`Drawn.mem_taken`). So exactly the dormant stop-losses are picked that are not closed and that the
price reaches (`Desk.Picked`). They join the resting orders one after the other, each reported to
settlement once (`Desk.Joined`).

`Desk.Fired` puts this together for a trade. Settlement is any that fills and closes orders and
changes nothing else of them; it may break off when it is to take note of a stop-loss
(`Settlement.Balks`).
-/

namespace Bourse

open Bourse.Action

variable {σ : Type} {S : Settlement σ}

/-! ## Activation -/

namespace Order

/-- Activation changes the type of an order and nothing else. -/
theorem activateStopLoss_eq (o : Order) :
    o.activateStopLoss.2 = { o with type := o.activateStopLoss.2.type } := by
  unfold activateStopLoss
  split <;> rfl

/-- An order is activated once. -/
theorem activateStopLoss_idem (o : Order) :
    o.activateStopLoss.2.activateStopLoss.2 = o.activateStopLoss.2 := by
  rw [activateStopLoss.eq_1 o.activateStopLoss.2, if_neg type_activateStopLoss]

end Order

namespace Office

/-- The office with stop-losses activated, one after the other. -/
def activatedAll (o : Office σ) (rs : List OrderRef) : Office σ := rs.foldl Office.activated o

/-- The activated orders, and no others, have been activated. -/
theorem get_activatedAll (o : Office σ) (rs : List OrderRef) (r : OrderRef) :
    (o.activatedAll rs).orders.get r =
      if r ∈ rs then (o.orders.get r).activateStopLoss.2 else o.orders.get r := by
  induction rs generalizing o with
  | nil => rfl
  | cons r' rest ih =>
    have hfirst : (o.activated r').orders.get r =
        if r' = r then (o.orders.get r).activateStopLoss.2 else o.orders.get r := by
      refine (Orders.get_modify ..).trans ?_
      split
      · next h => rw [h]
      · rfl
    show ((o.activated r').activatedAll rest).orders.get r = _
    rw [ih, hfirst]
    by_cases hr : r' = r
    · subst hr
      simp [Order.activateStopLoss_idem]
    · simp [hr, Ne.symm hr]

/-- Activation changes the types of orders and nothing else. -/
theorem get_activatedAll_eq (o : Office σ) (rs : List OrderRef) (r : OrderRef) :
    (o.activatedAll rs).orders.get r =
      { o.orders.get r with type := ((o.activatedAll rs).orders.get r).type } := by
  rw [get_activatedAll]
  split
  · exact Order.activateStopLoss_eq _
  · rfl

/-- Activating an order closes none. -/
theorem closed_activated (o : Office σ) (r r' : OrderRef) :
    ((o.activated r).orders.get r').closed = (o.orders.get r').closed := by
  rw [show o.activated r = o.activatedAll [r] from rfl, get_activatedAll_eq]

/-- Activating an order leaves the prices that reach it. -/
theorem isReachedBy_activated (o : Office σ) (r r' : OrderRef) (price : Price) :
    ((o.activated r).orders.get r').isReachedBy price = (o.orders.get r').isReachedBy price := by
  rw [show o.activated r = o.activatedAll [r] from rfl, get_activatedAll_eq]
  rfl

/-- Activating orders leaves settlement as it is. -/
theorem backend_activatedAll (o : Office σ) (rs : List OrderRef) :
    (o.activatedAll rs).backend = o.backend := by
  induction rs generalizing o with
  | nil => rfl
  | cons r rest ih => exact ih (o.activated r)

/-- Activating orders takes nothing back. -/
theorem follow_activatedAll (o : Office σ) (rs : List OrderRef) :
    o.orders.Follow (o.activatedAll rs).orders := by
  intro r
  rw [get_activatedAll]
  split
  · exact Order.follows_activateStopLoss
  · exact .refl _

end Office

namespace Desk

variable {d d' d'' : Desk σ} {side : Side} {price : Price} {dropped : Multiset Item}
  {taken : List Item} {k : Item} {n : Nat}

/-! ## What is drawn from a queue -/

/-- Dormant stop-losses are parked on their side, ranked by the prices they wait for, each of them
once. -/
structure Parks (d : Desk σ) : Prop where
  ordered : ∀ s, (d.book.stopLossQueue s).Ordered (.ofStopLoss s)
  item : ∀ s, ∀ i ∈ (d.book.stopLossQueue s).bag, (d.order i.order).side = s ∧
    (d.order i.order).type = .stopLoss ∧ i.type = .stopLoss ∧ i.price = (d.order i.order).price
  distinct : ∀ s, ((d.book.stopLossQueue s).bag.map (·.order)).Nodup

/-- Orders may be filled and closed meanwhile. -/
theorem Parks.congr {d' : Desk σ} (hd : Parks d)
    (hqueue : ∀ s, d'.book.stopLossQueue s = d.book.stopLossQueue s)
    (horders : d.office.orders.Retain d'.office.orders) : Parks d' where
  ordered s := hqueue s ▸ hd.ordered s
  item s i hi := by
    obtain ⟨hside, htype, hitem, hprice⟩ := hd.item s i (hqueue s ▸ hi)
    have hfollow := horders.follow i.order
    exact ⟨hfollow.side.trans hside, (horders.type i.order).trans htype, hitem,
      hprice.trans hfollow.price.symm⟩
  distinct s := hqueue s ▸ hd.distinct s

/-- The front of a queue of dormant stop-losses was drawn: those in `dropped` were closed, those in
`taken` are activated, and the first that is left is neither closed nor reached. -/
structure Drawn (side : Side) (price : Price) (d d' : Desk σ) (dropped : Multiset Item)
    (taken : List Item) : Prop where
  office : d'.office = d.office.activatedAll (taken.map (·.order))
  book : d'.book = d.book.withStopLossQueue (d'.book.stopLossQueue side) side
  bag : (d.book.stopLossQueue side).bag = dropped + taken + (d'.book.stopLossQueue side).bag
  ordered : (d.book.stopLossQueue side).Ordered (.ofStopLoss side) →
    (d'.book.stopLossQueue side).Ordered (.ofStopLoss side)
  dropped : ∀ i ∈ dropped, (d.order i.order).closed = true
  taken : ∀ i ∈ taken, (d.order i.order).closed = false ∧
    (d.order i.order).isReachedBy price = true
  head : ∀ i, (d'.book.stopLossQueue side).headItem? = some i →
    (d.order i.order).closed = false ∧ (d.order i.order).isReachedBy price = false

namespace Drawn

/-- The first stop-loss is neither closed nor reached, or there is none. -/
theorem refl (hhead : ∀ i, (d.book.stopLossQueue side).headItem? = some i →
    (d.order i.order).closed = false ∧ (d.order i.order).isReachedBy price = false) :
    Drawn side price d d 0 [] where
  office := rfl
  book := by cases side <;> rfl
  bag := by simp
  ordered := id
  dropped _ h := absurd h (Multiset.notMem_zero _)
  taken _ h := absurd h List.not_mem_nil
  head := hhead

/-- What was in the queue was dropped, taken, or stayed. -/
theorem mem_bag (h : Drawn side price d d' dropped taken) :
    k ∈ (d.book.stopLossQueue side).bag ↔
      k ∈ dropped ∨ k ∈ taken ∨ k ∈ (d'.book.stopLossQueue side).bag := by
  rw [h.bag, Multiset.mem_add, Multiset.mem_add, Multiset.mem_coe, or_assoc]

/-- No order changed in anything but its type. -/
theorem order_eq (h : Drawn side price d d' dropped taken) (r : OrderRef) :
    d'.order r = { d.order r with type := (d'.order r).type } := by
  unfold Desk.order
  rw [h.office]
  exact Office.get_activatedAll_eq ..

/-- An order that was not taken did not change. -/
theorem order_of_not_mem (h : Drawn side price d d' dropped taken) {r : OrderRef}
    (hr : r ∉ taken.map (·.order)) : d'.order r = d.order r := by
  unfold Desk.order
  rw [h.office, Office.get_activatedAll, if_neg hr]

theorem stopLossQueue_of_ne (h : Drawn side price d d' dropped taken) {s : Side} (hs : side ≠ s) :
    d'.book.stopLossQueue s = d.book.stopLossQueue s := by
  rw [h.book, Book.stopLossQueue_withStopLossQueue, if_neg hs]

theorem queue (h : Drawn side price d d' dropped taken) (s : Side) :
    d'.book.queue s = d.book.queue s := by
  rw [h.book, Book.queue_withStopLossQueue]

theorem ledger (h : Drawn side price d d' dropped taken) : d'.book.ledger = d.book.ledger := by
  rw [h.book, Book.ledger_withStopLossQueue]

theorem header (h : Drawn side price d d' dropped taken) : d'.book.header = d.book.header := by
  rw [h.book, Book.header_withStopLossQueue]

/-- The queues of dormant stop-losses only lose items. -/
theorem stopLossQueue_le (h : Drawn side price d d' dropped taken) (s : Side) :
    (d'.book.stopLossQueue s).bag ≤ (d.book.stopLossQueue s).bag := by
  by_cases hs : side = s
  · subst hs
    exact h.bag ▸ Multiset.le_add_left _ _
  · exact (h.stopLossQueue_of_ne hs).symm ▸ le_rfl

/-- No stop-loss is taken twice, and none that is taken is left in the queue. -/
theorem nodup (h : Drawn side price d d' dropped taken) (hd : Parks d) :
    (taken.map (·.order)).Nodup ∧
    ∀ i ∈ (d'.book.stopLossQueue side).bag, i.order ∉ taken.map (·.order) := by
  have hdistinct := hd.distinct side
  rw [h.bag, Multiset.map_add, Multiset.map_add, Multiset.nodup_add,
    Multiset.nodup_add] at hdistinct
  obtain ⟨⟨-, htaken, -⟩, -, hdisjoint⟩ := hdistinct
  refine ⟨Multiset.coe_nodup.1 htaken, fun i hi hmem => ?_⟩
  refine Multiset.disjoint_left.1 hdisjoint (Multiset.mem_add.2 (.inr ?_))
    (Multiset.mem_map_of_mem _ hi)
  exact Multiset.mem_coe.2 hmem

/-- What is taken is on the side. -/
theorem side_of_mem (h : Drawn side price d d' dropped taken) (hd : Parks d) {r : OrderRef}
    (hr : r ∈ taken.map (·.order)) : (d.order r).side = side := by
  obtain ⟨k, hk, rfl⟩ := List.mem_map.1 hr
  exact (hd.item side k (h.mem_bag.2 (.inr (.inl hk)))).1

/-- What is left in either queue is not taken. -/
theorem not_mem_of_left (h : Drawn side price d d' dropped taken) (hd : Parks d) {s : Side}
    (hk : k ∈ (d'.book.stopLossQueue s).bag) : k.order ∉ taken.map (·.order) := by
  by_cases hs : side = s
  · subst hs
    exact (h.nodup hd).2 k hk
  · intro hmem
    have hside := (hd.item s k (Multiset.mem_of_le (h.stopLossQueue_le s) hk)).1
    exact hs ((h.side_of_mem hd hmem).symm.trans hside)

/-- What was drawn was parked on the side, and the rest is parked as before. -/
theorem parks (h : Drawn side price d d' dropped taken) (hd : Parks d) : Parks d' where
  ordered s := by
    by_cases hs : side = s
    · subst hs
      exact h.ordered (hd.ordered side)
    · exact (h.stopLossQueue_of_ne hs).symm ▸ hd.ordered s
  item s i hi := by
    rw [h.order_of_not_mem (h.not_mem_of_left hd hi)]
    exact hd.item s i (Multiset.mem_of_le (h.stopLossQueue_le s) hi)
  distinct s := Multiset.nodup_of_le (Multiset.map_le_map (h.stopLossQueue_le s)) (hd.distinct s)

/-- Exactly the stop-losses are taken that are not closed and that the price reaches. -/
theorem mem_taken (h : Drawn side price d d' dropped taken) (hd : Parks d) :
    k ∈ taken ↔ k ∈ (d.book.stopLossQueue side).bag ∧ (d.order k.order).closed = false ∧
      (d.order k.order).ReachedAt price := by
  constructor
  · intro hk
    exact ⟨h.mem_bag.2 (.inr (.inl hk)), (h.taken k hk).1, Order.isReachedBy_iff.1
      (h.taken k hk).2⟩
  · rintro ⟨hk, hclosed, hreached⟩
    rcases h.mem_bag.1 hk with hk | hk | hk
    · exact absurd ((h.dropped k hk).symm.trans hclosed) (by decide)
    · exact hk
    · -- the first that is left is not reached, so this one is not
      refine absurd hreached (not_reachedAt_of_head d.office.orders
        (h.ordered (hd.ordered side)) ?_ (fun i hi => (h.head i hi).2) k hk)
      intro i hi
      obtain ⟨hside, -, htype, hprice⟩ := hd.item side i (h.mem_bag.2 (.inr (.inr hi)))
      exact ⟨hside, htype, hprice⟩

/-- Taken were the open stop-losses that the price reaches. -/
theorem mem_map_taken (h : Drawn side price d d' dropped taken) (hd : Parks d) {r : OrderRef} :
    r ∈ taken.map (·.order) ↔ ∃ k ∈ (d.book.stopLossQueue side).bag, k.order = r ∧
      (d.order r).closed = false ∧ (d.order r).ReachedAt price := by
  rw [List.mem_map]
  constructor
  · rintro ⟨k, hk, rfl⟩
    obtain ⟨hmem, hpicked⟩ := (h.mem_taken hd).1 hk
    exact ⟨k, hmem, rfl, hpicked⟩
  · rintro ⟨k, hk, rfl, hpicked⟩
    exact ⟨k, (h.mem_taken hd).2 ⟨hk, hpicked⟩, rfl⟩

/-- A stop-loss that is not closed is taken or left. -/
theorem mem_left (h : Drawn side price d d' dropped taken) {s : Side}
    (hk : k ∈ (d.book.stopLossQueue s).bag) (hclosed : (d.order k.order).closed = false)
    (hnot : k ∉ taken) : k ∈ (d'.book.stopLossQueue s).bag := by
  by_cases hs : side = s
  · subst hs
    rcases h.mem_bag.1 hk with hk | hk | hk
    · exact absurd ((h.dropped k hk).symm.trans hclosed) (by decide)
    · exact absurd hk hnot
    · exact hk
  · exact (h.stopLossQueue_of_ne hs).symm ▸ hk

/-- A closed stop-loss is dropped, and then the rest is drawn. -/
theorem drop {head : Item} (h : Drawn side price (d.withoutDormant side) d' dropped taken)
    (hh : (d.book.stopLossQueue side).headItem? = some head)
    (hc : (d.order head.order).closed = true) :
    Drawn side price d d' (head ::ₘ dropped) taken where
  office := h.office
  book := h.book.trans (by cases side <;> rfl)
  bag := by
    rw [bag_withoutDormant hh, h.bag, Multiset.cons_add, Multiset.cons_add]
  ordered hq := h.ordered (stopLossQueue_withoutDormant d side ▸ hq.dropHead)
  dropped i hi := by
    rcases Multiset.mem_cons.1 hi with rfl | hi
    · exact hc
    · exact h.dropped i hi
  taken := h.taken
  head := h.head

/-- A stop-loss that is reached is activated, and then the rest is drawn. -/
theorem take {head : Item} (h : Drawn side price
      { d.withoutDormant side with office := d.office.activated head.order } d' dropped taken)
    (hh : (d.book.stopLossQueue side).headItem? = some head)
    (hc : (d.order head.order).closed = false)
    (hr : (d.order head.order).isReachedBy price = true) :
    Drawn side price d d' dropped (head :: taken) := by
  -- activation makes no difference to what decides
  have hsame : ∀ r, ((d.office.activated head.order).orders.get r).closed = (d.order r).closed ∧
      ((d.office.activated head.order).orders.get r).isReachedBy price =
        (d.order r).isReachedBy price :=
    fun _ => ⟨Office.closed_activated .., Office.isReachedBy_activated ..⟩
  exact
  { office := h.office
    book := h.book.trans (by cases side <;> rfl)
    bag := by
      rw [bag_withoutDormant hh, ← Multiset.cons_coe, Multiset.add_cons, Multiset.cons_add]
      exact congrArg (head ::ₘ ·) h.bag
    ordered := fun hq => h.ordered (stopLossQueue_withoutDormant d side ▸ hq.dropHead)
    dropped := fun i hi => (hsame i.order).1 ▸ h.dropped i hi
    taken := by
      intro i hi
      rcases List.mem_cons.1 hi with rfl | hi
      · exact ⟨hc, hr⟩
      · exact ⟨(hsame i.order).1 ▸ (h.taken i hi).1, (hsame i.order).2 ▸ (h.taken i hi).2⟩
    head := fun i hi =>
    ⟨(hsame i.order).1 ▸ (h.head i hi).1, (hsame i.order).2 ▸ (h.head i hi).2⟩ }

end Drawn

/-- The stop-losses of a side that a price reaches are drawn. -/
theorem draws_takeReached {s : Logged (Desk σ)} (n : Nat)
    (hn : (s.state.book.stopLossQueue side).size ≤ n) : Ends (takeReached side price n) s
      (fun rs t => ∃ dropped taken, rs = taken.map (·.order) ∧
        Drawn side price s.state t.state dropped taken)
      (fun _ _ => False) := by
  induction n generalizing s with
  | zero =>
    refine ⟨0, [], rfl, .refl fun i hi => ?_⟩
    exact absurd (Queue.size_pos_of_headItem? hi) (Nat.not_lt.2 hn)
  | succ n ih =>
    simp only [takeReached, ends_bind, ends_current, Queue.popIf]
    have hsize : ((s.state.withoutDormant side).book.stopLossQueue side).size ≤ n := by
      rw [stopLossQueue_withoutDormant, Queue.size_dropHead]
      omega
    cases hhead : (s.state.book.stopLossQueue side).headItem? with
    | none => exact ⟨0, [], rfl, .refl fun i hi => absurd (hhead.symm.trans hi)
        (Option.some_ne_none i).symm⟩
    | some head =>
      by_cases hpop : ((s.state.order head.order).closed ||
          (s.state.order head.order).isReachedBy price) = true
      · simp only [hpop, if_true, ends_bind, ends_changeStopLossQueue]
        split
        · next hc =>
          rw [ends_bind, ends_log]
          refine (ih (s := ⟨s.state.withoutDormant side, _⟩) hsize).imp ?_
          rintro rs t ⟨dropped, taken, rfl, hdrawn⟩
          exact ⟨_, _, rfl, hdrawn.drop hhead hc⟩
        · next hc =>
          have hc : (s.state.order head.order).closed = false := by simpa using hc
          rw [hc, Bool.false_or] at hpop
          simp only [ends_bind, ends_onOffice, Office.onOrders, ends_within,
            ends_change, ends_pure]
          refine (ih (s := ⟨{ s.state.withoutDormant side with
            office := s.state.office.activated head.order }, _⟩) hsize).imp ?_
          rintro rs t ⟨dropped, taken, rfl, hdrawn⟩
          exact ⟨_, _, rfl, hdrawn.take hhead hc hpop⟩
      · simp only [hpop, Bool.false_eq_true, if_false]
        refine ⟨0, [], rfl, .refl fun i hi => ?_⟩
        cases hhead.symm.trans hi
        simpa using hpop

end Desk

/-! ## Joining the resting orders -/

/-- Settlement breaks off when it is to take note of some stop-loss. -/
def Settlement.Balks (S : Settlement σ) : Prop :=
  ∃ r o o', (S.stopLossTriggered r).Leads o none o'

/-- Scripted settlement takes note of every stop-loss. -/
theorem Scripted.not_balks : ¬ settlement.Balks := by
  rintro ⟨r, o, o', hleads⟩
  have hsome : (none : Option Unit) ≠ none := by
    refine hleads.of_ends (P := fun answer _ => answer ≠ none) fun j => ?_
    simp only [settlement, noteStopLoss, simulating, Simulated.noteStopLoss,
      Office.onBackend, Office.withinBackend, ends_bind, ends_current, ends_within,
      ends_replace, ends_log, ends_change]
    exact Option.some_ne_none _
  exact hsome rfl

/-- Taking note of stop-losses changes nothing of the order. -/
def Settlement.LeavesAlone (S : Settlement σ) (r : OrderRef) : Prop :=
  ∀ {r' : OrderRef} {o o' : Office σ}, (S.stopLossTriggered r').Leads o (some ()) o' →
    o'.orders.get r = o.orders.get r

namespace Desk

variable {d d' d'' : Desk (Recorded σ)} {rs rs' : List OrderRef} {r : OrderRef} {price : Price}

/-- Activated stop-losses were reported and came to rest on their sides, each of them once. -/
structure Joined (S : Settlement σ) (rs : List OrderRef) (d d' : Desk (Recorded σ)) : Prop where
  orders : d.office.orders.Retain d'.office.orders
  left : ∀ r, S.LeavesAlone r → d'.order r = d.order r
  fills : d'.office.backend.transcript.fills = d.office.backend.transcript.fills
  reported : d'.office.backend.transcript.reported = d.office.backend.transcript.reported ++ rs
  queue : ∀ s, ∃ new : Multiset Item, (d'.book.queue s).bag = new + (d.book.queue s).bag ∧
    new.map (·.order) = (rs.filter fun r => (d.order r).side = s : List OrderRef)
  ordered : ∀ s, (d.book.queue s).Ordered (.ofResting s) → (d'.book.queue s).Ordered (.ofResting s)
  stopLossQueue : ∀ s, d'.book.stopLossQueue s = d.book.stopLossQueue s
  ledger : d'.book.ledger = d.book.ledger
  header : d'.book.header = d.book.header

namespace Joined

theorem refl (S : Settlement σ) (d : Desk (Recorded σ)) : Joined S [] d d where
  orders := .refl _
  left _ _ := rfl
  fills := rfl
  reported := (List.append_nil _).symm
  queue _ := ⟨0, (zero_add _).symm, rfl⟩
  ordered _ := id
  stopLossQueue _ := rfl
  ledger := rfl
  header := rfl

theorem trans (h : Joined S rs d d') (h' : Joined S rs' d' d'') : Joined S (rs ++ rs') d d'' where
  orders := h.orders.trans h'.orders
  left r hr := (h'.left r hr).trans (h.left r hr)
  fills := h'.fills.trans h.fills
  reported := by rw [h'.reported, h.reported, List.append_assoc]
  queue s := by
    obtain ⟨new, hbag, hnew⟩ := h.queue s
    obtain ⟨new', hbag', hnew'⟩ := h'.queue s
    -- an order is on the same side later
    have hside : ∀ r, (d'.order r).side = (d.order r).side := fun r => (h.orders.follow r).side
    simp only [hside] at hnew'
    refine ⟨new + new', ?_, ?_⟩
    · rw [hbag', hbag]
      abel
    · rw [Multiset.map_add, hnew, hnew', List.filter_append, Multiset.coe_add]
  ordered s hq := h'.ordered s (h.ordered s hq)
  stopLossQueue s := (h'.stopLossQueue s).trans (h.stopLossQueue s)
  ledger := h'.ledger.trans h.ledger
  header := h'.header.trans h.header

end Joined

/-- One stop-loss was reported, and pushed into the queue of its side. -/
theorem joined_one (hS : S.Faithful) {o : Office σ}
    (hleads : (S.stopLossTriggered r).Leads d.office.forget (some ()) o) :
    Joined S [r] d
      { office := d.office.written (.triggered r d.office.orders) o
        book := d.book.withQueue ((d.book.queue (d.order r).side).push r (o.orders.get r))
          (d.order r).side } where
  orders := hS.stopLossTriggered hleads
  left _ hr := hr hleads
  fills := Transcript.fills_snoc_triggered _ _ _
  reported := Transcript.reported_snoc_triggered _ _ _
  queue s := by
    rw [Book.queue_withQueue]
    by_cases hs : (d.order r).side = s
    · subst hs
      refine ⟨{.ofOrder r (o.orders.get r)}, ?_, ?_⟩
      · rw [if_pos rfl, Queue.push, Queue.bag_pushItem, Multiset.singleton_add]
      · rw [Multiset.map_singleton, List.filter_singleton, decide_eq_true rfl]
        rfl
    · refine ⟨0, by rw [if_neg hs, zero_add], ?_⟩
      rw [List.filter_singleton, decide_eq_false hs]
      rfl
  ordered s hq := by
    rw [Book.queue_withQueue]
    split
    · next hs => exact hs ▸ (hs ▸ hq).pushItem _
    · exact hq
  stopLossQueue _ := Book.stopLossQueue_withQueue ..
  ledger := Book.ledger_withQueue ..
  header := Book.header_withQueue ..

/-- A stop-loss that was activated joins. -/
theorem joins_promote (hS : S.Faithful) {s : Logged (Desk (Recorded σ))} :
    Ends (promote S.recorded price r) s (fun _ t => Joined S [r] s.state t.state)
    (fun _ _ => S.Balks) := by
  simp only [promote, ends_bind, ends_current, ends_log, ends_onOffice,
    Settlement.ends_stopLossTriggered_recorded]
  refine (ends_leads _ _).mono ?_ fun _ t hleads => ⟨r, _, t.state, hleads⟩
  exact fun _ t hleads => joined_one hS hleads

/-- Activated stop-losses join the resting orders one after the other. -/
theorem joins_promoteAll (hS : S.Faithful) {s : Logged (Desk (Recorded σ))} :
    Ends (rs.forM (promote S.recorded price)) s (fun _ t => Joined S rs s.state t.state)
      (fun _ _ => S.Balks) := by
  induction rs generalizing s with
  | nil => exact .refl S s.state
  | cons r rest ih =>
    refine (joins_promote hS).bind ?_
    intro _ t ht
    exact ih.imp fun _ u hu => ht.trans hu

/-! ## What a trade sets off -/

/-- Of the dormant stop-losses exactly those were picked out and activated that are not closed and
that a price reaches. No other that is not closed left its queue. -/
structure Picked (price : Price) (picked : List OrderRef) (d d' : Desk (Recorded σ)) : Prop where
  office : d'.office = d.office.activatedAll picked
  mem : ∀ r, r ∈ picked ↔ ∃ s, ∃ i ∈ (d.book.stopLossQueue s).bag, i.order = r ∧
    (d.order r).closed = false ∧ (d.order r).ReachedAt price
  nodup : picked.Nodup
  queue : ∀ s, d'.book.queue s = d.book.queue s
  parked : ∀ s, ∀ i ∈ (d.book.stopLossQueue s).bag, (d.order i.order).closed = false →
    i.order ∉ picked → i ∈ (d'.book.stopLossQueue s).bag
  dormant : ∀ s, ∀ i ∈ (d'.book.stopLossQueue s).bag, i ∈ (d.book.stopLossQueue s).bag ∧
    i.order ∉ picked
  ledger : d'.book.ledger = d.book.ledger
  header : d'.book.header = d.book.header

/-- A trade, if there was one, set off exactly the dormant stop-losses that were not closed and
that its price reaches. They are active now, and no other stop-loss that was not closed left its
queue. -/
structure Fired (S : Settlement σ) (trade : Option Trade) (fired : List OrderRef)
    (d d' : Desk (Recorded σ)) : Prop where
  mem : ∀ r, r ∈ fired ↔ ∃ t s, trade = some t ∧ ∃ i ∈ (d.book.stopLossQueue s).bag, i.order = r ∧
    (d.order r).closed = false ∧ (d.order r).ReachedAt t.price
  nodup : fired.Nodup
  orders : (d.office.activatedAll fired).orders.Retain d'.office.orders
  left : ∀ r, S.LeavesAlone r → d'.order r = (d.office.activatedAll fired).orders.get r
  fills : d'.office.backend.transcript.fills = d.office.backend.transcript.fills
  reported : d'.office.backend.transcript.reported = d.office.backend.transcript.reported ++ fired
  queue : ∀ s, ∃ new : Multiset Item, (d'.book.queue s).bag = new + (d.book.queue s).bag ∧
    new.map (·.order) = (fired.filter fun r => (d.order r).side = s : List OrderRef)
  ordered : ∀ s, (d.book.queue s).Ordered (.ofResting s) → (d'.book.queue s).Ordered (.ofResting s)
  parked : ∀ s, ∀ i ∈ (d.book.stopLossQueue s).bag, (d.order i.order).closed = false →
    i.order ∉ fired → i ∈ (d'.book.stopLossQueue s).bag
  dormant : ∀ s, ∀ i ∈ (d'.book.stopLossQueue s).bag, i ∈ (d.book.stopLossQueue s).bag ∧
    i.order ∉ fired
  ledger : d'.book.ledger = d.book.ledger
  header : d'.book.header = d.book.header

/-- Without a trade nothing fires. -/
theorem fired_nil (S : Settlement σ) (d : Desk (Recorded σ)) : Fired S none [] d d where
  mem _ := ⟨fun h => absurd h List.not_mem_nil, fun ⟨_, _, h, _⟩ => nomatch h⟩
  nodup := .nil
  orders := .refl _
  left _ _ := rfl
  fills := rfl
  reported := (List.append_nil _).symm
  queue _ := ⟨0, (zero_add _).symm, rfl⟩
  ordered _ := id
  parked _ _ hi _ _ := hi
  dormant _ _ hi := ⟨hi, List.not_mem_nil⟩
  ledger := rfl
  header := rfl

/-- The asks are drawn, then the bids. -/
theorem Drawn.picked {asks bids : List Item} {dropped dropped' : Multiset Item}
    {d₁ d₂ : Desk (Recorded σ)} (hd : Parks d) (hasks : Drawn .ask price d d₁ dropped asks)
    (hbids : Drawn .bid price d₁ d₂ dropped' bids) :
    Picked price (asks.map (·.order) ++ bids.map (·.order)) d d₂ := by
  have hd₁ := hasks.parks hd
  have hbidQueue : d₁.book.stopLossQueue .bid = d.book.stopLossQueue .bid :=
    hasks.stopLossQueue_of_ne (by decide)
  -- what decides is the same after the first draw
  have hsame : ∀ r, (d₁.order r).side = (d.order r).side ∧
      (d₁.order r).closed = (d.order r).closed ∧
        ((d₁.order r).ReachedAt price ↔ (d.order r).ReachedAt price) := by
    intro r
    rw [hasks.order_eq r]
    exact ⟨rfl, rfl, Iff.rfl⟩
  refine ⟨?_, ?_, ?_, ?_, ?_, ?_, ?_, ?_⟩
  · rw [hbids.office, hasks.office]
    exact List.foldl_append.symm
  · intro r
    have hbid := hbids.mem_map_taken (r := r) hd₁
    rw [hbidQueue, (hsame r).2.1, (hsame r).2.2] at hbid
    rw [List.mem_append, hasks.mem_map_taken hd, hbid]
    constructor
    · rintro (hr | hr)
      · exact ⟨.ask, hr⟩
      · exact ⟨.bid, hr⟩
    · rintro ⟨s, hr⟩
      cases s with
      | ask => exact .inl hr
      | bid => exact .inr hr
  · refine List.nodup_append.2 ⟨(hasks.nodup hd).1, (hbids.nodup hd₁).1, ?_⟩
    rintro r hask _ hbid rfl
    have hside := hbids.side_of_mem hd₁ hbid
    rw [(hsame r).1, hasks.side_of_mem hd hask] at hside
    cases hside
  · exact fun s => (hbids.queue s).trans (hasks.queue s)
  · intro s k hk hclosed hnot
    rw [List.mem_append, not_or] at hnot
    refine hbids.mem_left (hasks.mem_left hk hclosed ?_) ((hsame k.order).2.1.trans hclosed) ?_
    · exact fun h => hnot.1 (List.mem_map_of_mem h)
    · exact fun h => hnot.2 (List.mem_map_of_mem h)
  · intro s k hk
    have hk₁ := Multiset.mem_of_le (hbids.stopLossQueue_le s) hk
    refine ⟨Multiset.mem_of_le (hasks.stopLossQueue_le s) hk₁, ?_⟩
    rw [List.mem_append, not_or]
    exact ⟨hasks.not_mem_of_left hd hk₁, hbids.not_mem_of_left hd₁ hk⟩
  · exact hbids.ledger.trans hasks.ledger
  · exact hbids.header.trans hasks.header

/-- What was picked joins the resting orders. -/
theorem Picked.fired {trade : Trade} {fired : List OrderRef} {d₁ : Desk (Recorded σ)}
    (h : Picked trade.price fired d d₁) (hjoined : Joined S fired d₁ d') :
    Fired S (some trade) fired d d' := by
  have hside : ∀ r, (d₁.order r).side = (d.order r).side := by
    intro r
    unfold Desk.order
    rw [h.office]
    exact (Office.follow_activatedAll _ _ r).side
  refine ⟨?_, h.nodup, h.office ▸ hjoined.orders, ?_, ?_, ?_, ?_, ?_, ?_, ?_, ?_, ?_⟩
  · intro r
    rw [h.mem]
    constructor
    · rintro ⟨s, hr⟩
      exact ⟨trade, s, rfl, hr⟩
    · rintro ⟨_, s, ⟨⟩, hr⟩
      exact ⟨s, hr⟩
  · intro r hr
    rw [hjoined.left r hr, ← h.office]
    rfl
  · rw [hjoined.fills, h.office, Office.backend_activatedAll]
  · rw [hjoined.reported, h.office, Office.backend_activatedAll]
  · intro s
    obtain ⟨new, hbag, hnew⟩ := hjoined.queue s
    refine ⟨new, by rw [hbag, h.queue], hnew.trans ?_⟩
    simp only [hside]
  · exact fun s hq => hjoined.ordered s (by rwa [h.queue])
  · intro s k hk hclosed hnot
    rw [hjoined.stopLossQueue]
    exact h.parked s k hk hclosed hnot
  · intro s k hk
    rw [hjoined.stopLossQueue] at hk
    exact h.dormant s k hk
  · exact hjoined.ledger.trans h.ledger
  · exact hjoined.header.trans h.header

/-- What fires after a trade, if there was one. -/
theorem fires_triggerAfter (hS : S.Faithful) {s : Logged (Desk (Recorded σ))} (hd : Parks s.state)
    (trade : Option Trade) :
    Ends (triggerAfter S.recorded trade) s
      (fun activated t => ∃ fired, activated = !fired.isEmpty ∧
        Fired S trade fired s.state t.state)
      (fun _ _ => S.Balks) := by
  cases trade with
  | none => exact ⟨[], rfl, fired_nil S s.state⟩
  | some trade =>
    simp only [triggerAfter, triggerStopLosses, ends_bind, ends_current, ends_pure]
    refine (draws_takeReached _ le_rfl).mono ?_ fun _ _ hf => hf.elim
    rintro _ t ⟨dropped, asks, rfl, hasks⟩
    refine (draws_takeReached _ le_rfl).mono ?_ fun _ _ hf => hf.elim
    rintro _ u ⟨dropped', bids, rfl, hbids⟩
    refine (joins_promoteAll hS).imp ?_
    exact fun _ v hjoined => ⟨_, rfl, (hasks.picked hd hbids).fired hjoined⟩

end Desk

end Bourse
