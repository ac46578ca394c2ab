import Bourse.Proofs.Book.Trade
import Bourse.Proofs.Queue.Snapshot

/-!
# Stop-losses that a trade reaches

`takeReached` empties the front of a queue of dormant stop-losses: closed ones are dropped, reached
ones are taken and activated, and it stops at the first that is neither (`Reached`). The taken ones
then join the resting orders (`ends_promote`). So all that comes into a queue of resting orders was
dormant before, and is shown as it is then (`TakesIn`).

`Triggered` puts this together for both sides. If no stop-loss that waits and is not closed is
reached by the price then none fires, and all that happens is that closed ones are dropped.
-/

namespace Bourse

/-! ## Triggers -/

namespace Order

variable {o o' : Order} {p : Price}

/-- An order is reached by the same prices as it is filled and closed. -/
theorem Follows.isReachedBy (h : o.Follows o') (p : Price) :
    o'.isReachedBy p = o.isReachedBy p := by
  unfold Order.isReachedBy
  rw [h.side, h.price]

/-- A trade at the price reaches the trigger of the stop-loss: at or below it if it sells, at or
above it if it buys. -/
def ReachedAt (o : Order) (p : Price) : Prop :=
  match o.side with
  | .ask => p ≤ o.price
  | .bid => o.price ≤ p

/-- The check of a price decides whether it reaches the order. -/
theorem isReachedBy_iff : o.isReachedBy p = true ↔ o.ReachedAt p := by
  unfold isReachedBy ReachedAt
  cases o.side <;> exact decide_eq_true_iff

/-- Whether a price reaches an order stays as it is filled and closed. -/
theorem Follows.reachedAt (h : o.Follows o') : o'.ReachedAt p ↔ o.ReachedAt p := by
  rw [← isReachedBy_iff, ← isReachedBy_iff, h.isReachedBy]

end Order

/-- A price that does not reach the trigger of an item reaches none that the item outranks. -/
theorem not_reachedAt_of_isLE {side : Side} {i j : Item} {o o' : Order} {p : Price}
    (hle : (rank (.ofStopLoss side) i j).isLE) (hi : i.type = .stopLoss) (hj : j.type = .stopLoss)
    (ho : o.side = side ∧ i.price = o.price) (ho' : o'.side = side ∧ j.price = o'.price)
    (h : ¬ o'.ReachedAt p) : ¬ o.ReachedAt p := by
  have hmarket : ∀ {k : Item}, k.type = .stopLoss → k.isMarket = false := fun hk => by
    rw [Item.isMarket, hk]
    rfl
  have hworth := worth_le_of_isLE hle (hmarket hi) (hmarket hj)
  rw [ho.2, ho'.2] at hworth
  unfold Order.ReachedAt at *
  rw [ho.1]
  rw [ho'.1] at h
  cases side
  · exact fun hp => h (Price.le_def.2 ((Price.le_def.1 hp).trans hworth))
  · exact fun hp => h (Price.le_def.2 ((Int.neg_le_neg_iff.1 hworth).trans (Price.le_def.1 hp)))

/-- If the first stop-loss of a queue is not reached then none of it is. -/
theorem not_reachedAt_of_head (os : Orders) {q : Queue} {side : Side} {p : Price}
    (hq : q.Ordered (.ofStopLoss side)) (htrue : ∀ i ∈ q.bag, (os.get i.order).side = side ∧
      i.type = .stopLoss ∧ i.price = (os.get i.order).price)
    (hhead : ∀ i, q.headItem? = some i → (os.get i.order).isReachedBy p = false) :
    ∀ i ∈ q.bag, ¬ (os.get i.order).ReachedAt p := by
  intro i hi
  cases hh : q.headItem? with
  | none => exact absurd (Queue.headItem?_eq_none.1 hh ▸ hi) (Multiset.notMem_zero i)
  | some j =>
    obtain ⟨hside, htype, hprice⟩ := htrue i hi
    obtain ⟨hjside, hjtype, hjprice⟩ := htrue j (Queue.mem_bag_of_headItem? hh)
    refine not_reachedAt_of_isLE (hq.isLE_head hh hi) htype hjtype ⟨hside, hprice⟩
      ⟨hjside, hjprice⟩ ?_
    rw [← Order.isReachedBy_iff, hhead j hh]
    exact Bool.false_ne_true

/-! ## Stop-losses that become active -/

/-- The office with a stop-loss activated. -/
def Office.activated {σ : Type} (o : Office σ) (r : OrderRef) : Office σ :=
  { o with orders := o.orders.modify r (·.activateStopLoss.2) }

/-- The office with the activation of a stop-loss noted. -/
def Office.noted (o : Office Simulated) (r : OrderRef) : Office Simulated :=
  { o with backend :=
    { o.backend with activated := o.backend.activated.push (o.orders.get r).id } }

namespace Desk

open Bourse.Action

variable {s : Logged (Desk Simulated)} {d d' d'' : Desk Simulated} {side : Side} {price : Price}
  {dropped dropped' : Multiset Item} {taken taken' : List Item} {known : OrderRef → Prop}
  {r : OrderRef}

/-- The front of a queue of dormant stop-losses was emptied of closed and reached ones. -/
structure Reached (side : Side) (price : Price) (d d' : Desk Simulated) (dropped : Multiset Item)
    (taken : List Item) : Prop where
  orders : d.office.orders.Follow d'.office.orders
  backend : d'.office.backend = d.office.backend
  book : d'.book = d.book.withStopLossQueue (d'.book.stopLossQueue side) side
  bag : (d.book.stopLossQueue side).bag = dropped + taken + (d'.book.stopLossQueue side).bag
  quiet : taken = [] → d'.office = d.office
  dropped : ∀ i ∈ dropped, (d'.order i.order).closed = true
  taken : ∀ i ∈ taken, (d.order i.order).closed = false ∧
    (d.order i.order).isReachedBy price = true ∧ (d'.order i.order).type ≠ .stopLoss

namespace Reached

theorem refl (side : Side) (price : Price) (d : Desk Simulated) : Reached side price d d 0 [] where
  orders := .refl _
  backend := rfl
  book := by cases side <;> rfl
  bag := by simp
  dropped _ h := absurd h (Multiset.notMem_zero _)
  taken _ h := absurd h List.not_mem_nil
  quiet _ := rfl

theorem trans (h : Reached side price d d' dropped taken)
    (h' : Reached side price d' d'' dropped' taken') :
    Reached side price d d'' (dropped + dropped') (taken ++ taken') where
  orders := h.orders.trans h'.orders
  backend := h'.backend.trans h.backend
  book := by
    rw [h'.book, h.book]
    cases side <;> rfl
  bag := by
    rw [h.bag, h'.bag, ← Multiset.coe_add]
    abel
  dropped i hi := by
    rcases Multiset.mem_add.1 hi with hi | hi
    · exact (h'.orders i.order).closed (h.dropped i hi)
    · exact h'.dropped i hi
  taken i hi := by
    rcases List.mem_append.1 hi with hi | hi
    · obtain ⟨hc, hr, ht⟩ := h.taken i hi
      exact ⟨hc, hr, (h'.orders i.order).type_ne ht⟩
    · obtain ⟨hc, hr, ht⟩ := h'.taken i hi
      refine ⟨?_, (h.orders i.order).isReachedBy price ▸ hr, ht⟩
      cases hc' : (d.order i.order).closed with
      | false => rfl
      | true => exact ((h.orders i.order).closed hc').symm.trans hc
  quiet ht := by
    rw [List.append_eq_nil_iff] at ht
    exact (h'.quiet ht.2).trans (h.quiet ht.1)

theorem queue (h : Reached side price d d' dropped taken) (s : Side) :
    d'.book.queue s = d.book.queue s := by
  rw [h.book, Book.queue_withStopLossQueue]

theorem ledger (h : Reached side price d d' dropped taken) : d'.book.ledger = d.book.ledger := by
  rw [h.book, Book.ledger_withStopLossQueue]

theorem lastPrice (h : Reached side price d d' dropped taken) :
    d'.book.lastPrice = d.book.lastPrice := by
  rw [h.book, Book.lastPrice_withStopLossQueue]

theorem stopLossQueue_of_ne (h : Reached side price d d' dropped taken) {s : Side}
    (hs : side ≠ s) : d'.book.stopLossQueue s = d.book.stopLossQueue s := by
  rw [h.book, Book.stopLossQueue_withStopLossQueue, if_neg hs]

/-- Activating stop-losses leads onward. -/
theorem onward (h : Reached side price d d' dropped taken) : Onward d d' where
  orders := h.orders
  trades := h.backend ▸ List.prefix_rfl
  activated := h.backend ▸ List.prefix_rfl
  rejected := h.backend ▸ rfl
  phase := by rw [h.book, Book.phase_withStopLossQueue]

/-- Activating stop-losses makes no trade. -/
theorem trades (h : Reached side price d d' dropped taken) : d'.trades = d.trades := by
  unfold Desk.trades
  rw [h.backend]

/-- A stop-loss of the queue was dropped, taken, or stayed. -/
theorem mem_bag (h : Reached side price d d' dropped taken) {i : Item} :
    i ∈ (d.book.stopLossQueue side).bag ↔
      i ∈ dropped ∨ i ∈ taken ∨ i ∈ (d'.book.stopLossQueue side).bag := by
  rw [h.bag, Multiset.mem_add, Multiset.mem_add, Multiset.mem_coe, or_assoc]

/-- What was taken and what is left were in the book before. -/
theorem itemCount (h : Reached side price d d' dropped taken) :
    d'.book.itemCount + taken.length ≤ d.book.itemCount := by
  have hcard := congrArg Multiset.card h.bag
  rw [Multiset.card_add, Multiset.card_add, Multiset.coe_card, Queue.card_bag, Queue.card_bag]
    at hcard
  rw [Book.itemCount_eq d'.book side, Book.itemCount_eq d.book side, h.queue, h.queue,
    h.stopLossQueue_of_ne side.opposite_ne.symm]
  omega

/-- Queues stay sound, and what was taken is known. -/
theorem sound (h : Reached side price d d' dropped taken) (hd : Sound known d) :
    Sound known d' ∧ ∀ i ∈ taken, known i.order := by
  refine ⟨⟨fun s => h.queue s ▸ hd.ordered s, ?_, ?_⟩, ?_⟩
  · intro s i hi
    exact (hd.resting s i (h.queue s ▸ hi)).follow h.orders
  · intro s i hi
    by_cases hs : side = s
    · subst hs
      exact hd.dormant side i (h.mem_bag.2 (.inr (.inr hi)))
    · exact hd.dormant s i (h.stopLossQueue_of_ne hs ▸ hi)
  · intro i hi
    exact hd.dormant side i (h.mem_bag.2 (.inr (.inl hi)))

end Reached

/-- The desk without the first dormant stop-loss of a side. -/
def withoutDormant {σ : Type} (d : Desk σ) (side : Side) : Desk σ :=
  { d with book := d.book.withStopLossQueue (d.book.stopLossQueue side).dropHead side }

/-- The queue of dormant stop-losses without its head. -/
theorem stopLossQueue_withoutDormant {σ : Type} (d : Desk σ) (side : Side) :
    (d.withoutDormant side).book.stopLossQueue side = (d.book.stopLossQueue side).dropHead := by
  cases side <;> rfl

/-- Without a dormant stop-loss there is one item less. -/
theorem itemCount_withoutDormant {σ : Type} {d : Desk σ} {i : Item}
    (hi : (d.book.stopLossQueue side).headItem? = some i) :
    (d.withoutDormant side).book.itemCount + 1 = d.book.itemCount := by
  have hcard := congrArg Multiset.card (Queue.bag_dropHead hi)
  rw [Multiset.card_cons, Queue.card_bag, Queue.card_bag] at hcard
  rw [Book.itemCount_eq _ side, Book.itemCount_eq d.book side, stopLossQueue_withoutDormant, hcard]
  unfold withoutDormant
  rw [Book.queue_withStopLossQueue, Book.queue_withStopLossQueue,
    Book.stopLossQueue_withStopLossQueue, if_neg side.opposite_ne.symm]
  omega

/-- A closed stop-loss in front is dropped. -/
theorem reached_drop {head : Item} (hh : (d.book.stopLossQueue side).headItem? = some head)
    (hc : (d.order head.order).closed = true) :
    Reached side price d (d.withoutDormant side) {head} [] where
  orders := .refl _
  backend := rfl
  book := by rw [stopLossQueue_withoutDormant]; rfl
  bag := by
    rw [stopLossQueue_withoutDormant, Queue.bag_dropHead hh, Multiset.coe_nil, add_zero,
      Multiset.singleton_add]
  dropped i hi := Multiset.mem_singleton.1 hi ▸ hc
  taken _ h := absurd h List.not_mem_nil
  quiet _ := rfl

/-- A reached stop-loss in front is taken. -/
theorem reached_take {head : Item} (hh : (d.book.stopLossQueue side).headItem? = some head)
    (hc : (d.order head.order).closed = false)
    (hr : (d.order head.order).isReachedBy price = true) :
    Reached side price d
      { d.withoutDormant side with office := d.office.activated head.order } 0 [head] where
  orders := Orders.follow_modify Order.follows_activateStopLoss
  backend := rfl
  book := by
    show _ = d.book.withStopLossQueue ((d.withoutDormant side).book.stopLossQueue side) side
    rw [stopLossQueue_withoutDormant]
    rfl
  bag := by
    show _ = _ + ((d.withoutDormant side).book.stopLossQueue side).bag
    rw [stopLossQueue_withoutDormant, Queue.bag_dropHead hh, zero_add, Multiset.coe_singleton,
      Multiset.singleton_add]
  dropped _ h := absurd h (Multiset.notMem_zero _)
  taken i hi := by
    cases List.mem_singleton.1 hi
    refine ⟨hc, hr, ?_⟩
    show ((d.office.orders.modify head.order _).get head.order).type ≠ _
    rw [Orders.get_modify, if_pos rfl]
    exact Order.type_activateStopLoss
  quiet h := absurd h (List.cons_ne_nil _ _)

/-- What can be said of office and ledger while stop-losses become active. -/
structure Fires (known : OrderRef → Prop) (Inv : Office Simulated → Ledger → Prop) : Prop where
  activate : ∀ r o l, known r → Inv o l → Inv (o.activated r) l
  note : ∀ r o l, known r → Inv o l → Inv (o.noted r) l

variable {Inv : Office Simulated → Ledger → Prop}

/-- Taking the stop-losses of a side that a price reaches. -/
theorem ends_takeReached (hfires : Fires known Inv) (n : Nat)
    (hn : (s.state.book.stopLossQueue side).size ≤ n)
    (hknown : ∀ i ∈ (s.state.book.stopLossQueue side).bag, known i.order)
    (hI : Inv s.state.office s.state.book.ledger) :
    Ends (takeReached side price n) s
      (fun rs t => ∃ dropped taken, rs = taken.map (·.order) ∧
        Reached side price s.state t.state dropped taken ∧
        Inv t.state.office t.state.book.ledger)
      (fun _ _ => False) := by
  induction n generalizing s with
  | zero => exact ⟨0, [], rfl, .refl .., hI⟩
  | succ n ih =>
    simp only [takeReached, ends_bind, ends_current, Queue.popIf]
    cases hh : (s.state.book.stopLossQueue side).headItem? with
    | none => exact ⟨0, [], rfl, .refl .., hI⟩
    | some head =>
      have hmem := Queue.mem_bag_of_headItem? hh
      have hsize : (s.state.book.stopLossQueue side).dropHead.size ≤ n := by
        rw [Queue.size_dropHead]
        omega
      -- the rest of the queue, after its head was dropped or taken
      have hnext : ∀ (o : Office Simulated) (j : Array Event) (one : Multiset Item)
          (skip : List Item),
          Reached side price s.state { s.state.withoutDormant side with office := o } one skip →
          Inv o s.state.book.ledger →
          Ends (takeReached side price n) ⟨{ s.state.withoutDormant side with office := o }, j⟩
            (fun rs t => ∃ dropped taken, skip.map (·.order) ++ rs = taken.map (·.order) ∧
              Reached side price s.state t.state dropped taken ∧
              Inv t.state.office t.state.book.ledger)
            (fun _ _ => False) := by
        intro o j one skip hone ho
        refine (ih (s := ⟨{ s.state.withoutDormant side with office := o }, j⟩) ?_ ?_ ?_).imp ?_
        · exact stopLossQueue_withoutDormant s.state side ▸ hsize
        · exact fun i hi => hknown i (hone.mem_bag.2 (.inr (.inr hi)))
        · exact hone.ledger ▸ ho
        · rintro rs t ⟨dropped, taken, rfl, hr, hI⟩
          exact ⟨_, _, (List.map_append ..).symm, hone.trans hr, hI⟩
      by_cases hpop : ((s.state.order head.order).closed ||
          (s.state.order head.order).isReachedBy price) = true
      · simp only [hpop, if_true, ends_bind, ends_changeStopLossQueue]
        split
        · next hc =>
          simp only [ends_bind, ends_log]
          exact (hnext s.state.office _ _ _ (reached_drop hh hc) hI).imp
            (fun _ _ h => h)
        · next hc =>
          have hc : (s.state.order head.order).closed = false := by simpa using hc
          rw [hc, Bool.false_or] at hpop
          simp only [ends_bind, ends_onOffice, Office.onOrders, ends_within, ends_change]
          exact (hnext _ _ _ _ (reached_take hh hc hpop)
            (hfires.activate _ _ _ (hknown head hmem) hI)).imp (fun _ _ h => h)
      · simp only [hpop, Bool.false_eq_true, if_false]
        exact ⟨0, [], rfl, .refl .., hI⟩

/-- No order changed, and those that are new in the queues of resting orders are these, shown as
they are. -/
structure Promoted (rs : List OrderRef) (d d' : Desk Simulated) : Prop where
  orders : d'.office.orders = d.office.orders
  queue : ∀ s, ∀ i ∈ (d'.book.queue s).bag,
    i ∈ (d.book.queue s).bag ∨ ∃ r ∈ rs, i = .ofOrder r (d.order r)

/-- Those that are promoted in turn are new in the end. -/
theorem Promoted.cons {rs : List OrderRef} (h : Promoted [r] d d') (h' : Promoted rs d' d'') :
    Promoted (r :: rs) d d'' where
  orders := h'.orders.trans h.orders
  queue s i hi := by
    rcases h'.queue s i hi with hi | ⟨r', hr', rfl⟩
    · rcases h.queue s i hi with hi | ⟨r', hr', rfl⟩
      · exact .inl hi
      · exact .inr ⟨r', List.mem_cons.2 (.inl (List.mem_singleton.1 hr')), rfl⟩
    · unfold Desk.order
      rw [h.orders]
      exact .inr ⟨r', List.mem_cons_of_mem r hr', rfl⟩

/-- An activated stop-loss joins the resting orders of its side. -/
theorem ends_promote (hfires : Fires known Inv) (hd : Sound known s.state) (hr : known r)
    (ht : (s.state.order r).type ≠ .stopLoss) (hI : Inv s.state.office s.state.book.ledger) :
    Ends (promote Simulated.settlement price r) s
      (fun _ t => Onward s.state t.state ∧ Sound known t.state ∧
        Inv t.state.office t.state.book.ledger ∧ t.state.trades = s.state.trades ∧
        t.state.office.backend.activated.size = s.state.office.backend.activated.size + 1 ∧
        t.state.book.itemCount = s.state.book.itemCount + 1 ∧ Promoted [r] s.state t.state)
      (fun _ _ => False) := by
  simp only [promote, ends_bind, ends_current, ends_log, ends_onOffice]
  refine Simulated.ends_noteStopLoss.imp ?_
  intro _ t hnote
  rw [show t.state = s.state.office.noted r from hnote, ends_changeQueue]
  have hsound : Sound known
      (s.state.withItems (s.state.order r).side [.ofOrder r (s.state.order r)]) :=
    hd.withItems fun i hi => List.mem_singleton.1 hi ▸ rests_ofOrder hr ht
  refine ⟨⟨.refl _, List.prefix_rfl, ?_, rfl, Book.phase_withQueue ..⟩,
    ⟨hsound.ordered, hsound.resting, hsound.dormant⟩, ?_, rfl, Array.size_push _, ?_, rfl, ?_⟩
  · exact ⟨[(s.state.order r).id], Array.toList_push.symm⟩
  · show Inv _ (Book.withQueue ..).ledger
    rw [Book.ledger_withQueue]
    exact hfires.note r _ _ hr hI
  · exact itemCount_withItems s.state (s.state.order r).side [.ofOrder r (s.state.order r)]
  · intro s' i hi
    rw [Book.queue_withQueue] at hi
    split at hi
    · next hs =>
      rw [Queue.push, Queue.bag_pushItem, Multiset.mem_cons] at hi
      rcases hi with rfl | hi
      · exact .inr ⟨r, List.mem_singleton_self r, rfl⟩
      · exact .inl (hs ▸ hi)
    · exact .inl hi

/-- Activated stop-losses join the resting orders in turn. -/
theorem ends_promoteAll (hfires : Fires known Inv) {rs : List OrderRef} (hd : Sound known s.state)
    (hrs : ∀ r ∈ rs, known r ∧ (s.state.order r).type ≠ .stopLoss)
    (hI : Inv s.state.office s.state.book.ledger) :
    Ends (rs.forM (promote Simulated.settlement price)) s
      (fun _ t => Onward s.state t.state ∧ Sound known t.state ∧
        Inv t.state.office t.state.book.ledger ∧ t.state.trades = s.state.trades ∧
        t.state.office.backend.activated.size =
          s.state.office.backend.activated.size + rs.length ∧
        t.state.book.itemCount = s.state.book.itemCount + rs.length ∧
        (rs = [] → t.state = s.state) ∧ Promoted rs s.state t.state)
      (fun _ _ => False) := by
  induction rs generalizing s with
  | nil => exact ⟨.refl _, hd, hI, rfl, rfl, rfl, fun _ => rfl, rfl, fun _ _ hi => .inl hi⟩
  | cons r rest ih =>
    obtain ⟨hr, ht⟩ := hrs r List.mem_cons_self
    have hfirst : Ends (promote Simulated.settlement price r) s _ _ :=
      ends_promote hfires hd hr ht hI
    refine hfirst.bind ?_
    rintro _ t ⟨hon, hsound, hI', htrades, hsize, hcount, hfirst⟩
    refine (ih hsound ?_ hI').imp ?_
    · intro r' hr'
      obtain ⟨hk, ht'⟩ := hrs r' (List.mem_cons_of_mem _ hr')
      exact ⟨hk, (hon.orders r').type_ne ht'⟩
    · rintro _ u ⟨hon', hsound', hI'', htrades', hsize', hcount', -, hrest⟩
      refine ⟨hon.trans hon', hsound', hI'', htrades'.trans htrades, ?_, ?_, nofun,
        hfirst.cons hrest⟩
      · rw [hsize', hsize, List.length_cons]
        omega
      · rw [hcount', hcount, List.length_cons]
        omega

/-- Nothing but closed stop-losses left the book. -/
structure Quiet (d d' : Desk Simulated) : Prop where
  office : d'.office = d.office
  queue : ∀ s, d'.book.queue s = d.book.queue s
  ledger : d'.book.ledger = d.book.ledger
  lastPrice : d'.book.lastPrice = d.book.lastPrice
  dormant : ∀ s, ∃ dropped,
    (d.book.stopLossQueue s).bag = dropped + (d'.book.stopLossQueue s).bag ∧
    ∀ i ∈ dropped, (d.order i.order).closed = true

theorem Quiet.refl (d : Desk Simulated) : Quiet d d :=
  ⟨rfl, fun _ => rfl, rfl, rfl, fun _ => ⟨0, (zero_add _).symm, fun _ h =>
    absurd h (Multiset.notMem_zero _)⟩⟩

/-- The price reaches a stop-loss that waits and is not closed. -/
def ReachesDormant (d : Desk Simulated) (price : Price) : Prop :=
  ∃ s, ∃ i ∈ (d.book.stopLossQueue s).bag,
    (d.order i.order).closed = false ∧ (d.order i.order).isReachedBy price = true

namespace Reached

/-- What a price takes was dormant, and the price reaches it. -/
theorem reachesDormant_of_mem (h : Reached side price d d' dropped taken) {i : Item}
    (hi : i ∈ taken) : d.ReachesDormant price :=
  ⟨side, i, h.mem_bag.2 (.inr (.inl hi)), (h.taken i hi).1, (h.taken i hi).2.1⟩

/-- What a price reaches later it reached before. -/
theorem reachesDormant {p : Price} (h : Reached side price d d' dropped taken)
    (hr : d'.ReachesDormant p) : d.ReachesDormant p := by
  obtain ⟨s, i, hi, hc, hp⟩ := hr
  refine ⟨s, i, ?_, ?_, (h.orders i.order).isReachedBy p ▸ hp⟩
  · by_cases hs : side = s
    · subst hs
      exact h.mem_bag.2 (.inr (.inr hi))
    · exact h.stopLossQueue_of_ne hs ▸ hi
  · cases hc' : (d.order i.order).closed with
    | false => rfl
    | true => exact ((h.orders i.order).closed hc').symm.trans hc

/-- If none was taken on either side, nothing but closed stop-losses left the book. -/
theorem quiet_trans {p p' : Price} (h : Reached .ask p d d' dropped taken)
    (h' : Reached .bid p' d' d'' dropped' taken') (ht : taken = []) (ht' : taken' = []) :
    Quiet d d'' where
  office := (h'.quiet ht').trans (h.quiet ht)
  queue s := (h'.queue s).trans (h.queue s)
  ledger := h'.ledger.trans h.ledger
  lastPrice := h'.lastPrice.trans h.lastPrice
  dormant s := by
    subst ht ht'
    cases s with
    | ask =>
      refine ⟨dropped, ?_, ?_⟩
      · rw [h'.stopLossQueue_of_ne (by decide), h.bag, Multiset.coe_nil, add_zero]
      · intro i hi
        have := h.dropped i hi
        unfold Desk.order at *
        rwa [h.quiet rfl] at this
    | bid =>
      refine ⟨dropped', ?_, ?_⟩
      · rw [← h.stopLossQueue_of_ne (by decide), h'.bag, Multiset.coe_nil, add_zero]
      · intro i hi
        have := h'.dropped i hi
        unfold Desk.order at *
        rwa [h'.quiet rfl, h.quiet rfl] at this

end Reached

/-- An order waits in a queue of dormant stop-losses. -/
def Waits (d : Desk Simulated) (r : OrderRef) : Prop :=
  ∃ s, ∃ i ∈ (d.book.stopLossQueue s).bag, i.order = r

/-- What a queue of resting orders took in was dormant before, and is shown as it is now. -/
def TakesIn (d d' : Desk Simulated) : Prop :=
  ∀ s, ∀ i ∈ (d'.book.queue s).bag,
    i ∈ (d.book.queue s).bag ∨ d.Waits i.order ∧ i.Shows (d'.order i.order)

/-- Queues that lost orders before took in no other ones. -/
theorem TakesIn.after (h : TakesIn d' d'')
    (hqueue : ∀ s, ∀ i ∈ (d'.book.queue s).bag, i ∈ (d.book.queue s).bag)
    (hdormant : ∀ s, ∀ i ∈ (d'.book.stopLossQueue s).bag, i ∈ (d.book.stopLossQueue s).bag) :
    TakesIn d d'' := by
  intro s i hi
  rcases h s i hi with hi | ⟨⟨s', j, hj, heq⟩, hshows⟩
  · exact .inl (hqueue s i hi)
  · exact .inr ⟨⟨s', j, hdormant s' j hj, heq⟩, hshows⟩

/-- Stop-losses that were taken off the queues of both sides and promoted were dormant before. -/
theorem Reached.takesIn {p p' : Price} (h : Reached .ask p d d' dropped taken)
    (h' : Reached .bid p' d' d'' dropped' taken') {d₃ : Desk Simulated}
    (hpromoted : Promoted (taken.map (·.order) ++ taken'.map (·.order)) d'' d₃) :
    TakesIn d d₃ := by
  intro s i hi
  rcases hpromoted.queue s i hi with hi | ⟨r, hr, rfl⟩
  · rw [h'.queue, h.queue] at hi
    exact .inl hi
  have hshows : (Item.ofOrder r (d''.order r)).Shows (d₃.order r) := by
    unfold Desk.order
    rw [hpromoted.orders]
    exact Item.shows_ofOrder r _
  refine .inr ⟨?_, hshows⟩
  rcases List.mem_append.1 hr with hr | hr
  · obtain ⟨j, hj, rfl⟩ := List.mem_map.1 hr
    exact ⟨.ask, j, h.mem_bag.2 (.inr (.inl hj)), rfl⟩
  · obtain ⟨j, hj, rfl⟩ := List.mem_map.1 hr
    have hqueue : d'.book.stopLossQueue .bid = d.book.stopLossQueue .bid :=
      h.stopLossQueue_of_ne (by decide)
    exact ⟨.bid, j, hqueue ▸ h'.mem_bag.2 (.inr (.inl hj)), rfl⟩

/-- Stop-losses that a trade reaches became active: those that did are resting now. None did,
unless the trade reached one that was not closed. -/
structure Triggered (known : OrderRef → Prop) (trade : Option Trade) (d : Desk Simulated)
    (fired : Bool) (d' : Desk Simulated) : Prop where
  onward : Onward d d'
  sound : Sound known d'
  trades : d'.trades = d.trades
  itemCount : d'.book.itemCount ≤ d.book.itemCount
  quiet : fired = false → Quiet d d'
  activated : fired = true → d.office.backend.activated.size < d'.office.backend.activated.size
  reaches : fired = true → ∃ t, trade = some t ∧ d.ReachesDormant t.price
  takesIn : TakesIn d d'

/-- A trade price activates the stop-losses it reaches, and they join the resting orders. -/
theorem ends_triggerStopLosses {trade : Trade} (hfires : Fires known Inv)
    (hd : Sound known s.state) (hI : Inv s.state.office s.state.book.ledger) :
    Ends (triggerStopLosses Simulated.settlement trade.price) s
      (fun fired t => Triggered known (some trade) s.state fired t.state ∧
        Inv t.state.office t.state.book.ledger)
      (fun _ _ => False) := by
  simp only [triggerStopLosses, ends_bind, ends_current]
  refine (ends_takeReached hfires _ le_rfl (hd.dormant .ask) hI).imp ?_
  rintro _ t ⟨droppedAsks, asks, rfl, hasks, hI⟩
  obtain ⟨hd', hknownAsks⟩ := hasks.sound hd
  refine (ends_takeReached hfires _ le_rfl (hd'.dormant .bid) hI).imp ?_
  rintro _ u ⟨droppedBids, bids, rfl, hbids, hI⟩
  obtain ⟨hd'', hknownBids⟩ := hbids.sound hd'
  have hreached : ∀ r ∈ asks.map (·.order) ++ bids.map (·.order),
      known r ∧ (u.state.order r).type ≠ .stopLoss := by
    intro r hr
    rcases List.mem_append.1 hr with hr | hr
    · obtain ⟨i, hi, rfl⟩ := List.mem_map.1 hr
      exact ⟨hknownAsks i hi, (hbids.orders i.order).type_ne (hasks.taken i hi).2.2⟩
    · obtain ⟨i, hi, rfl⟩ := List.mem_map.1 hr
      exact ⟨hknownBids i hi, (hbids.taken i hi).2.2⟩
  refine (ends_promoteAll hfires hd'' hreached hI).imp ?_
  intro _ v hv
  obtain ⟨hon, hsound, hI, htrades, hsize, hcount, hnone, hpromoted⟩ := hv
  rw [ends_pure]
  refine ⟨⟨hasks.onward.trans (hbids.onward.trans hon), hsound,
    htrades.trans (hbids.trades.trans hasks.trades), ?_, ?_, ?_, ?_,
    hasks.takesIn hbids hpromoted⟩, hI⟩
  · have hcountAsks := hasks.itemCount
    have hcountBids := hbids.itemCount
    rw [List.length_append, List.length_map, List.length_map] at hcount
    omega
  · intro hf
    have hempty : asks.map (·.order) ++ bids.map (·.order) = [] := by simpa using hf
    rw [hnone hempty]
    simp only [List.append_eq_nil_iff, List.map_eq_nil_iff] at hempty
    exact hasks.quiet_trans hbids hempty.1 hempty.2
  · intro hf
    have hpos : asks.map (·.order) ++ bids.map (·.order) ≠ [] := by simpa using hf
    have hpos := List.length_pos_of_ne_nil hpos
    rw [hbids.backend, hasks.backend] at hsize
    omega
  · intro hf
    refine ⟨trade, rfl, ?_⟩
    rcases List.eq_nil_or_concat' asks with rfl | ⟨_, i, rfl⟩
    · rcases List.eq_nil_or_concat' bids with rfl | ⟨_, i, rfl⟩
      · simp at hf
      · exact hasks.reachesDormant (hbids.reachesDormant_of_mem (i := i) (by simp))
    · exact hasks.reachesDormant_of_mem (i := i) (by simp)

/-- Activating the stop-losses that a trade reaches, if there was a trade. -/
theorem ends_triggerAfter {trade : Option Trade} (hfires : Fires known Inv)
    (hd : Sound known s.state) (hI : Inv s.state.office s.state.book.ledger) :
    Ends (triggerAfter Simulated.settlement trade) s
      (fun fired t => Triggered known trade s.state fired t.state ∧
        Inv t.state.office t.state.book.ledger)
      (fun _ _ => False) := by
  cases trade with
  | none =>
    exact ⟨⟨.refl _, hd, rfl, le_rfl, fun _ => .refl _, nofun, nofun, fun _ _ hi => .inl hi⟩, hI⟩
  | some t => exact ends_triggerStopLosses hfires hd hI

end Desk

end Bourse
