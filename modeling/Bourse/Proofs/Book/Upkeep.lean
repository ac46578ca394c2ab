import Bourse.Proofs.Book.Trigger

/-!
# What matching keeps up

`Upkeep known Inv Broken` says what is to be shown of the single things matching does to office and
ledger, so that `Inv` is kept by all of it. What they have in common is shown here once: the queues
stay sound, nothing is taken back (`Desk.Onward`), and queues lose no order that is open
(`Desk.Sheds`). If matching breaks off, then by an overflow of depth, and with `Broken`
(`Desk.BrokenOff`).

`Inv` knows the order that is being matched, if there is one: it is not in a queue and not shown.
-/

namespace Bourse.Desk

open Bourse.Action

variable {s : Logged (Desk Simulated)} {d d' d'' : Desk Simulated} {side : Side}
  {ask bid r : OrderRef} {known : OrderRef → Prop}

/-! ## Queues that lose orders -/

/-- The queues of resting orders lost some that are no longer open, and nothing else changed. -/
def Sheds (d d' : Desk Simulated) : Prop :=
  ∀ s, ∃ gone, (d.book.queue s).bag = gone + (d'.book.queue s).bag ∧
    ∀ i ∈ gone, (d'.order i.order).isOpen = false

/-- Queues that did not change lost nothing. -/
theorem Sheds.of_queue (h : ∀ s, d'.book.queue s = d.book.queue s) : Sheds d d' := fun s =>
  ⟨0, by rw [h, zero_add], fun _ hi => absurd hi (Multiset.notMem_zero _)⟩

theorem Sheds.trans (h : Sheds d d') (h' : Sheds d' d'') (hon : Onward d' d'') : Sheds d d'' := by
  intro s
  obtain ⟨gone, hbag, hgone⟩ := h s
  obtain ⟨gone', hbag', hgone'⟩ := h' s
  refine ⟨gone + gone', by rw [hbag, hbag', add_assoc], ?_⟩
  intro i hi
  rcases Multiset.mem_add.1 hi with hi | hi
  · exact (hon.orders i.order).not_isOpen (hgone i hi)
  · exact hgone' i hi

/-- An open order is still queued. -/
theorem Sheds.mem_bag (h : Sheds d d') {s : Side} {i : Item} (hi : i ∈ (d.book.queue s).bag)
    (ho : (d'.order i.order).isOpen = true) : i ∈ (d'.book.queue s).bag := by
  obtain ⟨gone, hbag, hgone⟩ := h s
  rcases Multiset.mem_add.1 (hbag ▸ hi) with hi | hi
  · exact absurd ((hgone i hi).symm.trans ho) (by decide)
  · exact hi

/-- What is in a queue still was in it before. -/
theorem Sheds.mem_bag_of (h : Sheds d d') {s : Side} {i : Item}
    (hi : i ∈ (d'.book.queue s).bag) : i ∈ (d.book.queue s).bag := by
  obtain ⟨gone, hbag, _⟩ := h s
  exact hbag ▸ Multiset.mem_add.2 (.inr hi)

/-- A search that puts back what it set aside drops orders that are not open. -/
theorem Searched.sheds {exclude : Option UserId} {dropped : Multiset Item} {aside : List Item}
    (h : Searched side exclude d d' dropped aside) : Sheds d (d'.withItems side aside) := by
  intro s
  by_cases hs : side = s
  · subst hs
    refine ⟨dropped, ?_, ?_⟩
    · rw [bag_withItems, h.bag, add_assoc]
    · intro i hi
      show (d'.order i.order).isOpen = false
      rw [h.order]
      exact h.dropped i hi
  · refine ⟨0, ?_, fun _ hi => absurd hi (Multiset.notMem_zero _)⟩
    rw [queue_withItems, if_neg hs, h.queue_of_ne hs, zero_add]

/-- The queues lost orders at most, and no stop-loss became active. -/
structure Thinned (d d' : Desk Simulated) : Prop where
  queue : ∀ s, (d'.book.queue s).bag ≤ (d.book.queue s).bag
  dormant : ∀ s, (d'.book.stopLossQueue s).bag ≤ (d.book.stopLossQueue s).bag
  activated : d'.office.backend.activated = d.office.backend.activated

theorem Thinned.trans (h : Thinned d d') (h' : Thinned d' d'') : Thinned d d'' where
  queue s := (h'.queue s).trans (h.queue s)
  dormant s := (h'.dormant s).trans (h.dormant s)
  activated := h'.activated.trans h.activated

/-- The same orders in the same queues. -/
theorem Thinned.of_queues (hqueue : ∀ s, d'.book.queue s = d.book.queue s)
    (hdormant : ∀ s, d'.book.stopLossQueue s = d.book.stopLossQueue s)
    (hactivated : d'.office.backend.activated = d.office.backend.activated) : Thinned d d' :=
  ⟨fun s => (congrArg Queue.bag (hqueue s)).le, fun s => (congrArg Queue.bag (hdormant s)).le,
    hactivated⟩

/-- Queues that lost closed orders lost orders. -/
theorem Sheds.thinned (h : Sheds d d')
    (hdormant : ∀ s, d'.book.stopLossQueue s = d.book.stopLossQueue s)
    (hactivated : d'.office.backend.activated = d.office.backend.activated) : Thinned d d' where
  queue s := by
    obtain ⟨gone, hbag, -⟩ := h s
    exact hbag ▸ Multiset.le_add_left _ _
  dormant s := (congrArg Queue.bag (hdormant s)).le
  activated := hactivated

/-- A search takes orders off a queue and activates none. -/
theorem Searched.thinned {exclude : Option UserId} {dropped : Multiset Item} {aside : List Item}
    (h : Searched side exclude d d' dropped aside) : Thinned d d' where
  queue s := by
    by_cases hs : side = s
    · subst hs
      exact h.bag ▸ Multiset.le_add_left _ _
    · exact (congrArg Queue.bag (h.queue_of_ne hs)).le
  dormant s := (congrArg Queue.bag (h.stopLossQueue s)).le
  activated := h.office ▸ rfl

/-! ## Taking finished orders out -/

/-- The book without the first order of a queue, if that one is closed. -/
def popClosed (d : Desk Simulated) (side : Side) (r : OrderRef) : Desk Simulated :=
  if (d.order r).closed then d.withoutHead side d.book.ledger else d

section

variable (d : Desk Simulated) (side : Side) (r : OrderRef)

@[simp] theorem office_popClosed : (d.popClosed side r).office = d.office := by
  unfold popClosed
  split <;> rfl

@[simp] theorem order_popClosed : (d.popClosed side r).order = d.order := by
  unfold Desk.order
  rw [office_popClosed]

@[simp] theorem ledger_popClosed : (d.popClosed side r).book.ledger = d.book.ledger := by
  unfold popClosed
  split <;> rfl

@[simp] theorem lastPrice_popClosed : (d.popClosed side r).book.lastPrice = d.book.lastPrice := by
  unfold popClosed
  split
  · exact lastPrice_withoutHead ..
  · rfl

@[simp] theorem stopLossQueue_popClosed (s : Side) :
    (d.popClosed side r).book.stopLossQueue s = d.book.stopLossQueue s := by
  unfold popClosed
  split
  · exact stopLossQueue_withoutHead ..
  · rfl

/-- Popping a finished order leads onward. -/
theorem onward_popClosed : Onward d (d.popClosed side r) := by
  unfold popClosed
  split
  · exact onward_withoutHead ..
  · exact .refl d

/-- The queue of the other side stays. -/
theorem queue_popClosed_of_ne {s : Side} (hs : side ≠ s) :
    (d.popClosed side r).book.queue s = d.book.queue s := by
  unfold popClosed
  split
  · exact queue_withoutHead_of_ne d side _ hs
  · rfl

end

section

variable {i : Item} (hi : (d.book.queue side).headItem? = some i)

include hi

/-- Queues stay sound when a finished order is popped. -/
theorem Sound.popClosed (hd : Sound known d) : Sound known (d.popClosed side i.order) := by
  unfold Desk.popClosed
  split
  · exact hd.withoutHead hi _
  · exact hd

/-- A finished order that is popped is one item less. -/
theorem itemCount_popClosed : (d.popClosed side i.order).book.itemCount +
    (if (d.order i.order).closed then 1 else 0) = d.book.itemCount := by
  unfold popClosed
  split
  · exact itemCount_withoutHead hi _
  · rfl

/-- Nothing but orders that are not open is popped. -/
theorem bag_popClosed : ∃ gone, (d.book.queue side).bag =
    gone + ((d.popClosed side i.order).book.queue side).bag ∧
    ∀ j ∈ gone, (d.order j.order).isOpen = false := by
  unfold popClosed
  split
  · next hc =>
    refine ⟨{i}, by rw [bag_withoutHead hi, Multiset.singleton_add], ?_⟩
    intro j hj
    rw [Multiset.mem_singleton.1 hj, Order.isOpen, hc]
    rfl
  · exact ⟨0, (zero_add _).symm, fun _ hj => absurd hj (Multiset.notMem_zero _)⟩

/-- Taking a first order out if it is finished, and going on. -/
theorem ends_popClosed {α : Type} (next : Action (Desk Simulated) α) (j : Array Event)
    (Q : α → Logged (Desk Simulated) → Prop) (E : Failure → Logged (Desk Simulated) → Prop) :
    Ends (if (d.order i.order).closed then popResting side i.order >>= fun _ => next else next)
      ⟨d, j⟩ Q E ↔ Ends next ⟨d.popClosed side i.order, j⟩ Q E := by
  unfold popClosed
  split
  · rw [ends_bind]
    exact ends_popResting (s := ⟨d, j⟩) hi rfl
  · rfl

end

/-! ## After a match step -/

section

variable (d : Desk Simulated) (ask bid : OrderRef) (l : Ledger)

@[simp] theorem queue_dealt (s : Side) : (d.dealt ask bid l).book.queue s = d.book.queue s :=
  Book.queue_withLastPrice ..

@[simp] theorem stopLossQueue_dealt (s : Side) :
    (d.dealt ask bid l).book.stopLossQueue s = d.book.stopLossQueue s :=
  Book.stopLossQueue_withLastPrice ..

/-- Dealing with a pair leaves as many items. -/
theorem itemCount_dealt : (d.dealt ask bid l).book.itemCount = d.book.itemCount := rfl

end

/-- A step of the office takes nothing back. -/
theorem onward_of_dealt (hne : ask ≠ bid) {p price : Price} {l : Ledger} : Onward d
    { office := d.office.dealt ask bid price
      book := { d.book with lastPrice := p, ledger := l } } :=
  ⟨Office.follow_dealt hne, ⟨_, Office.trades_dealt.symm⟩,
    Office.activated_dealt.symm ▸ List.prefix_rfl, Office.rejected_dealt, rfl⟩

/-- A step of the office leaves the queues as they are. -/
theorem thinned_of_dealt {p price : Price} {l : Ledger} : Thinned d
    { office := d.office.dealt ask bid price
      book := { d.book with lastPrice := p, ledger := l } } :=
  .of_queues (fun _ => Book.queue_withLastPrice ..) (fun _ => Book.stopLossQueue_withLastPrice ..)
    Office.activated_dealt

/-- Dealing with a pair leads onward. -/
theorem onward_dealt (hne : ask ≠ bid) {l : Ledger} : Onward d (d.dealt ask bid l) :=
  onward_of_dealt hne

/-- Queues stay sound as a pair is dealt with, whatever becomes of the ledger. -/
theorem Sound.of_dealt (hd : Sound known d) (hne : ask ≠ bid) {p price : Price} {l : Ledger} :
    Sound known { office := d.office.dealt ask bid price
                  book := { d.book with lastPrice := p, ledger := l } } :=
  hd.congr (fun _ => Book.queue_withLastPrice ..) (fun _ => Book.stopLossQueue_withLastPrice ..)
    (Office.follow_dealt hne)

/-- Queues stay sound as a pair is dealt with. -/
theorem Sound.dealt (hd : Sound known d) (hne : ask ≠ bid) {l : Ledger} :
    Sound known (d.dealt ask bid l) := hd.of_dealt hne

/-! ## Upkeep -/

/-- The order that is being matched, by its side in a pair. -/
def incomingOf (incoming : Option Side) (ask bid : OrderRef) : Option OrderRef :=
  match incoming with
  | none => none
  | some .ask => some ask
  | some .bid => some bid

/-- What is to be shown of single steps, so that matching keeps `Inv` and breaks off with
`Broken`. -/
structure Upkeep (known : OrderRef → Prop)
    (Inv : Option OrderRef → Office Simulated → Ledger → Prop)
    (Broken : Office Simulated → Prop) : Prop where
  /-- An order that is no longer open is dropped. -/
  drop : ∀ inc r o l j, known r → (o.orders.get r).isOpen = false → Inv inc o l →
    Ends (Ledger.withdraw (o.orders.get r).id) ⟨l, j⟩ (fun _ t => Inv inc o t.state)
      (fun f _ => f.IsOverflow ∧ Broken o)
  /-- An open pair is settled. -/
  settle : ∀ incoming ask bid price o l j, known ask → known bid →
    (o.orders.get ask).side = .ask → (o.orders.get bid).side = .bid →
    (o.orders.get ask).isOpen = true → (o.orders.get bid).isOpen = true →
    (o.orders.get ask).type ≠ .stopLoss → (o.orders.get bid).type ≠ .stopLoss →
    Inv (incomingOf incoming ask bid) o l →
    Ends (Ledger.settlePair (o.orders.get ask).id (o.orders.get bid).id
      (Simulated.outcome o ask bid price) incoming) ⟨l, j⟩
      (fun _ t => Inv (incomingOf incoming ask bid) (o.dealt ask bid price) t.state)
      (fun f _ => f.IsOverflow ∧ Broken (o.dealt ask bid price))
  /-- A stop-loss becomes active. -/
  fires : ∀ inc, Fires known (Inv inc)
  /-- What is left of an incoming order rests. -/
  rest : ∀ r o l j, known r → (o.orders.get r).isOpen = true → Inv (some r) o l →
    Ends (Ledger.add (o.orders.get r)) ⟨l, j⟩ (fun _ t => Inv none o t.state)
      (fun f _ => f.IsOverflow ∧ Broken o)
  /-- Nothing is left of an incoming order. -/
  finish : ∀ r o l, known r → (o.orders.get r).isOpen = false → Inv (some r) o l → Inv none o l

/-- Matching broke off: by an overflow of depth, between two sound states of the queues. -/
structure BrokenOff (known : OrderRef → Prop) (Broken : Office Simulated → Prop)
    (d : Desk Simulated) (f : Failure) (d' : Desk Simulated) : Prop where
  overflow : f.IsOverflow
  onward : Onward d d'
  sound : Sound known d'
  broken : Broken d'.office

/-- What broke off after going onward broke off on the way. -/
theorem BrokenOff.after {Broken : Office Simulated → Prop} {f : Failure} (hon : Onward d d')
    (h : BrokenOff known Broken d' f d'') : BrokenOff known Broken d f d'' :=
  ⟨h.overflow, hon.trans h.onward, h.sound, h.broken⟩

/-- Nothing but an overflow of depth breaks matching off. -/
theorem upkeep_true (known : OrderRef → Prop) :
    Upkeep known (fun _ _ _ => True) (fun _ => True) where
  drop _ _ _ _ _ _ _ _ :=
    Ledger.breaks_withdraw.mono (fun _ _ _ => trivial) fun _ _ hf => ⟨hf, trivial⟩
  settle _ _ _ _ _ _ _ _ _ _ _ _ _ _ _ _ :=
    Ledger.breaks_settlePair.mono (fun _ _ _ => trivial) fun _ _ hf => ⟨hf, trivial⟩
  fires _ := ⟨fun _ _ _ _ _ => trivial, fun _ _ _ _ _ => trivial⟩
  rest _ _ _ _ _ _ _ := Ledger.breaks_add.mono (fun _ _ _ => trivial) fun _ _ hf => ⟨hf, trivial⟩
  finish _ _ _ _ _ _ := trivial

namespace Upkeep

variable {Inv : Option OrderRef → Office Simulated → Ledger → Prop}
  {Broken : Office Simulated → Prop} {inc : Option OrderRef}

/-- What is kept up is kept as closed orders are dropped. -/
theorem drops (up : Upkeep known Inv Broken) (hd : Sound known d) (inc : Option OrderRef)
    (side : Side) : Drops d side (Inv inc d.office) (Broken d.office) := fun i hi ho l j hl =>
  up.drop inc i.order d.office l j (hd.resting side i hi).known ho hl

end Upkeep

end Bourse.Desk
