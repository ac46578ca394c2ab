import Bourse.Book.Matching
import Bourse.Proofs.Book.Desk
import Bourse.Proofs.Ledger
import Mathlib.Algebra.Order.Group.Multiset
import Mathlib.Tactic.Abel

/-!
# Looking for the best order of a side

`findTop` takes orders off the front of a queue until it meets one that is open and not of the
excluded user. `Searched` says what it did: the items of the queue are now those that were dropped,
all no longer open, those that were set aside, all of the excluded user, and those still queued.
What it found heads the queue (`Heads`), so it is the best of all that were eligible
(`Searched.best`).

`restore` puts back what was set aside.
-/

namespace Bourse.Desk

open Bourse.Action

variable {σ : Type} {s : Logged (Desk σ)} {d d' d'' : Desk σ} {side : Side}
  {exclude : Option UserId} {dropped dropped' : Multiset Item} {aside aside' : List Item}
  {known : OrderRef → Prop}

/-- The order can be matched with one of the excluded user. -/
def Eligible (exclude : Option UserId) (o : Order) : Prop :=
  o.isOpen = true ∧ exclude ≠ some o.user

/-- A search went over the front of the queue of a side. -/
structure Searched (side : Side) (exclude : Option UserId) (d d' : Desk σ)
    (dropped : Multiset Item) (aside : List Item) : Prop where
  office : d'.office = d.office
  book : d'.book =
    { d.book.withQueue (d'.book.queue side) side with ledger := d'.book.ledger }
  bag : (d.book.queue side).bag = dropped + aside + (d'.book.queue side).bag
  ordered : (d.book.queue side).Ordered (.ofResting side) →
    (d'.book.queue side).Ordered (.ofResting side)
  dropped : ∀ i ∈ dropped, (d.order i.order).isOpen = false
  aside : ∀ i ∈ aside, (d.order i.order).isOpen = true ∧ exclude = some (d.order i.order).user

/-- What a search found heads the queue of the side; if it found nothing the queue is empty. -/
def Heads (side : Side) (exclude : Option UserId) (d : Desk σ) : Option OrderRef → Prop
  | none => (d.book.queue side).bag = 0
  | some r => ∃ i, (d.book.queue side).headItem? = some i ∧ i.order = r ∧
      Eligible exclude (d.order r)

namespace Searched

theorem refl (side : Side) (exclude : Option UserId) (d : Desk σ) :
    Searched side exclude d d 0 [] where
  office := rfl
  book := by cases side <;> rfl
  bag := by simp
  ordered := id
  dropped _ h := absurd h (Multiset.notMem_zero _)
  aside _ h := absurd h List.not_mem_nil

/-- A search changes no order. -/
theorem order (h : Searched side exclude d d' dropped aside) (r : OrderRef) :
    d'.order r = d.order r := by
  unfold Desk.order
  rw [h.office]

theorem trans (h : Searched side exclude d d' dropped aside)
    (h' : Searched side exclude d' d'' dropped' aside') :
    Searched side exclude d d'' (dropped + dropped') (aside ++ aside') where
  office := h'.office.trans h.office
  book := by
    rw [h'.book, h.book]
    cases side <;> rfl
  bag := by
    rw [h.bag, h'.bag, ← Multiset.coe_add]
    abel
  ordered hq := h'.ordered (h.ordered hq)
  dropped i hi := by
    rcases Multiset.mem_add.1 hi with hi | hi
    · exact h.dropped i hi
    · exact h.order i.order ▸ h'.dropped i hi
  aside i hi := by
    rcases List.mem_append.1 hi with hi | hi
    · exact h.aside i hi
    · exact h.order i.order ▸ h'.aside i hi

theorem queue_of_ne (h : Searched side exclude d d' dropped aside) {s : Side} (hs : side ≠ s) :
    d'.book.queue s = d.book.queue s := by
  rw [h.book, Book.queue_withLedger, Book.queue_withQueue, if_neg hs]

theorem stopLossQueue (h : Searched side exclude d d' dropped aside) (s : Side) :
    d'.book.stopLossQueue s = d.book.stopLossQueue s := by
  rw [h.book, Book.stopLossQueue_withLedger, Book.stopLossQueue_withQueue]

theorem lastPrice (h : Searched side exclude d d' dropped aside) :
    d'.book.lastPrice = d.book.lastPrice := by
  rw [h.book]
  exact Book.lastPrice_withQueue ..

theorem phase (h : Searched side exclude d d' dropped aside) :
    d'.book.phase = d.book.phase := by
  rw [h.book]
  exact Book.phase_withQueue ..

/-- A search leads onward. -/
theorem onward {d d' : Desk Simulated} (h : Searched side exclude d d' dropped aside) :
    Onward d d' :=
  .of_office h.office h.phase

/-- What was in the queue was dropped, set aside, or is in it still. -/
theorem mem_bag (h : Searched side exclude d d' dropped aside) {i : Item} :
    i ∈ (d.book.queue side).bag ↔ i ∈ dropped ∨ i ∈ aside ∨ i ∈ (d'.book.queue side).bag := by
  rw [h.bag, Multiset.mem_add, Multiset.mem_add, Multiset.mem_coe, or_assoc]

/-- A search that excludes nobody sets nothing aside. -/
theorem aside_eq_nil (h : Searched side none d d' dropped aside) : aside = [] := by
  cases aside with
  | nil => rfl
  | cons i rest => exact absurd (h.aside i List.mem_cons_self).2 nofun

/-- What is in the queues and what was set aside were in the queues before. -/
theorem itemCount (h : Searched side exclude d d' dropped aside) :
    d'.book.itemCount + aside.length ≤ d.book.itemCount := by
  rw [Book.itemCount_eq d'.book side, Book.itemCount_eq d.book side, h.stopLossQueue,
    h.stopLossQueue, h.queue_of_ne side.opposite_ne.symm]
  have hcard := congrArg Multiset.card h.bag
  rw [Multiset.card_add, Multiset.card_add, Multiset.coe_card, Queue.card_bag,
    Queue.card_bag] at hcard
  omega

/-- After a search the book is as sound as before, and so are the items that were set aside. -/
theorem sound (h : Searched side exclude d d' dropped aside) (hd : Sound known d) :
    Sound known d' ∧ ∀ i ∈ aside, Rests known d'.office.orders side i := by
  refine ⟨⟨?_, ?_, ?_⟩, ?_⟩
  · intro s
    by_cases hs : side = s
    · subst hs
      exact h.ordered (hd.ordered side)
    · rw [h.queue_of_ne hs]
      exact hd.ordered s
  · intro s i hi
    rw [h.office]
    by_cases hs : side = s
    · subst hs
      exact hd.resting side i (h.mem_bag.2 (.inr (.inr hi)))
    · exact hd.resting s i (h.queue_of_ne hs ▸ hi)
  · intro s i hi
    exact hd.dormant s i (h.stopLossQueue s ▸ hi)
  · intro i hi
    rw [h.office]
    exact hd.resting side i (h.mem_bag.2 (.inr (.inl hi)))

/-- A search takes no eligible order off its queue. -/
theorem mem_bag_of_eligible (h : Searched side exclude d d' dropped aside) {j : Item}
    (hj : j ∈ (d.book.queue side).bag) (he : Eligible exclude (d.order j.order)) :
    j ∈ (d'.book.queue side).bag := by
  rcases h.mem_bag.1 hj with hj | hj | hj
  · exact absurd (he.1.symm.trans (h.dropped j hj)) (by decide)
  · exact absurd (h.aside j hj).2 he.2
  · exact hj

end Searched

/-- The item is eligible, and no other eligible one of the queue outranks it. -/
structure Best (side : Side) (exclude : Option UserId) (d : Desk σ) (i : Item) : Prop where
  mem : i ∈ (d.book.queue side).bag
  eligible : Eligible exclude (d.order i.order)
  isLE : ∀ j ∈ (d.book.queue side).bag, Eligible exclude (d.order j.order) →
    (rank (.ofResting side) j i).isLE

/-- What a search found is the best of the side. -/
theorem Searched.best (h : Searched side exclude d d' dropped aside)
    (hd : Sound known d) {i : Item} (hi : (d'.book.queue side).headItem? = some i)
    (he : Eligible exclude (d'.order i.order)) : Best side exclude d i where
  mem := h.mem_bag.2 (.inr (.inr (Queue.mem_bag_of_headItem? hi)))
  eligible := h.order i.order ▸ he
  isLE _ hj hej := (h.ordered (hd.ordered side)).isLE_head hi (h.mem_bag_of_eligible hj hej)

/-- If a search found nothing then no order of the side is eligible. -/
theorem Searched.not_eligible (h : Searched side exclude d d' dropped aside)
    (hnone : (d'.book.queue side).bag = 0) {j : Item} (hj : j ∈ (d.book.queue side).bag) :
    ¬ Eligible exclude (d.order j.order) := fun he =>
  absurd (hnone ▸ h.mem_bag_of_eligible hj he) (Multiset.notMem_zero _)

/-- What taking the depth of dropped orders away does to a ledger: it keeps `P`, or breaks off with
`B`. -/
def Drops (d : Desk σ) (side : Side) (P : Ledger → Prop) (B : Prop) : Prop :=
  ∀ i ∈ (d.book.queue side).bag, (d.order i.order).isOpen = false → ∀ l j, P l →
    Ends (Ledger.withdraw (d.order i.order).id) ⟨l, j⟩ (fun _ t => P t.state)
      (fun f _ => f.IsOverflow ∧ B)

/-- The same of the ledger and the journal together, in which dropped orders are noted. -/
structure Drains (d : Desk σ) (side : Side) (P : Logged Ledger → Prop) (B : Prop) : Prop where
  withdraw : ∀ i ∈ (d.book.queue side).bag, (d.order i.order).isOpen = false → ∀ l, P l →
    Ends (Ledger.withdraw (d.order i.order).id) l (fun _ t => P t) (fun f _ => f.IsOverflow ∧ B)
  log : ∀ (i : InstrumentId) (id : OrderId) (l : Logged Ledger), P l →
    P ⟨l.state, l.journal.push (.closedOrderDropped i id side)⟩

/-- The same if what is said of the ledger depends on what was dropped so far. -/
structure Tracks (d : Desk σ) (side : Side) (P : Multiset Item → Logged Ledger → Prop)
    (B : Prop) : Prop where
  withdraw : ∀ gone, ∀ i ∈ (d.book.queue side).bag, (d.order i.order).isOpen = false →
    ∀ l, P gone l → Ends (Ledger.withdraw (d.order i.order).id) l (fun _ t => P (gone + {i}) t)
    (fun f _ => f.IsOverflow ∧ B)
  log : ∀ gone (i : InstrumentId) (id : OrderId) (l : Logged Ledger), P gone l →
    P gone ⟨l.state, l.journal.push (.closedOrderDropped i id side)⟩

variable {P : Ledger → Prop} {R : Logged Ledger → Prop} {T : Multiset Item → Logged Ledger → Prop}
  {B : Prop}

/-- What is kept of the ledger alone is kept with the journal. -/
theorem Drops.drains (hdrop : Drops d side P B) : Drains d side (fun l => P l.state) B where
  withdraw i hi ho l hl := hdrop i hi ho l.state l.journal hl
  log _ _ _ hl := hl

/-- What is kept whatever was dropped is kept with account of it. -/
theorem Drains.tracks (hdrain : Drains d side R B) : Tracks d side (fun _ => R) B where
  withdraw _ := hdrain.withdraw
  log _ := hdrain.log

/-- The book without the first order of a queue. -/
def withoutHead (d : Desk σ) (side : Side) (l : Ledger) : Desk σ :=
  { d with book :=
    { d.book.withQueue (d.book.queue side).dropHead side with ledger := l } }

/-- The queue without its head. -/
theorem queue_withoutHead (d : Desk σ) (side : Side) (l : Ledger) :
    (d.withoutHead side l).book.queue side = (d.book.queue side).dropHead := by
  cases side <;> rfl

/-- Without the head of a queue the book is otherwise the same. -/
theorem withoutHead_ledger (d : Desk σ) (side : Side) :
    d.withoutHead side d.book.ledger =
      { d with book := d.book.withQueue (d.book.queue side).dropHead side } := by
  cases side <;> rfl

/-- Dropping a first order that is no longer open. -/
theorem searched_drop {head : Item} (hh : (d.book.queue side).headItem? = some head)
    (ho : (d.order head.order).isOpen = false) (l : Ledger) :
    Searched side exclude d (d.withoutHead side l) {head} [] where
  office := rfl
  book := by rw [queue_withoutHead]; rfl
  bag := by
    rw [queue_withoutHead, Queue.bag_dropHead hh, Multiset.coe_nil, add_zero,
      Multiset.singleton_add]
  ordered hq := queue_withoutHead d side l ▸ hq.dropHead
  dropped i hi := Multiset.mem_singleton.1 hi ▸ ho
  aside _ h := absurd h List.not_mem_nil

/-- Setting aside a first order of the excluded user. -/
theorem searched_skip {head : Item} (hh : (d.book.queue side).headItem? = some head)
    (ho : (d.order head.order).isOpen = true) (hu : exclude = some (d.order head.order).user) :
    Searched side exclude d (d.withoutHead side d.book.ledger) 0 [head] where
  office := rfl
  book := by rw [queue_withoutHead]; rfl
  bag := by
    rw [queue_withoutHead, Queue.bag_dropHead hh, zero_add, Multiset.coe_singleton,
      Multiset.singleton_add]
  ordered hq := queue_withoutHead d side _ ▸ hq.dropHead
  dropped _ h := absurd h (Multiset.notMem_zero _)
  aside i hi := List.mem_singleton.1 hi ▸ ⟨ho, hu⟩

/-- After a search the ledger can still be tracked. -/
theorem Tracks.searched (htrack : Tracks d side T B)
    (h : Searched side exclude d d' dropped aside) : Tracks d' side T B where
  withdraw gone i hi ho := by
    rw [h.order] at ho ⊢
    exact htrack.withdraw gone i (h.mem_bag.2 (.inr (.inr hi))) ho
  log := htrack.log

/-- What the search drops, sets aside and finds, by induction on the steps it may take. -/
theorem ends_topMatching (n : Nat) (gone : Multiset Item) (htrack : Tracks s.state side T B)
    (hT : T gone ⟨s.state.book.ledger, s.journal⟩) (hn : (s.state.book.queue side).size ≤ n) :
    Ends (topMatching side exclude n aside) s
      (fun found t => ∃ dropped new, found.2 = aside ++ new ∧
        Searched side exclude s.state t.state dropped new ∧ Heads side exclude t.state found.1 ∧
        T (gone + dropped) ⟨t.state.book.ledger, t.journal⟩)
      (fun f t => f.IsOverflow ∧ B ∧ ∃ dropped new,
        Searched side exclude s.state t.state dropped new) := by
  induction n generalizing s aside gone with
  | zero =>
    refine ⟨0, [], (List.append_nil aside).symm, .refl .., ?_, (add_zero gone).symm ▸ hT⟩
    exact Queue.bag_eq_zero.2 (Nat.le_zero.1 hn)
  | succ n ih =>
    simp only [topMatching, ends_bind, ends_current]
    cases hh : (s.state.book.queue side).headItem? with
    | none =>
      exact ⟨0, [], (List.append_nil aside).symm, .refl .., Queue.headItem?_eq_none.1 hh,
        (add_zero gone).symm ▸ hT⟩
    | some head =>
      have hmem := Queue.mem_bag_of_headItem? hh
      have hsize : (s.state.book.queue side).dropHead.size ≤ n := by
        rw [Queue.size_dropHead]
        omega
      -- the search goes on from a book without the head
      have hnext : ∀ (l : Ledger) (j : Array Event) (one : Multiset Item) (skip : List Item),
          Searched side exclude s.state (s.state.withoutHead side l) one skip →
          T (gone + one) ⟨l, j⟩ →
          Ends (topMatching side exclude n (aside ++ skip)) ⟨s.state.withoutHead side l, j⟩
            (fun found t => ∃ dropped new, found.2 = aside ++ new ∧
              Searched side exclude s.state t.state dropped new ∧
              Heads side exclude t.state found.1 ∧
              T (gone + dropped) ⟨t.state.book.ledger, t.journal⟩)
            (fun f t => f.IsOverflow ∧ B ∧ ∃ dropped new,
              Searched side exclude s.state t.state dropped new) := by
        intro l j one skip hone hl
        refine (ih (s := ⟨s.state.withoutHead side l, j⟩) (gone + one) (htrack.searched hone) hl
          (queue_withoutHead s.state side l ▸ hsize)).mono ?_ ?_
        · rintro found t ⟨dropped, new, hnew, hs, htop, hl⟩
          exact ⟨_, _, by
            rw [hnew, List.append_assoc], hone.trans hs, htop, add_assoc gone one dropped ▸ hl⟩
        · rintro f t ⟨hf, hB, dropped, new, hs⟩
          exact ⟨hf, hB, _, _, hone.trans hs⟩
      simp only
      split
      · next hopen =>
        have hopen : (s.state.order head.order).isOpen = false := by simpa using hopen
        simp only [ends_bind, ends_changeQueue, ends_onLedger, Book.ledger_withQueue, ends_log]
        refine (htrack.withdraw gone head hmem hopen _ hT).mono ?_ ?_
        · intro _ t ht
          have := hnext t.state (t.journal.push
            (.closedOrderDropped s.state.book.instrument (s.state.order head.order).id side)) _ _
            (searched_drop hh hopen t.state) (htrack.log _ _ _ t ht)
          rwa [List.append_nil] at this
        · intro f t hf
          exact ⟨hf.1, hf.2, _, _, searched_drop hh hopen t.state⟩
      · next hopen =>
        have hopen : (s.state.order head.order).isOpen = true := by simpa using hopen
        split
        · next hex =>
          simp only [ends_bind, ends_changeQueue]
          have := hnext s.state.book.ledger s.journal _ _ (searched_skip hh hopen hex)
            ((add_zero gone).symm ▸ hT)
          rwa [withoutHead_ledger] at this
        · next hex =>
          exact ⟨0, [], (List.append_nil aside).symm, .refl .., ⟨head, hh, rfl, hopen, hex⟩,
            (add_zero gone).symm ▸ hT⟩

/-- The search for the best order of a side, with what it does to the ledger as it drops orders. -/
theorem ends_findTop_of_tracks (htrack : Tracks s.state side T B)
    (hT : T 0 ⟨s.state.book.ledger, s.journal⟩) : Ends (findTop side exclude) s
      (fun found t => ∃ dropped, Searched side exclude s.state t.state dropped found.2 ∧
        Heads side exclude t.state found.1 ∧ T dropped ⟨t.state.book.ledger, t.journal⟩)
      (fun f t => f.IsOverflow ∧ B ∧ ∃ dropped new,
        Searched side exclude s.state t.state dropped new) := by
  simp only [findTop, ends_bind, ends_current]
  refine (ends_topMatching _ 0 htrack hT le_rfl).imp ?_
  rintro found t ⟨dropped, new, hnew, hs, htop, hl⟩
  rw [List.nil_append] at hnew
  rw [zero_add] at hl
  exact ⟨dropped, hnew ▸ hs, htop, hl⟩

/-- The same with what it does to the journal. -/
theorem ends_findTop_of_drains (hdrain : Drains s.state side R B)
    (hR : R ⟨s.state.book.ledger, s.journal⟩) :
    Ends (findTop side exclude) s
      (fun found t => ∃ dropped, Searched side exclude s.state t.state dropped found.2 ∧
        Heads side exclude t.state found.1 ∧ R ⟨t.state.book.ledger, t.journal⟩)
      (fun f t => f.IsOverflow ∧ B ∧ ∃ dropped new,
        Searched side exclude s.state t.state dropped new) :=
  ends_findTop_of_tracks hdrain.tracks hR

/-- The search for the best order of a side. -/
theorem ends_findTop (hdrop : Drops s.state side P B) (hP : P s.state.book.ledger) :
    Ends (findTop side exclude) s
      (fun found t => ∃ dropped, Searched side exclude s.state t.state dropped found.2 ∧
        Heads side exclude t.state found.1 ∧ P t.state.book.ledger)
      (fun f t => f.IsOverflow ∧ B ∧ ∃ dropped new,
        Searched side exclude s.state t.state dropped new) :=
  ends_findTop_of_drains hdrop.drains hP

/-! ## Taking the first order out -/

section

variable (d : Desk σ) (side : Side) (l : Ledger)

@[simp] theorem stopLossQueue_withoutHead (s : Side) :
    (d.withoutHead side l).book.stopLossQueue s = d.book.stopLossQueue s := by
  cases side <;> cases s <;> rfl

@[simp] theorem lastPrice_withoutHead :
    (d.withoutHead side l).book.lastPrice = d.book.lastPrice := by cases side <;> rfl

/-- The queue of the other side stays. -/
theorem queue_withoutHead_of_ne {s : Side} (hs : side ≠ s) :
    (d.withoutHead side l).book.queue s = d.book.queue s := by
  cases side <;> cases s <;> first | rfl | exact absurd rfl hs

@[simp] theorem phase_withoutHead : (d.withoutHead side l).book.phase = d.book.phase :=
  Book.phase_withQueue ..

end

/-- Dropping a head leads onward. -/
theorem onward_withoutHead (d : Desk Simulated) (side : Side) (l : Ledger) :
    Onward d (d.withoutHead side l) := .of_office rfl (phase_withoutHead ..)

/-- The items of a queue are its head and those without it. -/
theorem bag_withoutHead {head : Item} (hh : (d.book.queue side).headItem? = some head)
    (l : Ledger) :
    (d.book.queue side).bag = head ::ₘ ((d.withoutHead side l).book.queue side).bag := by
  rw [queue_withoutHead, Queue.bag_dropHead hh]

/-- Without a head there is one item less. -/
theorem itemCount_withoutHead {head : Item} (hh : (d.book.queue side).headItem? = some head)
    (l : Ledger) : (d.withoutHead side l).book.itemCount + 1 = d.book.itemCount := by
  have hcard := congrArg Multiset.card (bag_withoutHead hh l)
  rw [Multiset.card_cons, Queue.card_bag, Queue.card_bag] at hcard
  rw [Book.itemCount_eq _ side, Book.itemCount_eq d.book side, hcard, stopLossQueue_withoutHead,
    stopLossQueue_withoutHead, queue_withoutHead_of_ne d side l side.opposite_ne.symm]
  omega

/-- Queues stay sound without a head. -/
theorem Sound.withoutHead {head : Item} (hd : Sound known d)
    (hh : (d.book.queue side).headItem? = some head) (l : Ledger) :
    Sound known (d.withoutHead side l) where
  ordered s := by
    by_cases hs : side = s
    · subst hs
      exact queue_withoutHead d side l ▸ (hd.ordered side).dropHead
    · rw [queue_withoutHead_of_ne d side l hs]
      exact hd.ordered s
  resting s i hi := by
    by_cases hs : side = s
    · subst hs
      exact hd.resting side i (bag_withoutHead hh l ▸ Multiset.mem_cons_of_mem hi)
    · exact hd.resting s i (queue_withoutHead_of_ne d side l hs ▸ hi)
  dormant s i hi := hd.dormant s i (stopLossQueue_withoutHead d side l s ▸ hi)

/-- Taking a finished order out that heads its queue. -/
theorem ends_popResting {r : OrderRef} {head : Item}
    (hh : (s.state.book.queue side).headItem? = some head) (hr : head.order = r)
    {Q : Unit → Logged (Desk σ) → Prop} {E : Failure → Logged (Desk σ) → Prop} :
    Ends (popResting side r) s Q E ↔
      Q () ⟨s.state.withoutHead side s.state.book.ledger, s.journal⟩ := by
  have hhead : (s.state.book.queue side).head? = some r := by
    rw [Queue.head?, hh, Option.map_some, hr]
  simp only [popResting, ends_bind, ends_current, hhead, if_true]
  rw [withoutHead_ledger]
  rfl

/-- A finished order that heads its queue is taken out, another one stays. What follows is proved
from both. -/
theorem ends_popIf {α : Type} {done : Bool} {next : Action (Desk σ) α}
    {Q : α → Logged (Desk σ) → Prop} {E : Failure → Logged (Desk σ) → Prop} {head : Item}
    (hh : (s.state.book.queue side).headItem? = some head)
    (hpop : done = true → Ends next ⟨s.state.withoutHead side s.state.book.ledger, s.journal⟩ Q E)
    (hstay : done = false → Ends next s Q E) :
    Ends (if done = true then popResting side head.order >>= fun _ => next else next) s Q E := by
  cases done with
  | true => exact ends_bind.2 ((ends_popResting hh rfl).2 (hpop rfl))
  | false => exact hstay rfl

/-! ## Putting back -/

/-- The book with items put into the queue of a side. -/
def withItems (d : Desk σ) (side : Side) (items : List Item) : Desk σ :=
  { d with book := d.book.withQueue (items.foldl Queue.pushItem (d.book.queue side)) side }

/-- Putting back what was set aside never breaks off. -/
theorem ends_restore {Q : Unit → Logged (Desk σ) → Prop} {E} :
    Ends (restore side aside) s Q E ↔ Q () ⟨s.state.withItems side aside, s.journal⟩ := Iff.rfl

/-- What is put into a queue one after the other is in it. -/
theorem bag_foldl_pushItem (items : List Item) (q : Queue) :
    (items.foldl Queue.pushItem q).bag = items + q.bag := by
  induction items generalizing q with
  | nil => simp
  | cons i rest ih =>
    rw [List.foldl_cons, ih, Queue.bag_pushItem, ← Multiset.cons_coe, Multiset.add_cons,
      Multiset.cons_add]

/-- A queue stays ordered as items are put into it. -/
theorem ordered_foldl_pushItem {direction : PriceDirection} (items : List Item) {q : Queue}
    (hq : q.Ordered direction) : (items.foldl Queue.pushItem q).Ordered direction := by
  induction items generalizing q with
  | nil => exact hq
  | cons i rest ih => exact ih (hq.pushItem i)

section

variable (d : Desk σ) (side : Side) (items : List Item)

@[simp] theorem office_withItems : (d.withItems side items).office = d.office := rfl

@[simp] theorem queue_withItems (s : Side) : (d.withItems side items).book.queue s =
    if side = s then items.foldl Queue.pushItem (d.book.queue side) else d.book.queue s :=
  Book.queue_withQueue ..

@[simp] theorem stopLossQueue_withItems (s : Side) :
    (d.withItems side items).book.stopLossQueue s = d.book.stopLossQueue s :=
  Book.stopLossQueue_withQueue ..

@[simp] theorem ledger_withItems : (d.withItems side items).book.ledger = d.book.ledger :=
  Book.ledger_withQueue ..

@[simp] theorem lastPrice_withItems :
    (d.withItems side items).book.lastPrice = d.book.lastPrice := Book.lastPrice_withQueue ..

@[simp] theorem phase_withItems : (d.withItems side items).book.phase = d.book.phase :=
  Book.phase_withQueue ..

/-- What was put back is in the queue. -/
theorem bag_withItems : ((d.withItems side items).book.queue side).bag =
    items + (d.book.queue side).bag := by
  rw [queue_withItems, if_pos rfl, bag_foldl_pushItem]

/-- What was put back counts again. -/
theorem itemCount_withItems :
    (d.withItems side items).book.itemCount = d.book.itemCount + items.length := by
  have hcard := congrArg Multiset.card (bag_withItems d side items)
  rw [Multiset.card_add, Multiset.coe_card, Queue.card_bag, Queue.card_bag] at hcard
  rw [Book.itemCount_eq _ side, Book.itemCount_eq d.book side, hcard, stopLossQueue_withItems,
    stopLossQueue_withItems, queue_withItems d side items side.opposite,
    if_neg side.opposite_ne.symm]
  omega

end

/-- Putting orders back leads onward. -/
theorem onward_withItems (d : Desk Simulated) (side : Side) (items : List Item) :
    Onward d (d.withItems side items) := .of_office rfl (phase_withItems ..)

/-- Queues stay sound when resting orders are put back. -/
theorem Sound.withItems (hd : Sound known d)
    (hi : ∀ i ∈ aside, Rests known d.office.orders side i) :
    Sound known (d.withItems side aside) where
  ordered s := by
    rw [queue_withItems]
    split
    · next hs => exact hs ▸ ordered_foldl_pushItem aside (hd.ordered side)
    · exact hd.ordered s
  resting s i hmem := by
    by_cases hs : side = s
    · subst hs
      rw [bag_withItems, Multiset.mem_add, Multiset.mem_coe] at hmem
      exact hmem.elim (hi i) (hd.resting side i)
    · rw [queue_withItems, if_neg hs] at hmem
      exact hd.resting s i hmem
  dormant s i hmem := hd.dormant s i (stopLossQueue_withItems d side aside s ▸ hmem)

end Bourse.Desk
