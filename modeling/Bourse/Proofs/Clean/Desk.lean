import Bourse.Proofs.Book.Process
import Bourse.Proofs.Session.Depth
import Bourse.Proofs.Settlement.Racing

/-!
# Desks in order

`Accurate` says of a ledger that what it shows is exact, whatever was withdrawn from it and
whichever orders were closed in the meantime, and of the journal that no error is in it. It is kept
by all that a book does to its ledger, none of which fails then. With sound queues it makes a desk
that is `Desk.InOrder`.
-/

namespace Bourse

open Bourse.Action

variable {σ : Type} {os : Orders} {rs accepted : List OrderRef} {view view' : OrderRef → Order}
  {inc : Option OrderRef} {l : Logged Ledger} {r ask bid : OrderRef}

/-- The ledger shows no more than the accepted orders have left, all but the incoming one, and
there is no error in the journal. -/
structure Accurate (os : Orders) (rs accepted : List OrderRef) (view : OrderRef → Order)
    (inc : Option OrderRef) (l : Logged Ledger) : Prop where
  exact : ∃ withdrawn, Exact os rs view ⟨accepted, rs, withdrawn⟩ inc l.state
  spotless : Spotless l.journal

/-- A fill changes the pair, and closes others at most. -/
theorem dimmed_update_pair (h : ∀ r, r ≠ ask → r ≠ bid → view' r = view r ∨
    view' r = (view r).close) :
    Dimmed (Function.update (Function.update view ask (view' ask)) bid (view' bid)) view' := by
  intro r
  by_cases hrb : r = bid
  · exact .inl (by rw [hrb, Function.update_self])
  · by_cases hra : r = ask
    · exact .inl (by rw [Function.update_of_ne hrb, hra, Function.update_self])
    · rw [Function.update_of_ne hrb, Function.update_of_ne hra]
      exact h r hra hrb

namespace Accurate

theorem log (h : Accurate os rs accepted view inc l) {e : Event} (he : e.severity ≠ .error) :
    Accurate os rs accepted view inc ⟨l.state, l.journal.push e⟩ := ⟨h.exact, h.spotless.push he⟩

/-- Closed orders may stay shown. -/
theorem dim (h : Accurate os rs accepted view inc l) (hdim : Dimmed view view') :
    Accurate os rs accepted view' inc l := by
  obtain ⟨⟨w, h⟩, hj⟩ := h
  refine ⟨⟨w, h.of_shown h.balanced rfl hdim.follows h.accepted h.withdrawn ?_ ?_ ?_⟩, hj⟩
  · intro r hr
    obtain ⟨hacc, hw, ht⟩ := h.incoming r hr
    exact ⟨hacc, hw, (hdim.follows r).type_ne ht⟩
  · intro r hmay
    refine ⟨⟨hmay.accepted, hmay.withdrawn, hmay.incoming, (hdim.follows r).type_ne hmay.type,
      fun _ => h.accepted r hmay.accepted⟩, ?_⟩
    rcases hdim r with heq | heq <;> rw [heq]
    rfl
  · intro r hmust
    have heq := hdim.eq_of_not_closed (Order.isOpen_iff.1 hmust.isOpen).1
    exact ⟨hmust.accepted, hmust.withdrawn, hmust.incoming, heq ▸ hmust.type, heq ▸ hmust.isOpen⟩

/-- The depth of any order can be taken away. -/
theorem ends_withdraw (h : Accurate os rs accepted view inc l) (ho : Orderly os rs)
    (id : OrderId) : Ends (Ledger.withdraw id) l (fun _ t => Accurate os rs accepted view inc t)
      (fun _ _ => False) := by
  obtain ⟨⟨w, h⟩, hj⟩ := h
  by_cases hshown : ∃ r ∈ accepted, (view r).id = id ∧ inc ≠ some r
  · obtain ⟨r, hr, rfl, hinc⟩ := hshown
    have haccepted : (⟨accepted, rs, r :: w⟩ : Register).accepted = accepted := rfl
    refine (h.ends_withdraw ho (h.accepted r hr) haccepted rfl
      (fun _ hne => List.mem_cons.trans (or_iff_right hne)) (fun _ => ⟨hr, hinc⟩)
      (fun hmust => hmust.withdrawn (.head _)) l.journal).imp ?_
    exact fun _ _ ht => ⟨⟨_, ht.1⟩, ht.2.symm ▸ hj⟩
  · have hnone : l.state.find? id = none := Ledger.find?_eq_none.2 fun e he hid => by
      obtain ⟨-, r, hmay, rfl⟩ := h.only e he
      exact hshown ⟨r, hmay.accepted, hid, hmay.incoming⟩
    simp only [Ledger.withdraw, ends_bind, ends_current, hnone]
    exact ⟨⟨w, h⟩, hj⟩

/-- Reporting a trade leaves a ledger accurate. -/
theorem ends_recordTrade (h : Accurate os rs accepted view inc l) (t : Trade) :
    Ends (Ledger.recordTrade t) l (fun _ u => Accurate os rs accepted view inc u)
      (fun _ _ => False) := by
  obtain ⟨⟨w, h⟩, hj⟩ := h
  exact (h.ends_recordTrade t l.journal).imp (fun _ _ hu => ⟨⟨w, hu.1⟩, hu.2.symm ▸ hj⟩)

/-- Bringing the depth of a pair in line with a fill of it. -/
theorem ends_settlePair {incoming : Option Side} {out : FillOutcome}
    (h : Accurate os rs accepted view (Desk.incomingOf incoming ask bid) l) (ho : Orderly os rs)
    (hask : ask ∈ rs) (hbid : bid ∈ rs) (hne : ask ≠ bid) (hta : (view ask).type ≠ .stopLoss)
    (htb : (view bid).type ≠ .stopLoss) (hf : Filled view view' ask bid out) :
    Ends (Ledger.settlePair (view ask).id (view bid).id out incoming) l
      (fun _ t => Accurate os rs accepted view' (Desk.incomingOf incoming ask bid) t)
      (fun _ _ => False) := by
  obtain ⟨⟨w, h⟩, hj⟩ := h
  refine (h.ends_settlePair ho hask hbid hne hta htb hf l.journal).imp ?_
  exact fun _ t ht =>
    dim ⟨⟨w, ht.1⟩, ht.2.symm ▸ hj⟩ (dimmed_update_pair hf.others)

/-- A ledger is accurate for an order that came in once it is shown. -/
theorem ends_add (h : Accurate os rs accepted view (some r) l) (ho : Orderly os rs) (hr : r ∈ rs) :
    Ends (Ledger.add (view r)) l (fun _ t => Accurate os rs accepted view none t)
      (fun _ _ => False) := by
  obtain ⟨⟨w, h⟩, hj⟩ := h
  by_cases hopen : (view r).isOpen = true
  · exact (h.ends_add ho hr hopen l.journal).imp (fun _ _ ht => ⟨⟨w, ht.1⟩, ht.2.symm ▸ hj⟩)
  · have hopen : (view r).isOpen = false := by simpa using hopen
    simp only [Ledger.add, ends_bind, ends_current, hopen, Bool.false_and]
    exact ⟨⟨w, h.finish hopen⟩, hj⟩

/-- Nothing is left of the incoming order. -/
theorem finish (h : Accurate os rs accepted view (some r) l) (hclosed : (view r).isOpen = false) :
    Accurate os rs accepted view none l := by
  obtain ⟨⟨w, h⟩, hj⟩ := h
  exact ⟨⟨w, h.finish hclosed⟩, hj⟩

/-- An order comes in that is matched, or rests. -/
theorem accept (h : Accurate os rs accepted view none l) (hr : r ∈ rs) (hnew : r ∉ accepted)
    (ht : (view r).type ≠ .stopLoss) : Accurate os rs (r :: accepted) view (some r) l := by
  obtain ⟨⟨w, h⟩, hj⟩ := h
  exact ⟨⟨w, h.accept hr hnew ht⟩, hj⟩

/-- An order comes in that is closed, or a dormant stop-loss. -/
theorem pass (h : Accurate os rs accepted view none l) (hr : r ∈ rs) (hnew : r ∉ accepted)
    (ht : (view r).closed = true ∨ (view r).type = .stopLoss) :
    Accurate os rs (r :: accepted) view none l := by
  obtain ⟨⟨w, h⟩, hj⟩ := h
  exact ⟨⟨w, h.pass hr hnew ht⟩, hj⟩

/-- Activating a stop-loss leaves a ledger accurate. -/
theorem activated {o : Office σ} (h : Accurate os rs accepted o.orders.get inc l) (r : OrderRef) :
    Accurate os rs accepted (o.activated r).orders.get inc l := by
  obtain ⟨⟨w, h⟩, hj⟩ := h
  exact ⟨⟨w, h.activated r⟩, hj⟩

end Accurate

namespace Desk

/-- The queues are sound, the ledger is accurate, and no error is in the journal. -/
structure InOrder (os : Orders) (rs accepted : List OrderRef) (inc : Option OrderRef)
    (s : Logged (Desk σ)) : Prop where
  sound : Sound (· ∈ rs) s.state
  ledger : Accurate os rs accepted s.state.order inc ⟨s.state.book.ledger, s.journal⟩

/-- Nothing was taken back, and the book is in the phase that it was in. -/
structure Went (d d' : Desk σ) : Prop where
  orders : d.office.orders.Follow d'.office.orders
  phase : d'.book.phase = d.book.phase

variable {s : Logged (Desk σ)} {d d' d'' : Desk σ} {side : Side}

theorem Went.refl (d : Desk σ) : Went d d := ⟨.refl _, rfl⟩

theorem Went.trans (h : Went d d') (h' : Went d' d'') : Went d d'' :=
  ⟨h.orders.trans h'.orders, h'.phase.trans h.phase⟩

/-- What leaves office and phase went on. -/
theorem Went.of_office (h : d'.office = d.office) (hp : d'.book.phase = d.book.phase) :
    Went d d' :=
  ⟨h ▸ .refl _, hp⟩

/-- Putting orders back takes nothing back. -/
theorem Went.withItems (h : Went d d') (items : List Item) : Went d (d'.withItems side items) :=
  ⟨h.orders, (phase_withItems ..).trans h.phase⟩

namespace InOrder

theorem log (h : InOrder os rs accepted inc s) {e : Event} (he : e.severity ≠ .error) :
    InOrder os rs accepted inc ⟨s.state, s.journal.push e⟩ := ⟨h.sound, h.ledger.log he⟩

/-- The queues of a book in order may change as long as they are sound. -/
theorem of_sound (h : InOrder os rs accepted inc s) (hd : Sound (· ∈ rs) d)
    (hoffice : d.office = s.state.office) (hl : d.book.ledger = s.state.book.ledger) :
    InOrder os rs accepted inc ⟨d, s.journal⟩ := by
  refine ⟨hd, ?_⟩
  unfold Desk.order
  rw [hoffice, hl]
  exact h.ledger

/-- Something was done to the ledger. -/
theorem withLedger (h : InOrder os rs accepted inc s)
    (hl : Accurate os rs accepted s.state.order inc l) :
    InOrder os rs accepted inc
      ⟨{ s.state with book := { s.state.book with ledger := l.state } }, l.journal⟩ where
  sound := h.sound.withLedger l.state
  ledger := hl

/-- A desk stays in order as resting orders are put back. -/
theorem withItems (h : InOrder os rs accepted inc s) {items : List Item}
    (hi : ∀ i ∈ items, Rests (· ∈ rs) s.state.office.orders side i) :
    InOrder os rs accepted inc ⟨s.state.withItems side items, s.journal⟩ :=
  h.of_sound (h.sound.withItems hi) rfl (ledger_withItems ..)

/-- A desk stays in order without the head of a queue. -/
theorem withoutHead (h : InOrder os rs accepted inc s) {i : Item}
    (hi : (s.state.book.queue side).headItem? = some i) :
    InOrder os rs accepted inc ⟨s.state.withoutHead side s.state.book.ledger, s.journal⟩ :=
  h.of_sound (h.sound.withoutHead hi _) rfl rfl

/-- A desk stays in order in another phase. -/
theorem enter (h : InOrder os rs accepted inc s) (p : Phase) :
    InOrder os rs accepted inc ⟨{ s.state with book := { s.state.book with phase := p } },
      s.journal⟩ :=
  h.of_sound (h.sound.enter p) rfl rfl

/-- Settlement closed orders, and logged no error. -/
theorem dim (h : InOrder os rs accepted inc s) {o : Office σ} {j : Array Event}
    (hdim : Dimmed s.state.office.orders.get o.orders.get) (hj : Spotless j) :
    InOrder os rs accepted inc ⟨{ s.state with office := o }, j⟩ where
  sound := h.sound.congr (fun _ => rfl) (fun _ => rfl) hdim.follows
  ledger := ⟨(h.ledger.dim hdim).exact, hj⟩

/-- The order in front of a queue of dormant stop-losses leaves it. -/
theorem withoutDormant (h : InOrder os rs accepted inc s) {i : Item}
    (hi : (s.state.book.stopLossQueue side).headItem? = some i) :
    InOrder os rs accepted inc ⟨s.state.withoutDormant side, s.journal⟩ := by
  refine h.of_sound ⟨fun s' => ?_, fun s' j hj => ?_, fun s' j hj => ?_⟩ rfl
    (Book.ledger_withStopLossQueue ..)
  · unfold Desk.withoutDormant
    rw [Book.queue_withStopLossQueue]
    exact h.sound.ordered s'
  · unfold Desk.withoutDormant at hj
    rw [Book.queue_withStopLossQueue] at hj
    exact h.sound.resting s' j hj
  · unfold Desk.withoutDormant at hj
    rw [Book.stopLossQueue_withStopLossQueue] at hj
    split at hj
    · next hs =>
      exact h.sound.dormant s' j (hs ▸ Queue.bag_dropHead hi ▸ Multiset.mem_cons_of_mem hj)
    · exact h.sound.dormant s' j hj

/-- A desk stays in order as a stop-loss is activated. -/
theorem activated (h : InOrder os rs accepted inc s) (r : OrderRef) :
    InOrder os rs accepted inc ⟨{ s.state with office := s.state.office.activated r },
      s.journal⟩ where
  sound := h.sound.congr (fun _ => rfl) (fun _ => rfl)
    (Orders.follow_modify Order.follows_activateStopLoss)
  ledger := h.ledger.activated r

end InOrder

end Desk

end Bourse
