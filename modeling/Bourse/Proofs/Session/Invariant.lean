import Bourse.Proofs.Book.Process
import Bourse.Proofs.Session.Basic
import Mathlib.Data.List.Induction

/-!
# Invariants of sessions

`Keeps known mine Inv Broken` lists what is to be shown of the single things a session does, so
that `Inv` holds after every call (`Session.stands_run`). To matching (`Upkeep`) it adds handing an
order in, the two halves of a cancellation and what else comes from outside. The invariant sees the
register too, and may be broken by an overflow of depth only in a way that `Broken` makes up for.

`known` are the orders that are handed in, `mine` those whose depth may be withdrawn.

What all sessions have in common is `Session.Stands`: sound queues, and orders that were accepted
or wait at most once.
-/

namespace Bourse

open Bourse.Action Desk

variable {known mine : OrderRef → Prop}

/-- What is to be shown of single steps of a session, so that it keeps `Inv`. -/
structure Keeps (known mine : OrderRef → Prop)
    (Inv : Register → Option OrderRef → Office Simulated → Ledger → Prop)
    (Broken : Office Simulated → Prop) : Prop where
  upkeep : ∀ g, Upkeep known (Inv g) Broken
  /-- An order is handed in that is matched, or rests. -/
  accept : ∀ g r o l, known r → r ∉ g.accepted → (o.orders.get r).type ≠ .stopLoss →
    Inv g none o l → Inv (g.accept r) (some r) o l
  /-- An order is handed in that is closed, or a dormant stop-loss. -/
  pass : ∀ g r o l, known r → r ∉ g.accepted →
    ((o.orders.get r).closed = true ∨ (o.orders.get r).type = .stopLoss) → Inv g none o l →
    Inv (g.accept r) none o l
  /-- A trade is replayed. -/
  replay : ∀ g o l j t, Inv g none o l →
    Ends (Ledger.recordTrade t) ⟨l, j⟩ (fun _ u => Inv g none o u.state) (fun _ _ => Broken o)
  /-- The book takes the depth of an order away. -/
  withdraw : ∀ g r o l j, mine r → Inv g none o l →
    Ends (Ledger.withdraw (o.orders.get r).id) ⟨l, j⟩
      (fun _ u => Inv (g.withdraw r) none o u.state) (fun _ _ => Broken o)
  /-- Settlement cancels an order. -/
  cancel : ∀ g r o l, (o.orders.get r).closed = false → Inv g none o l →
    Inv (g.cancel r) none { o with orders := o.orders.set r (o.orders.get r).close } l
  /-- The backend changes, but no trade is made. -/
  backend : ∀ g o l b, b.trades = o.backend.trades → Inv g none o l →
    Inv g none { o with backend := b } l
  broken : ∀ g o l, Broken o → Inv g none o l

namespace Desk

variable {s : Logged (Desk Simulated)} {d d' : Desk Simulated} {r : OrderRef} {side : Side}
  {Inv : Register → Option OrderRef → Office Simulated → Ledger → Prop}
  {Broken : Office Simulated → Prop} {g : Register}

/-! ## Loading -/

/-- An order that comes in rests, whether it is open or not. -/
theorem ends_rest_incoming (up : Upkeep known (Inv g) Broken) (hr : known r)
    (hI : Inv g (some r) s.state.office s.state.book.ledger) :
    Ends (rest side r) s
      (fun _ t => ∃ l, Inv g none s.state.office l ∧ t.state = s.state.rested side r l)
      (fun f t => f.IsOverflow ∧ Broken s.state.office ∧
        ∃ l, t.state = s.state.rested side r l) := by
  refine ends_rest ?_
  intro j
  by_cases ho : (s.state.order r).isOpen = true
  · exact up.rest r s.state.office s.state.book.ledger j hr ho hI
  · have ho : (s.state.order r).isOpen = false := by simpa using ho
    simp only [Ledger.add, ends_bind, ends_current, ho, Bool.false_and]
    exact up.finish r s.state.office s.state.book.ledger hr ho hI

/-- From one desk to another: the queues are sound, no order was taken back, and the invariant
holds. -/
structure Kept (known : OrderRef → Prop) (Inv : Office Simulated → Ledger → Prop)
    (d d' : Desk Simulated) : Prop where
  sound : Sound known d'
  orders : d.office.orders.Follow d'.office.orders
  inv : Inv d'.office d'.book.ledger

theorem Kept.trans {Inv Inv' : Office Simulated → Ledger → Prop} {d'' : Desk Simulated}
    (h : Kept known Inv d d') (h' : Kept known Inv' d' d'') : Kept known Inv' d d'' :=
  ⟨h'.sound, h.orders.trans h'.orders, h'.inv⟩

/-- The book in another phase. -/
theorem Kept.enter {Inv : Office Simulated → Ledger → Prop} (h : Kept known Inv d d') (p : Phase) :
    Kept known Inv d { d' with book := { d'.book with phase := p } } where
  sound := h.sound.enter p
  orders := h.orders
  inv := h.inv

/-- Putting a stop-loss aside keeps what it should. -/
theorem kept_parked (keeps : Keeps known mine Inv Broken) (hd : Sound known d) (hr : known r)
    (hg : r ∉ g.accepted) (ht : (d.order r).type = .stopLoss)
    (hI : Inv g none d.office d.book.ledger) :
    Kept known (Inv (g.accept r) none) d (d.parked r) where
  sound := hd.parked hr
  orders := .refl _
  inv := by
    rw [show (d.parked r).book.ledger = d.book.ledger from Book.ledger_withStopLossQueue ..]
    exact keeps.pass g r _ _ hr hg (.inr ht) hI

/-- Loading an order keeps the invariant. -/
theorem ends_load (keeps : Keeps known mine Inv Broken) (hd : Sound known s.state) (hr : known r)
    (hg : r ∉ g.accepted) (hI : Inv g none s.state.office s.state.book.ledger) :
    Ends (load side r) s
      (fun answer t => Kept known (Inv (g.loaded r answer) none) s.state t.state ∧
        t.state.book.phase = s.state.book.phase)
      (fun _ t => Kept known (Inv g none) s.state t.state ∧
        t.state.book.phase = s.state.book.phase) := by
  simp only [load, checkSide, ends_bind, ends_current, ends_pure]
  by_cases hside : (s.state.order r).side = side
  · simp only [hside, if_true, ends_bind, ends_current]
    split
    · next hc =>
      simp only [ends_bind, ends_log, ends_pure]
      exact ⟨⟨hd, .refl _, keeps.pass g r _ _ hr hg (.inl hc) hI⟩, trivial⟩
    · simp only [loadOld, ends_bind, ends_current]
      split
      · next ht =>
        refine ends_parkStopLoss ?_
        intro j
        exact ⟨kept_parked keeps hd hr hg ht hI, Book.phase_withStopLossQueue ..⟩
      · next ht =>
        refine (ends_rest_incoming (keeps.upkeep _) hr (keeps.accept g r _ _ hr hg ht hI)).mono
          ?_ ?_
        · rintro _ ⟨t, j⟩ ⟨l, hl, rfl⟩
          exact ⟨⟨hd.rested hr rfl ht l, (onward_rested l).orders, hl⟩, (onward_rested l).phase⟩
        · rintro f ⟨t, j⟩ ⟨-, hB, l, rfl⟩
          exact ⟨⟨hd.rested hr rfl ht l, (onward_rested l).orders, keeps.broken g _ _ hB⟩,
            (onward_rested l).phase⟩
  · simp only [hside, if_false]
    exact ⟨⟨hd, .refl _, hI⟩, rfl⟩

/-! ## Matching -/

/-- Matching an order that was handed in. If it breaks off then the book has ended. -/
theorem ends_runTask (keeps : Keeps known mine Inv Broken) (hd : Sound known s.state)
    (hr : known r) (hg : r ∉ g.accepted) (ht : (s.state.order r).type ≠ .stopLoss)
    (hI : Inv g none s.state.office s.state.book.ledger) :
    Ends (runTask Simulated.settlement r) s
      (fun _ t => (Kept known (Inv (g.accept r) none) s.state t.state ∧
          t.state.book.phase = s.state.book.phase) ∨
        (Kept known (fun o _ => Broken o) s.state t.state ∧ ∃ cause,
          t.state.book.phase = .crashed cause))
      (fun _ _ => False) := by
  simp only [runTask, ends_bind, ends_attempt]
  refine (ends_process (keeps.upkeep (g.accept r)) hd hr ht
    (keeps.accept g r _ _ hr hg ht hI)).mono ?_ ?_
  · rintro _ t ⟨hon, hsound, hI', -⟩
    exact .inl ⟨⟨hsound, hon.orders, hI'⟩, hon.phase⟩
  · intro f t hf
    have hkept : Kept known (fun o _ => Broken o) s.state t.state :=
      ⟨hf.sound, hf.onward.orders, hf.broken⟩
    exact .inr ⟨hkept.enter (.crashed f), f, rfl⟩

/-- Handing an order in keeps the invariant, and it is accepted or waits. -/
theorem ends_submit (keeps : Keeps known mine Inv Broken) (hd : Sound known s.state) (hr : known r)
    (hg : r ∉ g.accepted) (hI : Inv g none s.state.office s.state.book.ledger) :
    Ends (submit Simulated.settlement side r) s
      (fun answer t => Kept known (Inv (g.submitted r answer) none) s.state t.state ∧
        (t.state.book.phase.orders = s.state.book.phase.orders ∨
          answer = .ok .waiting ∧ (s.state.order r).type ≠ .stopLoss ∧
            t.state.book.phase.orders = s.state.book.phase.orders ++ [r]))
      (fun _ _ => False) := by
  simp only [submit, checkSide, ends_bind, ends_current, ends_pure]
  by_cases hside : (s.state.order r).side = side
  · simp only [hside, if_true, ends_bind, ends_current]
    split
    · next hc =>
      simp only [ends_bind, ends_log, ends_pure]
      exact ⟨⟨hd, .refl _, keeps.pass g r _ _ hr hg (.inl hc) hI⟩, .inl trivial⟩
    · split
      · next ht =>
        rw [ends_bind]
        refine ends_parkStopLoss ?_
        intro j
        exact ⟨kept_parked keeps hd hr hg ht hI,
          .inl (congrArg Phase.orders (Book.phase_withStopLossQueue ..))⟩
      · next ht =>
        have hkept : Kept known (Inv g none) s.state s.state := ⟨hd, .refl _, hI⟩
        cases hphase : s.state.book.phase with
        | waiting submissions =>
          refine ⟨hkept.enter _, .inr ⟨rfl, ht, ?_⟩⟩
          simp [Phase.orders]
        | running =>
          simp only [ends_bind]
          refine (ends_runTask keeps hd hr hg ht hI).imp ?_
          rintro _ t (⟨hkept, hp⟩ | ⟨hkept, cause, hp⟩)
          · exact ⟨hkept, .inl (by rw [hp, hphase])⟩
          · exact ⟨⟨hkept.sound, hkept.orders, keeps.broken _ _ _ hkept.inv⟩,
              .inl (by rw [hp]; rfl)⟩
        | crashed cause => exact ⟨hkept, .inl (by rw [hphase])⟩
        | stopped => exact ⟨hkept, .inl (by rw [hphase])⟩
  · simp only [hside, if_false]
    exact ⟨⟨hd, .refl _, hI⟩, .inl rfl⟩

/-- Matching what was submitted before the start, in turn. Once matching broke off nothing is
matched any more. -/
theorem ends_takeSubmissions (keeps : Keeps known mine Inv Broken) (submissions : List Submission)
    (hd : Sound known s.state)
    (hsub : ∀ sub ∈ submissions, known sub.order ∧ (s.state.order sub.order).type ≠ .stopLoss)
    (hnodup : (submissions.map (·.order) ++ g.accepted).Nodup)
    (hp : s.state.book.phase = .running) (hI : Inv g none s.state.office s.state.book.ledger) :
    Ends (takeSubmissions Simulated.settlement submissions) s
      (fun _ t => Kept known (Inv ((submissions.map (·.order)).foldl Register.accept g) none)
        s.state t.state ∧ t.state.book.phase.orders = [])
      (fun _ _ => False) := by
  induction submissions generalizing s g with
  | nil => exact ⟨⟨hd, .refl _, hI⟩, by rw [hp]; rfl⟩
  | cons sub rest ih =>
    obtain ⟨hr, ht⟩ := hsub sub List.mem_cons_self
    rw [List.map_cons, List.cons_append, List.nodup_cons, List.mem_append, not_or] at hnodup
    have hnext : (rest.map (·.order) ++ (g.accept sub.order).accepted).Nodup := by
      show (_ ++ sub.order :: g.accepted).Nodup
      rw [List.nodup_append_comm, List.cons_append, List.nodup_cons, List.mem_append, not_or,
        List.nodup_append_comm]
      exact ⟨⟨hnodup.1.2, hnodup.1.1⟩, hnodup.2⟩
    rw [List.map_cons, List.foldl_cons]
    simp only [takeSubmissions, ends_bind, ends_current]
    -- the order is matched, and then the others, unless matching broke off
    have hmatch : ∀ (j : Array Event)
        (next : List (Except EngineError Receipt) → List (Except EngineError Receipt)),
        Ends (runTask Simulated.settlement sub.order >>= fun _ =>
          takeSubmissions Simulated.settlement rest >>= fun answers => pure (next answers))
          ⟨s.state, j⟩
          (fun _ t => Kept known (Inv ((rest.map (·.order)).foldl Register.accept
            (g.accept sub.order)) none) s.state t.state ∧ t.state.book.phase.orders = [])
          (fun _ _ => False) := by
      intro j next
      rw [ends_bind]
      refine (ends_runTask (s := ⟨s.state, j⟩) keeps hd hr hnodup.1.2 ht hI).imp ?_
      rintro _ t (⟨hkept, hp'⟩ | ⟨hkept, cause, hp'⟩)
      · rw [ends_bind]
        refine (ih hkept.sound ?_ hnext (hp'.trans hp) hkept.inv).imp ?_
        · intro sub hmem
          obtain ⟨hk, hty⟩ := hsub sub (List.mem_cons_of_mem _ hmem)
          exact ⟨hk, (hkept.orders sub.order).type_ne hty⟩
        · exact fun _ u hu => ⟨hkept.trans hu.1, hu.2⟩
      · rw [ends_bind]
        refine (ends_takeSubmissions_of_not rest (by rw [Book.isRunning, hp']; rfl)).imp ?_
        rintro _ u rfl
        exact ⟨⟨hkept.sound, hkept.orders, keeps.broken _ _ _ hkept.inv⟩, by rw [hp']; rfl⟩
    rw [if_pos (by rw [Book.isRunning, hp]; rfl)]
    split
    · rw [ends_bind, ends_log]
      exact hmatch _ fun answers => answers
    · exact hmatch _ _

/-- Starting the book keeps the invariant, and nobody waits any more. -/
theorem ends_start (keeps : Keeps known mine Inv Broken) (hd : Sound known s.state)
    (hwait : ∀ r ∈ s.state.book.phase.orders, known r ∧ (s.state.order r).type ≠ .stopLoss)
    (hnodup : (s.state.book.phase.orders ++ g.accepted).Nodup)
    (hI : Inv g none s.state.office s.state.book.ledger) :
    Ends (start Simulated.settlement) s
      (fun report t => Kept known
          (Inv (g.afterStart s.state.book.phase.orders report.result) none) s.state t.state ∧
        t.state.book.phase.orders = [])
      (fun _ _ => False) := by
  have hkept : Kept known (Inv g none) s.state s.state := ⟨hd, .refl _, hI⟩
  simp only [start, ends_bind, ends_current]
  cases hphase : s.state.book.phase with
  | waiting submissions =>
    rw [hphase] at hwait hnodup
    have hsub : ∀ {t : Desk Simulated}, s.state.office.orders.Follow t.office.orders →
        ∀ sub ∈ submissions, known sub.order ∧ (t.order sub.order).type ≠ .stopLoss :=
      fun hf sub hmem => by
        obtain ⟨hk, hty⟩ := hwait sub.order (List.mem_map_of_mem hmem)
        exact ⟨hk, (hf sub.order).type_ne hty⟩
    simp only [ends_bind, ends_attempt]
    have hstopped := hkept.enter .stopped
    refine (ends_reconcile (s := ⟨_, s.journal⟩) (keeps.upkeep g) hstopped.sound
      hstopped.inv).mono ?_ ?_
    · rintro _ t ⟨hon, hsound, hI', -⟩
      have hkept' : Kept known (Inv g none) s.state t.state := ⟨hsound, hon.orders, hI'⟩
      have hrunning := hkept'.enter .running
      refine (ends_takeSubmissions (s := ⟨{ t.state with book := { t.state.book with
        phase := .running } }, _⟩) keeps submissions hrunning.sound (hsub hrunning.orders) hnodup
        rfl hrunning.inv).imp ?_
      exact fun _ u hu => ⟨hrunning.trans hu.1, hu.2⟩
    · intro f t hf
      have hp : t.state.book.phase = .stopped := hf.onward.phase
      refine (ends_takeSubmissions_of_not submissions (by rw [Book.isRunning, hp]; rfl)).imp ?_
      rintro _ u rfl
      exact ⟨⟨hf.sound, hf.onward.orders, keeps.broken _ _ _ hf.broken⟩, by rw [hp]; rfl⟩
  | running => exact ⟨hkept, by rw [hphase]; rfl⟩
  | crashed cause => exact ⟨hkept, by rw [hphase]; rfl⟩
  | stopped => exact ⟨hkept, by rw [hphase]; rfl⟩

/-! ## Other calls -/

/-- Another ledger keeps the invariant if it holds of it. -/
theorem kept_withLedger (hd : Sound known d) {l : Ledger} {Inv : Office Simulated → Ledger → Prop}
    (hI : Inv d.office l) : Kept known Inv d { d with book := { d.book with ledger := l } } where
  sound := hd.withLedger l
  orders := .refl _
  inv := hI

/-- Replaying trades keeps the invariant, by induction on their list. -/
theorem ends_loadTrades (keeps : Keeps known mine Inv Broken) (trades : List Trade)
    (hd : Sound known s.state) (hI : Inv g none s.state.office s.state.book.ledger) :
    Ends (loadTrades trades) s
      (fun _ t => Kept known (Inv g none) s.state t.state ∧
        t.state.book.phase = s.state.book.phase)
      (fun _ t => Kept known (Inv g none) s.state t.state ∧
        t.state.book.phase = s.state.book.phase) := by
  simp only [loadTrades, replayTrades, ends_bind, ends_current, ends_log]
  refine Ends.mono (Ends.forM (P := fun _ t => ∃ l, Inv g none s.state.office l ∧
      t.state = { s.state with book := { s.state.book with ledger := l } })
    (E := fun _ t => Kept known (Inv g none) s.state t.state ∧
      t.state.book.phase = s.state.book.phase) ?_ ⟨_, hI, rfl⟩) ?_ fun _ _ hf => hf
  · rintro tr rest ⟨t, j⟩ ⟨l, hl, rfl⟩
    rw [ends_onLedger]
    exact (keeps.replay g _ l j tr hl).mono (fun _ u hu => ⟨u.state, hu, rfl⟩)
      fun _ u hf => ⟨kept_withLedger hd (keeps.broken g _ u.state hf), rfl⟩
  · rintro _ ⟨t, j⟩ ⟨l, hl, rfl⟩
    have hkept := kept_withLedger hd hl
    split
    · exact ⟨⟨hkept.sound.priced _, hkept.orders, hl⟩, rfl⟩
    · exact ⟨hkept, rfl⟩

/-- Withdrawing an order keeps the invariant. -/
theorem ends_withdraw (keeps : Keeps known mine Inv Broken)
    (hd : Sound known s.state) (hr : mine r) (hI : Inv g none s.state.office s.state.book.ledger) :
    Ends (withdraw side r) s
      (fun answer t => Kept known (Inv (g.afterWithdraw r answer) none) s.state t.state ∧
        t.state.book.phase = s.state.book.phase)
      (fun _ t => Kept known (Inv g none) s.state t.state ∧
        t.state.book.phase = s.state.book.phase) := by
  simp only [withdraw, checkSide, ends_bind, ends_current, ends_pure]
  by_cases hside : (s.state.order r).side = side
  · simp only [hside, if_true, ends_bind, ends_current, ends_onLedger, ends_log, ends_pure]
    exact (keeps.withdraw g r _ _ _ hr hI).mono (fun _ u hu => ⟨kept_withLedger hd hu, trivial⟩)
      fun _ u hf => ⟨kept_withLedger hd (keeps.broken g _ u.state hf), trivial⟩
  · simp only [hside, if_false]
    exact ⟨⟨hd, .refl _, hI⟩, rfl⟩

/-- A cancellation by settlement keeps the invariant. -/
theorem ends_cancel (keeps : Keeps known mine Inv Broken) (hd : Sound known s.state)
    (hI : Inv g none s.state.office s.state.book.ledger) :
    Ends (onOffice (Office.onOrders (Orders.cancel r))) s
      (fun answer t => Kept known (Inv (g.afterCancel r answer) none) s.state t.state ∧
        t.state.book.phase = s.state.book.phase)
      (fun _ _ => False) := by
  simp only [ends_onOffice, Office.onOrders, ends_within, Orders.cancel, ends_bind, ends_current]
  split
  · exact ⟨⟨hd, .refl _, hI⟩, trivial⟩
  · next hc =>
    have hf : s.state.office.orders.Follow
        (s.state.office.orders.set r (s.state.office.orders.get r).close) :=
      Orders.follow_modify Order.follows_close
    exact ⟨⟨hd.congr (fun _ => rfl) (fun _ => rfl) hf, hf,
      keeps.cancel g r _ _ (by simpa using hc) hI⟩, trivial⟩

/-- A change of settlement that leaves its trades keeps the invariant. -/
theorem ends_backend (keeps : Keeps known mine Inv Broken) (hd : Sound known s.state)
    (hI : Inv g none s.state.office s.state.book.ledger) {f : Simulated → Simulated}
    (hf : ∀ b, (f b).trades = b.trades) :
    Ends (onOffice (Office.onBackend (Action.change f))) s
      (fun _ t => Kept known (Inv g none) s.state t.state ∧
        t.state.book.phase = s.state.book.phase)
      (fun _ _ => False) :=
  ⟨⟨hd.congr (fun _ => rfl) (fun _ => rfl) (.refl _), .refl _, keeps.backend g _ _ _ (hf _) hI⟩,
    rfl⟩

/-- Those who give up keep the invariant, and no more wait than before. -/
theorem ends_abandon {I : Office Simulated → Ledger → Prop} (hd : Sound known s.state)
    (hI : I s.state.office s.state.book.ledger) :
    Ends abandon s
      (fun _ t => Kept known I s.state t.state ∧
        t.state.book.phase.orders.Sublist s.state.book.phase.orders)
      (fun _ _ => False) := by
  have hkept : Kept known I s.state s.state := ⟨hd, .refl _, hI⟩
  simp only [abandon, ends_bind, ends_current]
  cases hphase : s.state.book.phase with
  | waiting submissions =>
    refine ⟨hkept.enter _, ?_⟩
    show (List.map _ (List.map _ (submissions.take _))).Sublist _
    rw [List.map_map]
    exact (List.take_sublist _ _).map _
  | running => exact ⟨hkept, by rw [hphase]⟩
  | crashed cause => exact ⟨hkept, by rw [hphase]⟩
  | stopped => exact ⟨hkept, by rw [hphase]⟩

/-- Stopping the book keeps the invariant, and as many wait as before. -/
theorem ends_shutdown {I : Office Simulated → Ledger → Prop} (hd : Sound known s.state)
    (hI : I s.state.office s.state.book.ledger) :
    Ends shutdown s
      (fun _ t => Kept known I s.state t.state ∧
        t.state.book.phase.orders = s.state.book.phase.orders)
      (fun _ _ => False) := by
  have hkept : Kept known I s.state s.state := ⟨hd, .refl _, hI⟩
  simp only [shutdown, ends_bind, ends_current]
  cases hphase : s.state.book.phase with
  | waiting submissions => exact ⟨hkept, by rw [hphase]⟩
  | running => exact ⟨hkept.enter .stopped, rfl⟩
  | crashed cause => exact ⟨hkept.enter .stopped, rfl⟩
  | stopped => exact ⟨hkept, by rw [hphase]⟩

end Desk

/-! ## Sessions -/

namespace Session

variable {Inv : Register → Option OrderRef → Office Simulated → Ledger → Prop}
  {Broken : Office Simulated → Prop} {s : Session} {calls : List Call}

/-- What holds between the calls of a session: the queues are sound, an order was accepted or waits
at most once, after it was handed in, and the invariant holds. -/
structure Stands (known : OrderRef → Prop)
    (Inv : Register → Option OrderRef → Office Simulated → Ledger → Prop) (os : Orders)
    (calls : List Call) (s : Session) : Prop where
  sound : Sound known s.state
  orders : os.Follow s.state.office.orders
  inv : Inv s.register none s.state.office s.state.book.ledger
  waiting : ∀ r ∈ s.waiting, known r ∧ (s.state.order r).type ≠ .stopLoss
  nodup : (s.waiting ++ s.register.accepted).Nodup
  subset : ∀ r ∈ s.waiting ++ s.register.accepted, r ∈ handed calls

/-- A call that may be made after others: what it hands in was not handed in before. -/
structure Allowed (known mine : OrderRef → Prop) (calls : List Call) (c : Call) : Prop where
  handed : ∀ r, c.handed? = some r → known r ∧ r ∉ handed calls
  withdrawn : ∀ side r, c = .withdraw side r → mine r

/-- What all ends of an action have in common holds of the session afterwards. -/
theorem perform_of_ends {α : Type} {act : Action (Desk Simulated) α}
    {note : α → Register → Register} {R : Session → Prop} {Q : α → Logged (Desk Simulated) → Prop}
    {E : Failure → Logged (Desk Simulated) → Prop} (h : Ends act s.desk Q E)
    (hQ : ∀ a t, Q a t → R ⟨t, note a s.register⟩) (hE : ∀ f t, E f t → R ⟨t, s.register⟩) :
    R (s.perform act note) := by
  unfold Ends at h
  unfold perform
  split
  · next ha => rw [ha] at h; exact hQ _ _ h
  · next ha => rw [ha] at h; exact hE _ _ h

/-- The order that a further call hands in comes last. -/
theorem handed_append (calls : List Call) (c : Call) :
    handed (calls ++ [c]) = handed calls ++ c.handed?.toList := by
  unfold handed
  rw [List.filterMap_append]
  cases h : c.handed? <;> simp [h]

/-- A call that keeps the invariant, and accepts no order but those that waited. -/
theorem Stands.of_kept {os : Orders} (h : Stands known Inv os calls s) (c : Call)
    {t : Logged (Desk Simulated)} {g : Register} (hk : Kept known (Inv g none) s.state t.state)
    (hwait : t.state.book.phase.orders.Sublist s.waiting)
    (hg : g.accepted = s.register.accepted ∨ t.state.book.phase.orders = [] ∧
      g.accepted = s.waiting.reverse ++ s.register.accepted) :
    Stands known Inv os (calls ++ [c]) ⟨t, g⟩ where
  sound := hk.sound
  orders := h.orders.trans hk.orders
  inv := hk.inv
  waiting r hr := by
    obtain ⟨hk', ht⟩ := h.waiting r (hwait.subset hr)
    exact ⟨hk', (hk.orders r).type_ne ht⟩
  nodup := by
    show (t.state.book.phase.orders ++ g.accepted).Nodup
    rcases hg with hg | ⟨hnil, hg⟩
    · rw [hg]
      exact h.nodup.sublist (hwait.append_right _)
    · rw [hnil, hg, List.nil_append]
      exact ((List.reverse_perm _).append_right _).nodup_iff.2 h.nodup
  subset r hr := by
    have hr : r ∈ t.state.book.phase.orders ++ g.accepted := hr
    rw [handed_append]
    refine List.mem_append_left _ (h.subset r ?_)
    rcases hg with hg | ⟨hnil, hg⟩
    · rw [hg] at hr
      exact (hwait.append_right _).subset hr
    · rw [hnil, hg, List.nil_append] at hr
      exact ((List.reverse_perm _).append_right _).subset hr

/-- A call that hands an order in which then is accepted, or waits, or neither. -/
theorem Stands.of_handed {os : Orders} (h : Stands known Inv os calls s) {c : Call} {r : OrderRef}
    (hc : c.handed? = some r) (hr : known r) (hfresh : r ∉ handed calls)
    {t : Logged (Desk Simulated)} {g : Register}
    (hk : Kept known (Inv g none) s.state t.state)
    (hg : (t.state.book.phase.orders = s.waiting ∧
        (g.accepted = s.register.accepted ∨ g.accepted = r :: s.register.accepted)) ∨
      (t.state.book.phase.orders = s.waiting ++ [r] ∧ (s.state.order r).type ≠ .stopLoss ∧
        g.accepted = s.register.accepted)) :
    Stands known Inv os (calls ++ [c]) ⟨t, g⟩ := by
  have hperm : (t.state.book.phase.orders ++ g.accepted).Sublist
      (s.waiting ++ s.register.accepted) ∨
        (t.state.book.phase.orders ++ g.accepted).Perm
          (r :: (s.waiting ++ s.register.accepted)) := by
    rcases hg with ⟨hp, hg | hg⟩ | ⟨hp, -, hg⟩
    · exact .inl (by rw [hp, hg])
    · exact .inr (by rw [hp, hg]; exact List.perm_middle)
    · exact .inr (by rw [hp, hg, List.append_assoc]; exact List.perm_middle)
  have hnot : r ∉ s.waiting ++ s.register.accepted := fun hmem => hfresh (h.subset r hmem)
  refine ⟨hk.sound, h.orders.trans hk.orders, hk.inv, ?_, ?_, ?_⟩
  · intro r' hr'
    have hold : ∀ r' ∈ s.waiting, known r' ∧ (t.state.order r').type ≠ .stopLoss := by
      intro r' hr'
      obtain ⟨hk', ht⟩ := h.waiting r' hr'
      exact ⟨hk', (hk.orders r').type_ne ht⟩
    have hr' : r' ∈ t.state.book.phase.orders := hr'
    rcases hg with ⟨hp, -⟩ | ⟨hp, ht, -⟩
    · exact hold r' (hp ▸ hr')
    · rw [hp, List.mem_append, List.mem_singleton] at hr'
      rcases hr' with hr' | rfl
      · exact hold r' hr'
      · exact ⟨hr, (hk.orders r').type_ne ht⟩
  · rcases hperm with hsub | hperm
    · exact h.nodup.sublist hsub
    · exact hperm.nodup_iff.2 (List.nodup_cons.2 ⟨hnot, h.nodup⟩)
  · intro r' hr'
    rw [handed_append, hc, Option.toList_some, List.mem_append, List.mem_singleton]
    rcases hperm with hsub | hperm
    · exact .inl (h.subset r' (hsub.subset hr'))
    · rcases List.mem_cons.1 (hperm.subset hr') with rfl | hr'
      · exact .inr rfl
      · exact .inl (h.subset r' hr')

/-- Every call keeps what stands. -/
theorem stands_apply (keeps : Keeps known mine Inv Broken) {os : Orders} {c : Call}
    (h : Stands known Inv os calls s) (hc : Allowed known mine calls c) :
    Stands known Inv os (calls ++ [c]) (s.apply c) := by
  unfold apply
  cases c with
  | load side r =>
    obtain ⟨hr, hfresh⟩ := hc.handed r rfl
    have hg : r ∉ s.register.accepted := fun hmem =>
      hfresh (h.subset r (List.mem_append_right _ hmem))
    refine perform_of_ends (R := Stands known Inv os _) (ends_load keeps h.sound hr hg h.inv) ?_ ?_
    · refine fun answer t ht => h.of_handed rfl hr hfresh ht.1
        (.inl ⟨congrArg Phase.orders ht.2, ?_⟩)
      cases answer
      · exact .inl rfl
      · exact .inr rfl
    · exact fun _ t ht =>
        h.of_handed rfl hr hfresh ht.1 (.inl ⟨congrArg Phase.orders ht.2, .inl rfl⟩)
  | loadTrades trades =>
    refine perform_of_ends (R := Stands known Inv os _)
      (ends_loadTrades keeps trades h.sound h.inv) ?_ ?_
    · exact fun _ t ht => h.of_kept _ ht.1 (ht.2 ▸ .refl _) (.inl rfl)
    · exact fun _ t ht => h.of_kept _ ht.1 (ht.2 ▸ .refl _) (.inl rfl)
  | start =>
    refine perform_of_ends (R := Stands known Inv os _)
      (ends_start keeps h.sound h.waiting h.nodup h.inv) ?_ fun _ _ hf => hf.elim
    rintro report t ⟨hk, hp⟩
    refine h.of_kept _ hk (hp ▸ List.nil_sublist _) ?_
    cases hresult : report.result with
    | started => exact .inr ⟨hp, Register.accepted_foldl_accept ..⟩
    | refused error => exact .inl rfl
    | broken cause => exact .inl rfl
  | submit side r =>
    obtain ⟨hr, hfresh⟩ := hc.handed r rfl
    have hg : r ∉ s.register.accepted := fun hmem =>
      hfresh (h.subset r (List.mem_append_right _ hmem))
    refine perform_of_ends (R := Stands known Inv os _) (ends_submit keeps h.sound hr hg h.inv) ?_
      fun _ _ hf => hf.elim
    rintro answer t ⟨hk, hp | ⟨rfl, ht, hp⟩⟩
    · refine h.of_handed rfl hr hfresh hk (.inl ⟨hp, ?_⟩)
      rcases answer with _ | _ | _
      · exact .inl rfl
      · exact .inr rfl
      · exact .inl rfl
    · exact h.of_handed rfl hr hfresh hk (.inr ⟨hp, ht, rfl⟩)
  | reject u =>
    refine perform_of_ends (R := Stands known Inv os _)
      (ends_backend keeps h.sound h.inv (f := (·.reject u)) fun _ => rfl) ?_
      fun _ _ hf => hf.elim
    exact fun _ t ht => h.of_kept _ ht.1 (ht.2 ▸ .refl _) (.inl rfl)
  | cancel r =>
    refine perform_of_ends (R := Stands known Inv os _) (ends_cancel keeps h.sound h.inv) ?_
      fun _ _ hf => hf.elim
    refine fun answer t ht => h.of_kept _ ht.1 (ht.2 ▸ .refl _) (.inl ?_)
    cases answer <;> simp [Register.afterCancel]
  | withdraw side r =>
    refine perform_of_ends (R := Stands known Inv os _)
      (ends_withdraw keeps h.sound (hc.withdrawn side r rfl) h.inv) ?_ ?_
    · refine fun answer t ht => h.of_kept _ ht.1 (ht.2 ▸ .refl _) (.inl ?_)
      cases answer <;> simp [Register.afterWithdraw]
    · exact fun _ t ht => h.of_kept _ ht.1 (ht.2 ▸ .refl _) (.inl rfl)
  | abandon =>
    refine perform_of_ends (R := Stands known Inv os _) (ends_abandon h.sound h.inv) ?_
      fun _ _ hf => hf.elim
    exact fun _ t ht => h.of_kept _ ht.1 ht.2 (.inl rfl)
  | shutdown =>
    refine perform_of_ends (R := Stands known Inv os _) (ends_shutdown h.sound h.inv) ?_
      fun _ _ hf => hf.elim
    exact fun _ t ht => h.of_kept _ ht.1 (ht.2 ▸ .refl _) (.inl rfl)
  | tick now =>
    refine perform_of_ends (R := Stands known Inv os _)
      (ends_backend keeps h.sound h.inv (f := ({ · with now })) fun _ => rfl) ?_
      fun _ _ hf => hf.elim
    exact fun _ t ht => h.of_kept _ ht.1 (ht.2 ▸ .refl _) (.inl rfl)

/-- What is needed of the calls of a session: each order is handed in once. -/
structure Proper (known mine : OrderRef → Prop) (calls : List Call) : Prop where
  nodup : (handed calls).Nodup
  handed : ∀ r ∈ handed calls, known r
  withdrawn : ∀ side r, .withdraw side r ∈ calls → mine r

/-- An invariant of a fresh book holds throughout a session. -/
theorem stands_run (keeps : Keeps known mine Inv Broken) (i : Instrument) (history buffer : Nat)
    (os : Orders) (h0 : Inv .empty none ⟨os, .empty⟩ (.empty i.id history)) (calls : List Call)
    (hc : Proper known mine calls) :
    Stands known Inv os calls ((opening i history buffer os).run calls) := by
  induction calls using List.reverseRecOn with
  | nil =>
    exact ⟨sound_new .., .refl _, h0, nofun, .nil, nofun⟩
  | append_singleton calls c ih =>
    have hnodup := hc.nodup
    have hhanded := hc.handed
    rw [handed_append] at hnodup hhanded
    have hpre : Proper known mine calls := ⟨(List.nodup_append.1 hnodup).1,
      fun r hr => hhanded r (List.mem_append_left _ hr),
      fun side r hr => hc.withdrawn side r (List.mem_append_left _ hr)⟩
    rw [run, List.foldl_append]
    refine stands_apply keeps (ih hpre) ⟨fun r hr => ⟨?_, ?_⟩, ?_⟩
    · exact hhanded r (List.mem_append_right _ (by rw [hr]; simp))
    · intro hmem
      rw [hr] at hnodup
      exact (List.nodup_append.1 hnodup).2.2 r hmem r (by simp) rfl
    · intro side r hw
      exact hc.withdrawn side r (List.mem_append_right _ (by rw [hw]; simp))

/-- What breaks off in a session does so by an overflow of depth. -/
theorem keeps_true (known mine : OrderRef → Prop) :
    Keeps known mine (fun _ _ _ _ => True) (fun _ => True) where
  upkeep _ := upkeep_true known
  accept _ _ _ _ _ _ _ _ := trivial
  pass _ _ _ _ _ _ _ _ := trivial
  replay _ _ _ _ _ _ := Ledger.breaks_recordTrade.mono (fun _ _ _ => trivial) fun _ _ _ => trivial
  withdraw _ _ _ _ _ _ _ := Ledger.breaks_withdraw.mono (fun _ _ _ => trivial) fun _ _ _ => trivial
  cancel _ _ _ _ _ _ := trivial
  backend _ _ _ _ _ _ := trivial
  broken _ _ _ _ := trivial

/-- The queues of a session are sound. -/
theorem sound_run (i : Instrument) (history buffer : Nat) (os : Orders) (calls : List Call)
    (hnodup : (handed calls).Nodup) :
    Sound (fun _ => True) ((opening i history buffer os).run calls).state :=
  (stands_run (keeps_true _ fun _ => True) i history buffer os trivial calls
    ⟨hnodup, fun _ _ => trivial, fun _ _ _ => trivial⟩).sound

end Session

end Bourse
