import Bourse.Proofs.Clean.Matching
import Bourse.Proofs.Floor.Basic

/-!
# Calls on a book with careful settlement

With a careful settlement a book is in order and has not crashed (`Desk.Working`) between the calls
that are made on it, and none of them breaks off, whoever comes in while the book waits for
settlement. There is one lemma for each call. An order that is brought must be a known one that did
not come in before; that those who wait for the start are new to the book when it comes is kept
along with the rest (`Desk.MayEnter`).
-/

namespace Bourse.Desk

open Bourse.Action

variable {σ : Type} {S : Settlement σ} {others : Others σ} {os : Orders}
  {rs came accepted waiting : List OrderRef} {g : Register} {s t : Logged (Desk σ)} {d d' : Desk σ}
  {side : Side} {r : OrderRef}

/-- The orders that wait may be taken in one after the other: they came in and are active, none of
them waits twice, and none was accepted. -/
structure MayEnter (came accepted : List OrderRef) (d : Desk σ) (waiting : List OrderRef) :
    Prop where
  came : ∀ r ∈ waiting ++ accepted, r ∈ came
  type : ∀ r ∈ waiting, (d.order r).type ≠ .stopLoss
  nodup : (waiting ++ accepted).Nodup

namespace MayEnter

/-- Those who wait may enter still as orders are filled and closed. -/
theorem follow (h : MayEnter came accepted d waiting)
    (hw : d.office.orders.Follow d'.office.orders) :
    MayEnter came accepted d' waiting :=
  ⟨h.came, fun r hr => (hw r).type_ne (h.type r hr), h.nodup⟩

/-- Some of those who may enter may enter without the others. -/
theorem sublist {kept : List OrderRef} (h : MayEnter came accepted d waiting)
    (hsub : kept.Sublist waiting) : MayEnter came accepted d kept where
  came r hr := h.came r ((hsub.append_right _).subset hr)
  type r hr := h.type r (hsub.subset hr)
  nodup := h.nodup.sublist (hsub.append_right _)

/-- An order came in, and was neither accepted nor does it wait. -/
theorem later (h : MayEnter came accepted d waiting) (r : OrderRef) :
    MayEnter (r :: came) accepted d waiting :=
  ⟨fun r' hr' => List.mem_cons_of_mem _ (h.came r' hr'), h.type, h.nodup⟩

/-- An order came in and was accepted at once. -/
theorem accept (h : MayEnter came accepted d waiting) (hnew : r ∉ came) :
    MayEnter (r :: came) (r :: accepted) d waiting where
  came r' hr' := by
    rcases List.mem_cons.1 (List.perm_middle.mem_iff.1 hr') with rfl | hmem
    · exact List.mem_cons_self
    · exact List.mem_cons_of_mem _ (h.came r' hmem)
  type := h.type
  nodup := List.nodup_middle.2 (List.nodup_cons.2 ⟨fun hmem => hnew (h.came r hmem), h.nodup⟩)

/-- An order came in and waits. -/
theorem wait (h : MayEnter came accepted d waiting) (hnew : r ∉ came)
    (ht : (d.order r).type ≠ .stopLoss) : MayEnter (r :: came) accepted d (waiting ++ [r]) := by
  have h' := h.accept hnew
  refine ⟨fun r' hr' => h'.came r' (List.append_cons .. ▸ hr'), fun r' hr' => ?_,
    List.append_cons .. ▸ h'.nodup⟩
  rcases List.mem_append.1 hr' with hr' | hr'
  · exact h.type r' hr'
  · exact List.mem_singleton.1 hr' ▸ ht

/-- The first of those who wait is taken in. -/
theorem enter (h : MayEnter came accepted d (r :: waiting)) :
    MayEnter came (r :: accepted) d waiting where
  came r' hr' := h.came r' (List.perm_middle.mem_iff.1 hr')
  type r' hr' := h.type r' (List.mem_cons_of_mem _ hr')
  nodup := List.nodup_middle.2 h.nodup

end MayEnter

/-- Between two calls the desk is in order, its book has not crashed, and those who wait for the
start may be taken in. -/
structure Working (os : Orders) (rs came accepted : List OrderRef)
    (s : Logged (Desk σ)) : Prop where
  inOrder : InOrder os rs accepted none s
  phase : s.state.book.phase.isCrashed = false
  waiting : MayEnter came accepted s.state s.state.book.phase.orders

namespace Working

/-- A book goes on working as long as it is in order. -/
theorem went (h : Working os rs came accepted s) (ht : InOrder os rs accepted none t)
    (hw : Went s.state t.state) : Working os rs came accepted t :=
  ⟨ht, hw.phase ▸ h.phase, hw.phase ▸ h.waiting.follow hw.orders⟩

/-- An order came in that the book did not take. -/
theorem later (h : Working os rs came accepted s) (r : OrderRef) :
    Working os rs (r :: came) accepted s := ⟨h.inOrder, h.phase, h.waiting.later r⟩

/-- An order came in and was accepted. -/
theorem accept (h : Working os rs came accepted s) (hnew : r ∉ came)
    (ht : InOrder os rs (r :: accepted) none t) (hw : Went s.state t.state) :
    Working os rs (r :: came) (r :: accepted) t :=
  ⟨ht, hw.phase ▸ h.phase, hw.phase ▸ (h.waiting.accept hnew).follow hw.orders⟩

/-- The book enters another phase. -/
theorem enter {p : Phase} (h : InOrder os rs accepted none s) (hp : p.isCrashed = false)
    (hwait : MayEnter came accepted s.state p.orders) : Working os rs came accepted
      ⟨{ s.state with book := { s.state.book with phase := p } }, s.journal⟩ :=
  ⟨h.enter p, hp, hwait.came, hwait.type, hwait.nodup⟩

/-- What did not come in was not accepted. -/
theorem notMem_accepted (h : Working os rs came accepted s) (hnew : r ∉ came) : r ∉ accepted :=
  fun hmem => hnew (h.waiting.came r (List.mem_append_right _ hmem))

end Working

/-! ## Orders that come in -/

/-- An order that is closed or dormant leaves the desk in order without being shown. -/
theorem InOrder.pass (h : InOrder os rs accepted none s) (hr : r ∈ rs) (hnew : r ∉ accepted)
    (ht : (s.state.order r).closed = true ∨ (s.state.order r).type = .stopLoss) :
    InOrder os rs (r :: accepted) none s := ⟨h.sound, h.ledger.pass hr hnew ht⟩

/-- An active order leaves the desk in order while it is matched. -/
theorem InOrder.accept (h : InOrder os rs accepted none s) (hr : r ∈ rs) (hnew : r ∉ accepted)
    (ht : (s.state.order r).type ≠ .stopLoss) : InOrder os rs (r :: accepted) (some r) s :=
  ⟨h.sound, h.ledger.accept hr hnew ht⟩

/-- A dormant stop-loss is put aside. -/
theorem clean_parkStopLoss (h : InOrder os rs accepted none s) (hr : r ∈ rs) (hnew : r ∉ accepted)
    (ht : (s.state.order r).type = .stopLoss) :
    Ends (parkStopLoss r) s
      (fun _ t => InOrder os rs (r :: accepted) none t ∧ Went s.state t.state)
      (fun _ _ => False) := by
  simp only [parkStopLoss, ends_bind, ends_current, ends_changeStopLossQueue, ends_log]
  have hparked : InOrder os rs (r :: accepted) none ⟨s.state.parked r, s.journal⟩ :=
    (h.pass hr hnew (.inr ht)).of_sound (h.sound.parked hr) rfl (Book.ledger_withStopLossQueue ..)
  exact ⟨hparked.log Severity.noConfusion, .of_office rfl (Book.phase_withStopLossQueue ..)⟩

/-- Loading an order that is new to the book does not break off. -/
theorem clean_load (ho : Orderly os rs) (h : Working os rs came g.accepted s) (hr : r ∈ rs)
    (hnew : r ∉ came) :
    Ends (load side r) s (fun answer t => Working os rs (r :: came) (g.loaded r answer).accepted t)
      (fun _ _ => False) := by
  have hnot := h.notMem_accepted hnew
  simp only [load, checkSide, ends_bind, ends_current, ends_pure]
  by_cases hside : (s.state.order r).side = side
  · simp only [hside, if_true, ends_bind, ends_current]
    split
    · next hclosed =>
      simp only [ends_bind, ends_log, ends_pure]
      exact h.accept hnew ((h.inOrder.pass hr hnot (.inl hclosed)).log Severity.noConfusion)
        (.refl _)
    · simp only [loadOld, ends_bind, ends_current]
      split
      · next ht =>
        refine (clean_parkStopLoss h.inOrder hr hnot ht).imp ?_
        exact fun _ t ht => h.accept hnew ht.1 ht.2
      · next ht =>
        refine (clean_rest ho (h.inOrder.accept hr hnot ht) ⟨hr, rfl, ht⟩).imp ?_
        exact fun _ t ht => h.accept hnew ht.1 ht.2
  · simp only [hside, if_false]
    exact h.later r

/-- Matching an order that came in does not break off. -/
theorem clean_runTask (hS : S.Careful) (ho : Orderly os rs) (h : InOrder os rs accepted none s)
    (hr : r ∈ rs) (hnew : r ∉ accepted) (ht : (s.state.order r).type ≠ .stopLoss) :
    Ends (Amid.runTask S others r) s
      (fun _ t => InOrder os rs (r :: accepted) none t ∧ Went s.state t.state)
      (fun _ _ => False) := by
  simp only [Amid.runTask, ends_bind, ends_attempt]
  exact (clean_process hS ho (h.accept hr hnew ht) ⟨hr, rfl, ht⟩).mono (fun _ _ ht => ht)
    fun _ _ hf => hf.elim

/-- Handing in an order that is new to the book does not break off. -/
theorem clean_submit (hS : S.Careful) (ho : Orderly os rs) (h : Working os rs came g.accepted s)
    (hr : r ∈ rs) (hnew : r ∉ came) :
    Ends (Amid.submit S others side r) s
      (fun answer t => Working os rs (r :: came) (g.submitted r answer).accepted t)
      (fun _ _ => False) := by
  have hnot := h.notMem_accepted hnew
  simp only [Amid.submit, checkSide, ends_bind, ends_current, ends_pure]
  by_cases hside : (s.state.order r).side = side
  · simp only [hside, if_true, ends_bind, ends_current]
    split
    · next hclosed =>
      simp only [ends_bind, ends_log, ends_pure]
      exact h.accept hnew ((h.inOrder.pass hr hnot (.inl hclosed)).log Severity.noConfusion)
        (.refl _)
    · split
      · next ht =>
        rw [ends_bind]
        refine (clean_parkStopLoss h.inOrder hr hnot ht).imp ?_
        exact fun _ t ht => h.accept hnew ht.1 ht.2
      · next ht =>
        cases hphase : s.state.book.phase with
        | waiting submissions =>
          have hwait := h.waiting.wait hnew ht
          rw [hphase] at hwait
          refine .enter h.inOrder rfl ?_
          rw [Phase.orders, List.map_append]
          exact hwait
        | running =>
          simp only [ends_bind]
          refine (clean_runTask hS ho h.inOrder hr hnot ht).imp ?_
          exact fun _ t ht => h.accept hnew ht.1 ht.2
        | crashed cause => exact h.later r
        | stopped => exact h.later r
  · simp only [hside, if_false]
    exact h.later r

/-! ## The start -/

/-- The orders that waited for the start are matched one after the other. -/
theorem clean_takeSubmissions (hS : S.Careful) (ho : Orderly os rs) (hcame : ∀ r ∈ came, r ∈ rs)
    (submissions : List Submission) (h : InOrder os rs accepted none s)
    (hp : s.state.book.phase = .running)
    (hwait : MayEnter came accepted s.state (submissions.map (·.order))) :
    Ends (Amid.takeSubmissions S others submissions) s
      (fun _ t => Working os rs came ((submissions.map (·.order)).reverse ++ accepted) t)
      (fun _ _ => False) := by
  induction submissions generalizing s accepted with
  | nil =>
    refine ⟨h, ?_, ?_⟩
    · rw [hp]
      rfl
    · rw [hp]
      exact hwait
  | cons sub rest ih =>
    have hannounce : Ends (announce s.state sub) s
        (fun _ t => InOrder os rs accepted none t ∧ t.state = s.state) (fun _ _ => False) := by
      unfold announce
      split
      · exact ⟨h.log Severity.noConfusion, rfl⟩
      · exact ⟨h, rfl⟩
    have hnot : sub.order ∉ accepted := fun hmem =>
      (List.nodup_append.1 hwait.nodup).2.2 _ List.mem_cons_self _ hmem rfl
    rw [Amid.takeSubmissions]
    simp only [Amid.takeOne, ends_bind, ends_current, Book.isRunning, hp, decide_true, if_true]
    refine hannounce.imp ?_
    rintro _ t ⟨ht, heq⟩
    refine (clean_runTask hS ho ht (hcame _ (hwait.came _ List.mem_cons_self)) hnot
      (heq ▸ hwait.type _ List.mem_cons_self)).imp ?_
    rintro _ u ⟨hu, hwent⟩
    rw [heq] at hwent
    refine (ih hu (hwent.phase.trans hp) (hwait.enter.follow hwent.orders)).imp ?_
    intro _ v hv
    rw [List.map_cons, List.reverse_cons, List.append_assoc]
    exact hv

/-- The start of a book does not break off. -/
theorem clean_start (hS : S.Careful) (ho : Orderly os rs) (hcame : ∀ r ∈ came, r ∈ rs)
    (h : Working os rs came g.accepted s) :
    Ends (Amid.start S others) s
      (fun report t => report.result.isBroken = false ∧
        Working os rs came (g.afterStart s.state.book.phase.orders report.result).accepted t)
      (fun _ _ => False) := by
  have hwait := h.waiting
  simp only [Amid.start, ends_bind, ends_current]
  cases hphase : s.state.book.phase with
  | waiting submissions =>
    rw [hphase] at hwait
    simp only [ends_bind, ends_attempt]
    refine (clean_reconcile hS ho (h.inOrder.enter .stopped)).mono ?_ fun _ _ hf => hf.elim
    rintro _ t ⟨ht, hwent⟩
    have hrunning : InOrder os rs g.accepted none
        ⟨{ t.state with book := { t.state.book with phase := .running } },
          t.journal.push (.matchingStarted s.state.book.instrument)⟩ :=
      (ht.enter .running).log Severity.noConfusion
    refine (clean_takeSubmissions hS ho hcame submissions hrunning rfl
      (hwait.follow hwent.orders)).imp ?_
    intro answers u hu
    refine ⟨rfl, ?_⟩
    show Working os rs came (List.foldl Register.accept g _).accepted u
    rw [Register.accepted_foldl_accept]
    exact hu
  | running => exact ⟨rfl, h⟩
  | crashed cause => exact ⟨rfl, h⟩
  | stopped => exact ⟨rfl, h⟩

/-! ## Other calls -/

/-- Replaying trades does not break off, by induction on their list. -/
theorem clean_loadTrades (trades : List Trade) (h : Working os rs came accepted s) :
    Ends (loadTrades trades) s (fun _ t => Working os rs came accepted t) (fun _ _ => False) := by
  have hlog : InOrder os rs accepted none ⟨s.state, _⟩ := h.inOrder.log
    (e := .loadingOldTrades s.state.book.instrument trades.length) Severity.noConfusion
  simp only [loadTrades, replayTrades, ends_bind, ends_current, ends_log]
  refine (Ends.forM (P := fun _ t => Working os rs came accepted t) ?_
    (h.went hlog (.refl _))).imp ?_
  · intro trade rest t ht
    rw [ends_onLedger]
    refine (ht.inOrder.ledger.ends_recordTrade trade).imp ?_
    exact fun _ l hl => ht.went (ht.inOrder.withLedger hl) ⟨.refl _, rfl⟩
  · intro _ t ht
    split
    · exact ht.went ⟨ht.inOrder.sound.priced _, ht.inOrder.ledger⟩ ⟨.refl _, rfl⟩
    · exact ht

/-- Withdrawing an order does not break off. -/
theorem clean_withdraw (ho : Orderly os rs) (h : Working os rs came accepted s) :
    Ends (withdraw side r) s (fun _ t => Working os rs came accepted t) (fun _ _ => False) := by
  refine (accurate_withdraw ho h.inOrder.ledger).imp ?_
  rintro _ ⟨_, j⟩ ⟨l, rfl, hl⟩
  exact h.went (h.inOrder.withLedger hl) ⟨.refl _, rfl⟩

/-- A cancellation by settlement does not break off. -/
theorem clean_cancel (h : Working os rs came accepted s) :
    Ends (onOffice (Office.onOrders (Orders.cancel r))) s
      (fun _ t => Working os rs came accepted t) (fun _ _ => False) := by
  rw [ends_onOffice]
  refine (Office.ends_cancel (s := ⟨s.state.office, s.journal⟩) h.inOrder.ledger.spotless).imp ?_
  exact fun _ o ho => h.went (h.inOrder.dim ho.2 ho.1) ⟨ho.2.follows, rfl⟩

/-- A change of settlement itself leaves the book working. -/
theorem clean_backend (f : σ → σ) (h : Working os rs came accepted s) :
    Ends (onOffice (Office.onBackend (Action.change f))) s
      (fun _ t => Working os rs came accepted t) (fun _ _ => False) :=
  h.went (h.inOrder.dim (.refl _) h.inOrder.ledger.spotless) ⟨.refl _, rfl⟩

/-- Those who give up leave the book working. -/
theorem clean_abandon (h : Working os rs came accepted s) :
    Ends abandon s (fun _ t => Working os rs came accepted t) (fun _ _ => False) := by
  have hwait := h.waiting
  simp only [abandon, ends_bind, ends_current]
  split
  · next submissions hphase =>
    rw [hphase] at hwait
    refine .enter h.inOrder rfl (hwait.sublist ?_)
    rw [Phase.orders, List.map_map]
    exact (List.take_sublist ..).map _
  · exact h

/-- Stopping the book does not break off. -/
theorem clean_shutdown (h : Working os rs came accepted s) :
    Ends shutdown s (fun _ t => Working os rs came accepted t) (fun _ _ => False) := by
  simp only [shutdown, ends_bind, ends_current]
  split
  · exact h
  · exact h
  · exact .enter (h.inOrder.log Severity.noConfusion) rfl (h.waiting.sublist (List.nil_sublist _))
  · exact .enter (h.inOrder.log Severity.noConfusion) rfl (h.waiting.sublist (List.nil_sublist _))

end Bourse.Desk
