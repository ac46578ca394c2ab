import Bourse.Proofs.Book.Process
import Bourse.Proofs.Book.Rules

/-!
# The end of a book

A book waits for its start, runs, and ends (`Phase.stage`). It ends when it is stopped or when
matching breaks off, and no call takes it back (`Desk.respects_submit` and the like).

What is handed in to a book that has ended depends on its type alone: a stop-loss is parked as
always, because it goes past the phase, and everything else is refused
(`Desk.ends_submit_of_ended`).
-/

namespace Bourse

/-- How far a book has come: it waits, runs, or has ended. -/
def Phase.stage : Phase → Nat
  | .waiting _ => 0
  | .running => 1
  | .crashed _ | .stopped => 2

/-- Matching broke off, and nobody has asked for the end of it yet. -/
def Phase.isCrashed : Phase → Bool
  | .crashed _ => true
  | .waiting _ | .running | .stopped => false

/-- Matching has ended, or has broken off. -/
def Phase.isEnded : Phase → Bool
  | .crashed _ | .stopped => true
  | .waiting _ | .running => false

/-- The phase that shutting down a book leaves: a book that was started has ended. -/
def Phase.afterShutdown : Phase → Phase
  | .waiting submissions => .waiting submissions
  | .running | .crashed _ | .stopped => .stopped

/-- The book after it was shut down. -/
def Book.stopped (b : Book) : Book := { b with phase := b.phase.afterShutdown }

@[simp] theorem Book.instrument_stopped (b : Book) : b.stopped.instrument = b.instrument := rfl

/-- What a book in this phase answers when it is shut down. -/
def Phase.farewell : Phase → Except EngineError Unit
  | .crashed cause => .error (.task cause.message)
  | .waiting _ | .running | .stopped => .ok ()

/-- A book has ended in the last two stages of its life. -/
theorem Phase.isEnded_iff {p : Phase} : p.isEnded = true ↔ 2 ≤ p.stage := by
  cases p <;> simp [isEnded, stage]

/-- There are three stages. -/
theorem Phase.stage_le_two (p : Phase) : p.stage ≤ 2 := by cases p <;> simp [stage]

/-- Once started, a book that is stopped has ended. -/
theorem Phase.isEnded_afterShutdown {p : Phase} (h : 1 ≤ p.stage) :
    p.afterShutdown.isEnded = true := by
  cases p with
  | waiting submissions => exact absurd h (Nat.not_succ_le_zero 0)
  | running | crashed cause | stopped => rfl

/-- Stopping a book takes it to no earlier stage. -/
theorem Phase.stage_le_afterShutdown (p : Phase) : p.stage ≤ p.afterShutdown.stage := by
  cases p <;> simp [stage, afterShutdown]

/-- A book that has ended does not match orders. -/
theorem Book.isRunning_of_isEnded {b : Book} (h : b.phase.isEnded = true) :
    b.isRunning = false := by
  unfold Book.isRunning
  cases hphase : b.phase with
  | running =>
    rw [hphase] at h
    cases h
  | waiting submissions | crashed cause | stopped => rfl

/-- A book that was started and is not running has ended. -/
theorem Book.isEnded_of_started {b : Book} (h : 1 ≤ b.phase.stage)
    (hrunning : b.isRunning = false) : b.phase.isEnded = true := by
  cases hphase : b.phase with
  | waiting submissions =>
    rw [hphase] at h
    exact absurd h (Nat.not_succ_le_zero 0)
  | running => exact absurd hphase (of_decide_eq_false hrunning)
  | crashed cause | stopped => rfl

/-- A book that crashed has ended. -/
theorem Phase.isEnded_of_isCrashed {p : Phase} (h : p.isCrashed = true) : p.isEnded = true := by
  cases p with
  | crashed cause => rfl
  | waiting submissions | running | stopped => cases h

/-- A book that crashed does not match orders. -/
theorem Book.isRunning_of_isCrashed {b : Book} (h : b.phase.isCrashed = true) :
    b.isRunning = false :=
  isRunning_of_isEnded (Phase.isEnded_of_isCrashed h)

namespace Desk

open Bourse.Action

variable {σ : Type} {S : Settlement σ} {s : Logged (Desk σ)} {side : Side} {r : OrderRef}

/-- The book has come as far as it had, or farther. -/
def Advances (d d' : Desk σ) : Prop := d.book.phase.stage ≤ d'.book.phase.stage

/-- Matching leaves the phase to its caller. -/
theorem matching_phase : Matching S fun d d' => d'.book.phase = d.book.phase where
  refl _ := rfl
  trans h h' := h'.trans h
  queue d q side := by cases side <;> rfl
  dormant d q side := by cases side <;> rfl
  ledger _ _ := rfl
  activate _ _ := rfl
  note _ := rfl
  fill _ := rfl
  breakOff _ := rfl

/-- Stages only advance, over any number of actions. -/
theorem chains_advances : Chains (Advances (σ := σ)) := ⟨fun _ => Nat.le_refl _, Nat.le_trans⟩

/-- An action that leaves the phase takes no book back. -/
theorem respects_advances {α : Type} {act : Action (Desk σ) α}
    (h : Respects (fun d d' => d'.book.phase = d.book.phase) act) :
    Respects Advances act := fun s =>
  (h s).mono (fun _ _ ht => (congrArg Phase.stage ht).ge) fun _ _ ht =>
    (congrArg Phase.stage ht).ge

/-! ## Calls -/

/-- Matching one order takes the book to no earlier stage. -/
theorem respects_runTask : Respects Advances (runTask S r) := by
  intro s
  simp only [runTask, ends_bind, ends_attempt]
  refine (matching_phase.process s).mono ?_ ?_
  · exact fun _ t ht => (congrArg Phase.stage ht).ge
  · intro cause t _
    exact Phase.stage_le_two _

/-- Matching one submission takes the book to no earlier stage. -/
theorem respects_takeOne (sub : Submission) : Respects Advances (takeOne S sub) := by
  have hannounce (d : Desk σ) : Respects Advances (announce d sub) :=
    .ite (.log chains_advances _) (.pure chains_advances _)
  refine Respects.current fun d => .ite ?_ (.pure chains_advances _)
  exact (hannounce d).bind chains_advances fun _ => respects_runTask

/-- Matching the submissions that waited takes the book to no earlier stage. -/
theorem respects_takeSubmissions (submissions : List Submission) :
    Respects Advances (takeSubmissions S submissions) := by
  induction submissions with
  | nil => exact .pure chains_advances _
  | cons sub rest ih =>
    rw [takeSubmissions_cons]
    exact Respects.current fun d => (respects_takeOne sub).bind chains_advances fun _ =>
      ih.bind chains_advances fun _ => .pure chains_advances _

/-- Handing an order in takes the book to no earlier stage. -/
theorem respects_submit : Respects Advances (submit S side r) := by
  intro s
  have hsame : Advances s.state s.state := Nat.le_refl _
  simp only [submit, checkSide, ends_bind, ends_current, ends_pure]
  split
  · exact hsame
  simp only [ends_bind, ends_current]
  split
  · exact hsame
  split
  · exact ends_bind.2 (ends_parkStopLoss fun _ => (congrArg Phase.stage
      (Book.phase_withStopLossQueue ..)).ge)
  cases hp : s.state.book.phase with
  | waiting submissions => exact (congrArg Phase.stage hp).trans_le (Nat.zero_le _)
  | running => exact ends_bind.2 ((respects_runTask s).imp fun _ _ ht => ht)
  | crashed cause | stopped => exact hsame

/-- A start takes no book back, and a book that waited for it has been started. -/
theorem ends_start_stage (s : Logged (Desk σ)) : Ends (start S) s
    (fun _ t => Advances s.state t.state ∧ 1 ≤ t.state.book.phase.stage)
    (fun _ t => Advances s.state t.state ∧ 1 ≤ t.state.book.phase.stage) := by
  simp only [start, ends_bind, ends_current]
  cases hp : s.state.book.phase with
  | waiting submissions =>
    -- whatever the book has come to, it waited before
    have hdone : ∀ t : Logged (Desk σ), 1 ≤ t.state.book.phase.stage →
        Ends (takeSubmissions S submissions) t
          (fun _ u => Advances s.state u.state ∧ 1 ≤ u.state.book.phase.stage)
          (fun _ u => Advances s.state u.state ∧ 1 ≤ u.state.book.phase.stage) := by
      intro t ht
      have hzero : ∀ u : Desk σ, Advances s.state u := fun u =>
        (congrArg Phase.stage hp).trans_le (Nat.zero_le _)
      exact (respects_takeSubmissions submissions t).mono
        (fun _ u hu => ⟨hzero u.state, ht.trans hu⟩)
        fun _ u hu => ⟨hzero u.state, ht.trans hu⟩
    simp only [enter, ends_bind, ends_changeBook, ends_attempt]
    refine (matching_phase.reconcile _).mono ?_ ?_
    · intro _ t _
      simp only [ends_log]
      exact hdone _ (Nat.le_refl 1)
    · intro cause t ht
      exact hdone t ((congrArg Phase.stage ht).symm ▸ Nat.le_succ 1)
  | running | crashed cause | stopped =>
    refine ⟨Nat.le_refl _, ?_⟩
    rw [hp]
    exact Nat.le_of_ble_eq_true rfl

/-- What shutting down a book does: it answers with what the matching broke off with, if it did,
and the book has ended if it was started. -/
theorem ends_shutdown_stopped (s : Logged (Desk σ)) : Ends shutdown s
    (fun answer t => answer = s.state.book.phase.farewell ∧
      t.state = { s.state with book := s.state.book.stopped })
    (fun _ _ => False) := by
  simp only [shutdown, ends_bind, ends_current, Book.stopped]
  have hself : ∀ {p : Phase}, s.state.book.phase = p →
      s.state = { s.state with book := { s.state.book with phase := p } } := by
    rintro _ rfl
    rfl
  cases hp : s.state.book.phase with
  | waiting submissions | stopped => exact ⟨rfl, hself hp⟩
  | running | crashed cause => exact ⟨rfl, rfl⟩

/-- Stopping the book takes it to no earlier stage. -/
theorem respects_shutdown : Respects Advances (shutdown : Action (Desk σ) _) := by
  intro s
  refine (ends_shutdown_stopped s).mono ?_ fun _ _ hf => hf.elim
  rintro _ t ⟨-, ht⟩
  rw [ht]
  exact Phase.stage_le_afterShutdown _

/-- Those who give up take the book to no earlier stage. -/
theorem respects_abandon : Respects Advances (abandon : Action (Desk σ) _) := by
  intro s
  simp only [abandon, ends_bind, ends_current]
  cases hp : s.state.book.phase with
  | waiting submissions => exact (congrArg Phase.stage hp).trans_le (Nat.zero_le _)
  | running | crashed cause | stopped => exact Nat.le_refl _

/-! ## Handing in an order -/

/-- A stop-loss that is not closed is parked, whatever the phase. -/
theorem ends_submit_stopLoss (hside : (s.state.order r).side = side)
    (hopen : (s.state.order r).closed = false) (htype : (s.state.order r).type = .stopLoss) :
    Ends (submit S side r) s (fun answer t => answer = .ok .done ∧ t.state = s.state.parked r)
      (fun _ _ => False) := by
  simp only [submit, checkSide, ends_bind, ends_current, ends_pure, if_pos hside, hopen,
    Bool.false_eq_true, if_false, if_pos htype]
  exact ends_parkStopLoss fun _ => ⟨trivial, rfl⟩

/-- A book that has ended refuses anything else that is not closed, and nothing changes. -/
theorem ends_submit_of_ended (hended : s.state.book.phase.isEnded = true)
    (hside : (s.state.order r).side = side) (hopen : (s.state.order r).closed = false)
    (htype : (s.state.order r).type ≠ .stopLoss) :
    Ends (submit S side r) s
      (fun answer t => answer = .error (.bookStopped s.state.book.instrument) ∧ t = s)
      (fun _ _ => False) := by
  simp only [submit, checkSide, ends_bind, ends_current, ends_pure, if_pos hside, hopen,
    Bool.false_eq_true, if_false, if_neg htype]
  cases hp : s.state.book.phase with
  | waiting submissions | running =>
    rw [hp] at hended
    cases hended
  | crashed cause | stopped => exact ⟨rfl, rfl⟩

/-- A running book takes in what is not closed, however matching it ends. -/
theorem ends_submit_of_running (hrunning : s.state.book.isRunning = true)
    (hside : (s.state.order r).side = side) (hopen : (s.state.order r).closed = false) :
    Ends (submit S side r) s (fun answer _ => answer = .ok .done) (fun _ _ => False) := by
  have hp : s.state.book.phase = .running := of_decide_eq_true hrunning
  by_cases htype : (s.state.order r).type = .stopLoss
  · exact (ends_submit_stopLoss hside hopen htype).imp fun _ _ ht => ht.1
  · simp only [submit, checkSide, ends_bind, ends_current, ends_pure, if_pos hside, hopen,
      Bool.false_eq_true, if_false, if_neg htype, hp, runTask, ends_attempt]
    exact (Ends.any _ _).mono (fun _ _ _ => trivial) fun _ _ _ => trivial

end Desk

end Bourse
