import Bourse.Proofs.Floor.Basic
import Bourse.Proofs.Floor.StopLoss

/-!
# Books that have come to their end

A book that was started and later stopped has ended, and so has one whose matching broke off
(`Floor.CameToEnd`); nothing that is done to it takes it back (`Floor.isEnded_of_cameToEnd`).

It fills no order and activates none any more (`Floor.idle_apply`). So a stop-loss that it parks
then stays parked, although its trigger may be passed; every other order is refused
(`Floor.submit_of_cameToEnd`).
-/

namespace Bourse

open Bourse.Action

variable {σ α : Type} {S : Settlement σ}

namespace Desk

variable {d d' d'' : Desk σ} {s : Logged (Desk σ)} {side : Side} {r : OrderRef}

/-- The orders are as they were, and no dormant stop-loss has left its queue. -/
structure Idle (d d' : Desk σ) : Prop where
  orders : d'.office.orders = d.office.orders
  dormant : ∀ side, (d.book.stopLossQueue side).bag ≤ (d'.book.stopLossQueue side).bag

/-- Idle stretches follow each other. -/
theorem chains_idle : Chains (Idle (σ := σ)) where
  refl _ := ⟨rfl, fun _ => le_rfl⟩
  trans h h' := ⟨h'.orders.trans h.orders, fun side => (h.dormant side).trans (h'.dormant side)⟩

theorem Idle.refl (d : Desk σ) : Idle d d := chains_idle.refl d

/-- Parking a stop-loss changes no order. -/
theorem idle_parked (d : Desk σ) (r : OrderRef) : Idle d (d.parked r) := by
  refine ⟨rfl, fun side => ?_⟩
  unfold parked
  rw [Book.stopLossQueue_withStopLossQueue]
  split
  · next hside =>
    rw [Queue.push, Queue.bag_pushItem, hside]
    exact Multiset.le_cons_self _ _
  · exact le_rfl

/-- The ledger changes no order. -/
theorem idle_onLedger (act : Action Ledger α) : Respects Idle (onLedger (σ := σ) act) :=
  .within fun _ => (Ends.any _ _).mono
    (fun _ u _ => ⟨rfl, fun side => (Book.stopLossQueue_withLedger _ side u.state ▸ le_rfl)⟩)
    fun _ u _ => ⟨rfl, fun side => (Book.stopLossQueue_withLedger _ side u.state ▸ le_rfl)⟩

/-- A queue of resting orders changes no order. -/
theorem idle_changeQueue (f : Queue → Queue) : Respects (Idle (σ := σ)) (changeQueue side f) :=
  fun s => ⟨rfl, fun side' => by
    show _ ≤ ((s.state.book.withQueue _ _).stopLossQueue side').bag
    rw [Book.stopLossQueue_withQueue]⟩

/-- Resting changes no order. -/
theorem idle_rest : Respects (Idle (σ := σ)) (rest side r) :=
  Respects.current fun _ => (idle_changeQueue _).bind chains_idle fun _ => idle_onLedger _

/-- Loading changes no order. -/
theorem idle_load : Respects (Idle (σ := σ)) (load side r) :=
  respects_load chains_idle idle_rest fun s => ends_parkStopLoss fun _ => idle_parked s.state _

/-- Withdrawing changes no order. -/
theorem idle_withdraw : Respects (Idle (σ := σ)) (withdraw side r) :=
  respects_withdraw chains_idle idle_onLedger

/-- Replaying trades changes no order. -/
theorem idle_loadTrades (trades : List Trade) : Respects (Idle (σ := σ)) (loadTrades trades) :=
  respects_loadTrades chains_idle idle_onLedger
    (fun _ _ => ⟨rfl, fun side => by cases side <;> exact le_rfl⟩) trades

/-- Another phase changes no order. -/
theorem idle_enter (p : Phase) : Idle d { d with book := { d.book with phase := p } } :=
  ⟨rfl, fun side => by cases side <;> exact le_rfl⟩

/-! ## Calls to a book that has ended -/

variable (hended : s.state.book.phase.isEnded = true)

include hended

/-- A book that has ended parks what is handed in at most. -/
theorem idle_submit_of_ended : Ends (submit S side r) s (fun _ t => Idle s.state t.state)
    (fun _ t => Idle s.state t.state) := by
  by_cases hside : (s.state.order r).side = side
  · cases hc : (s.state.order r).closed with
    | true =>
      simp only [submit, checkSide, ends_bind, ends_current, ends_pure, if_pos hside, hc,
        if_true, ends_log]
      exact .refl _
    | false =>
      by_cases htype : (s.state.order r).type = .stopLoss
      · exact (ends_submit_stopLoss hside hc htype).mono (fun _ t ht => ht.2 ▸ idle_parked _ _)
          fun _ _ hf => hf.elim
      · exact (ends_submit_of_ended hended hside hc htype).mono (fun _ t ht => ht.2 ▸ .refl _)
          fun _ _ hf => hf.elim
  · simp only [submit, checkSide, ends_bind, ends_current, ends_pure, if_neg hside]
    exact .refl _

/-- A book that has ended is not started again. -/
theorem idle_start_of_ended : Ends (start S) s (fun _ t => Idle s.state t.state)
    (fun _ t => Idle s.state t.state) := by
  simp only [start, ends_bind, ends_current]
  cases hp : s.state.book.phase with
  | waiting submissions =>
    rw [hp] at hended
    cases hended
  | running | crashed cause | stopped => exact .refl _

/-- Nobody waits for a book that has ended. -/
theorem idle_abandon_of_ended : Ends abandon s (fun _ t => Idle s.state t.state)
    (fun _ t => Idle s.state t.state) := by
  simp only [abandon, ends_bind, ends_current]
  cases hp : s.state.book.phase with
  | waiting submissions =>
    rw [hp] at hended
    cases hended
  | running | crashed cause | stopped => exact .refl _

end Desk

namespace Floor

variable {f : Floor σ} {moves : List (Move σ)} {side : Side} {r : OrderRef}

/-- A move does to the desk what its call does. -/
theorem perform_desk {act : Action (Desk σ) α} {note : α → Register → Register} {broken : α → Bool}
    {P : Desk σ → Prop} (h : Ends act f.desk (fun _ t => P t.state) (fun _ t => P t.state)) :
    P (f.perform act note broken).state :=
  perform_of_ends (R := fun g => P g.state) h (fun _ _ ht => ht) fun _ _ ht => ht

/-- A cancellation by settlement leaves the book and all other orders. -/
theorem ends_cancel (r : OrderRef) (s : Logged (Desk σ)) :
    Ends (Desk.onOffice (Office.onOrders (Orders.cancel r))) s
      (fun _ t => t.state.book = s.state.book ∧ ∀ r', r' ≠ r → t.state.order r' = s.state.order r')
      (fun _ _ => False) := by
  simp only [Desk.ends_onOffice, Office.onOrders, ends_within, Orders.cancel,
    ends_bind, ends_current]
  split
  · exact ⟨trivial, fun _ _ => rfl⟩
  · refine ⟨trivial, fun r' hr' => ?_⟩
    show ((s.state.office.orders.set r _).get r') = _
    rw [Orders.get_set, if_neg (Ne.symm hr')]
    rfl

/-! ## A book only goes on -/

/-- A move takes the book to no earlier stage. -/
theorem advances_apply (S : Settlement σ) (f : Floor σ) (m : Move σ) :
    f.state.Advances (f.apply S m).state := by
  have hphase := Desk.matching_phase (S := S)
  have hsame : ∀ {d : Desk σ}, d.book = f.state.book → f.state.Advances d := fun h =>
    (congrArg (·.phase.stage) h).ge
  cases m with
  | load side r => exact perform_desk (Desk.respects_advances hphase.load f.desk)
  | loadTrades trades =>
    exact perform_desk (Desk.respects_advances (hphase.loadTrades (fun _ _ => rfl) trades) f.desk)
  | start =>
    exact perform_desk ((Desk.ends_start_stage f.desk).mono
      (fun _ _ ht => ht.1) fun _ _ ht => ht.1)
  | submit side r => exact perform_desk (Desk.respects_submit f.desk)
  | cancel r =>
    exact perform_desk ((ends_cancel r f.desk).mono
      (fun _ _ ht => hsame ht.1) fun _ _ hf => hf.elim)
  | withdraw side r => exact perform_desk (Desk.respects_advances hphase.withdraw f.desk)
  | abandon => exact perform_desk (Desk.respects_abandon f.desk)
  | shutdown => exact perform_desk (Desk.respects_shutdown f.desk)
  | backend g => exact perform_desk (Desk.ends_onOffice.2 (ends_within.2 (hsame rfl)))

/-- Moves take the book to no earlier stage, by induction on them. -/
theorem advances_run (S : Settlement σ) (f : Floor σ) (moves : List (Move σ)) :
    f.state.Advances (f.run S moves).state := by
  induction moves using List.reverseRecOn with
  | nil => exact Nat.le_refl _
  | append_singleton moves m ih =>
    rw [run_append]
    exact ih.trans (advances_apply S (f.run S moves) m)

/-- In the course of the moves the book was started and later stopped, or it came to its end
otherwise, because matching broke off. -/
def CameToEnd (S : Settlement σ) (f : Floor σ) (moves : List (Move σ)) : Prop :=
  (∃ before between after, moves = before ++ .start :: (between ++ .shutdown :: after)) ∨
    ∃ before after, moves = before ++ after ∧ (f.run S before).state.book.phase.isEnded = true

/-- A book that has come to its end has ended for good. -/
theorem isEnded_of_cameToEnd (h : f.CameToEnd S moves) :
    (f.run S moves).state.book.phase.isEnded = true := by
  suffices hsuffices : ∃ before after, moves = before ++ after ∧
      (f.run S before).state.book.phase.isEnded = true by
    obtain ⟨before, after, rfl, hended⟩ := hsuffices
    rw [run_append]
    exact Phase.isEnded_iff.2 ((Phase.isEnded_iff.1 hended).trans (advances_run S _ after))
  rcases h with ⟨before, between, after, rfl⟩ | h
  · refine ⟨before ++ .start :: (between ++ [.shutdown]), after, by simp, ?_⟩
    have hstarted : 1 ≤ ((f.run S before).apply S .start).state.book.phase.stage :=
      perform_desk (P := fun d => 1 ≤ d.book.phase.stage)
        ((Desk.ends_start_stage _).mono (fun _ _ ht => ht.2) fun _ _ ht => ht.2)
    have hrun : f.run S (before ++ .start :: (between ++ [.shutdown])) =
        (((f.run S before).apply S .start).run S between).apply S .shutdown := by
      simp [run, List.foldl_append]
    have hbetween := hstarted.trans (advances_run S _ between)
    rw [hrun]
    refine perform_desk (P := fun d => d.book.phase.isEnded = true)
      ((Desk.ends_shutdown_stopped _).mono ?_ fun _ _ hf => hf.elim)
    rintro _ t ⟨-, ht⟩
    exact ht ▸ Phase.isEnded_afterShutdown hbetween
  · exact h

/-! ## What is done to a book that has ended -/

/-- No stop-loss leaves its queue, and an order changes only if it is cancelled. -/
theorem idle_apply (hended : f.state.book.phase.isEnded = true) (m : Move σ) :
    (∀ side, (f.state.book.stopLossQueue side).bag ≤
      ((f.apply S m).state.book.stopLossQueue side).bag) ∧
      ∀ r, m ≠ .cancel r → (f.apply S m).state.order r = f.state.order r := by
  have hidle : ∀ {d : Desk σ}, f.state.Idle d →
      (∀ side, (f.state.book.stopLossQueue side).bag ≤ (d.book.stopLossQueue side).bag) ∧
        ∀ r, m ≠ .cancel r → d.order r = f.state.order r := fun h =>
    ⟨h.dormant, fun r _ => congrArg (·.get r) h.orders⟩
  cases m with
  | load side r => exact hidle (perform_desk (Desk.idle_load f.desk))
  | loadTrades trades => exact hidle (perform_desk (Desk.idle_loadTrades trades f.desk))
  | start => exact hidle (perform_desk (Desk.idle_start_of_ended hended))
  | submit side r => exact hidle (perform_desk (Desk.idle_submit_of_ended hended))
  | cancel r =>
    have hcancel : (f.apply S (.cancel r)).state.book = f.state.book ∧
        ∀ r', r' ≠ r → (f.apply S (.cancel r)).state.order r' = f.state.order r' :=
      perform_desk (P := fun d => d.book = f.state.book ∧ ∀ r', r' ≠ r →
        d.order r' = f.state.order r')
        ((ends_cancel r f.desk).mono (fun _ _ ht => ht) fun _ _ hf => hf.elim)
    exact ⟨fun side => hcancel.1 ▸ le_rfl, fun r' hr' => hcancel.2 r' fun heq => hr' (heq ▸ rfl)⟩
  | withdraw side r => exact hidle (perform_desk (Desk.idle_withdraw f.desk))
  | abandon => exact hidle (perform_desk (Desk.idle_abandon_of_ended hended))
  | shutdown =>
    refine hidle (perform_desk ((Desk.ends_shutdown_stopped _).mono ?_ fun _ _ hf => hf.elim))
    exact fun _ t ht => ht.2 ▸ Desk.idle_enter _
  | backend g =>
    exact hidle (perform_desk (Desk.ends_onOffice.2 (ends_within.2 ⟨rfl, fun _ => le_rfl⟩)))

/-- What is parked stays so. -/
theorem idle_run (hended : f.state.book.phase.isEnded = true) (moves : List (Move σ)) :
    (∀ side, (f.state.book.stopLossQueue side).bag ≤
      ((f.run S moves).state.book.stopLossQueue side).bag) ∧
      ∀ r, .cancel r ∉ moves → (f.run S moves).state.order r = f.state.order r := by
  induction moves using List.reverseRecOn with
  | nil => exact ⟨fun _ => le_rfl, fun _ _ => rfl⟩
  | append_singleton moves m ih =>
    rw [run_append]
    have hstill : (f.run S moves).state.book.phase.isEnded = true :=
      Phase.isEnded_iff.2 ((Phase.isEnded_iff.1 hended).trans (advances_run S f moves))
    obtain ⟨hdormant, horder⟩ := idle_apply (S := S) hstill m
    refine ⟨fun side => (ih.1 side).trans (hdormant side), fun r hr => ?_⟩
    rw [List.mem_append, List.mem_singleton, not_or] at hr
    exact (horder r (Ne.symm hr.2)).trans (ih.2 r hr.1)

/-- An order that is not closed is handed in, on its side, to a book that has come to its end. If
it is a stop-loss it is accepted and parked, and stays parked whatever is done to the book later,
as it was unless it is cancelled. Any other order is refused, and nothing changes. -/
theorem submit_of_cameToEnd (S : Settlement σ) (f : Floor σ) (moves later : List (Move σ))
    (h : f.CameToEnd S moves) (side : Side) (r : OrderRef) :
    let g := f.run S moves
    let d := g.state
    (d.order r).side = side → (d.order r).closed = false →
      if (d.order r).type = .stopLoss then
        (∃ j, Desk.submit S side r g.desk = .ok (.ok .done) ⟨d.parked r, j⟩) ∧
          let e := ((g.apply S (.submit side r)).run S later).state
          .ofOrder r (d.order r) ∈ (e.book.stopLossQueue side).bag ∧
            (.cancel r ∉ later → e.order r = d.order r)
      else Desk.submit S side r g.desk = .ok (.error (.bookStopped d.book.instrument)) g.desk := by
  intro g d hside hopen
  have hended : d.book.phase.isEnded = true := isEnded_of_cameToEnd h
  split
  · next htype =>
    have hpark := Desk.ends_submit_stopLoss (S := S) (s := g.desk) hside hopen htype
    have happly : (g.apply S (.submit side r)).state = d.parked r :=
      perform_desk (P := fun e => e = d.parked r) (hpark.mono
        (fun _ _ ht => ht.2) fun _ _ hf => hf.elim)
    obtain ⟨answer, ⟨e, j⟩, hsubmit, rfl, rfl⟩ := hpark.exists_ok
    have hparked : (d.parked r).book.phase.isEnded = true :=
      (congrArg Phase.isEnded (Book.phase_withStopLossQueue ..)).trans hended
    obtain ⟨hdormant, horder⟩ := idle_run (S := S) (f := g.apply S (.submit side r))
      (happly ▸ hparked) later
    rw [happly] at hdormant horder
    refine ⟨⟨j, hsubmit⟩, Multiset.mem_of_le (hdormant side) ?_, horder r⟩
    show Item.ofOrder r (d.order r) ∈ ((d.book.withStopLossQueue _ _).stopLossQueue side).bag
    rw [Book.stopLossQueue_withStopLossQueue, if_pos hside, Queue.push, Queue.bag_pushItem]
    exact Multiset.mem_cons_self _ _
  · next htype => exact ends_eq_ok.1 (Desk.ends_submit_of_ended hended hside hopen htype)

/-- A book on `fallingMarket` that was started and stopped. -/
def startedAndStopped : Floor Simulated :=
  (opening ⟨⟨0⟩, .ofUInt64 90⟩ 10 10 fallingMarket .empty).run Simulated.settlement
    [.start, .shutdown]

/-- It has ended, and accepts the first stop-loss of `fallingMarket` all the same. -/
theorem startedAndStopped_parks :
    startedAndStopped.state.book.phase = .stopped ∧
      (startedAndStopped.apply Simulated.settlement (.submit .ask ⟨0⟩)).register.accepted = [⟨0⟩] ∧
      (startedAndStopped.apply Simulated.settlement
        (.submit .ask ⟨0⟩)).state.book.stopLossCount .ask = 1 := by
  decide +kernel

/-- After that it is parked for good, and a bid is refused. -/
theorem submit_of_startedAndStopped :
    let f := opening ⟨⟨0⟩, .ofUInt64 90⟩ 10 10 fallingMarket Simulated.empty
    f.CameToEnd Simulated.settlement [.start, .shutdown] ∧
      ((startedAndStopped.apply Simulated.settlement (.submit .ask ⟨0⟩)).run Simulated.settlement
        [.submit .bid ⟨2⟩, .submit .ask ⟨4⟩]).state.order ⟨0⟩ = fallingMarket.get ⟨0⟩ ∧
      Desk.submit Simulated.settlement .bid ⟨2⟩ startedAndStopped.desk =
        .ok (.error (.bookStopped ⟨0⟩)) startedAndStopped.desk := by
  intro f
  have hend : f.CameToEnd Simulated.settlement [.start, .shutdown] := .inl ⟨[], [], [], rfl⟩
  have hparked := submit_of_cameToEnd Simulated.settlement f [.start, .shutdown]
    [.submit .bid ⟨2⟩, .submit .ask ⟨4⟩] hend .ask ⟨0⟩ (by decide +kernel) (by decide +kernel)
  have hrefused := submit_of_cameToEnd Simulated.settlement f [.start, .shutdown] [] hend .bid ⟨2⟩
    (by decide +kernel) (by decide +kernel)
  rw [if_pos (by decide +kernel)] at hparked
  rw [if_neg (by decide +kernel)] at hrefused
  exact ⟨hend, hparked.2.2 (by simp), hrefused⟩

end Floor

end Bourse
