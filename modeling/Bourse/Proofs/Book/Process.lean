import Bourse.Proofs.Book.Incoming
import Bourse.Proofs.Book.Reconcile

/-!
# Processing an order

`process` matches an incoming order, lets what is left of it rest (`Desk.rested`) and, if a
stop-loss was activated, reconciles the book. Its specification is put together from those of the
parts: it keeps what `Upkeep` says, and nothing but an overflow of depth breaks it off.
-/

namespace Bourse.Desk

open Bourse.Action

variable {side : Side} {user : UserId} {r : OrderRef} {known : OrderRef → Prop} {P : Ledger → Prop}
  {B : Prop}

/-! ## Coming into a queue -/

section

variable {σ : Type} {s : Logged (Desk σ)} {d : Desk σ}

/-- The desk with an order resting in the queue of a side, up to the ledger. -/
def rested (d : Desk σ) (side : Side) (r : OrderRef) (l : Ledger) : Desk σ where
  office := d.office
  book := { (d.withItems side [.ofOrder r (d.order r)]).book with ledger := l }

/-- An order that rests comes into the queue of its side, and no other. -/
theorem queue_rested (d : Desk σ) (side : Side) (r : OrderRef) (l : Ledger) (s : Side) :
    (d.rested side r l).book.queue s =
      if side = s then (d.book.queue side).push r (d.order r) else d.book.queue s :=
  (Book.queue_withLedger ..).trans (queue_withItems ..)

/-- Queues stay sound when an order comes to rest. -/
theorem Sound.rested (hd : Sound known d) (hr : known r) (hside : (d.order r).side = side)
    (ht : (d.order r).type ≠ .stopLoss) (l : Ledger) : Sound known (d.rested side r l) := by
  have h : Sound known (d.withItems side [.ofOrder r (d.order r)]) := hd.withItems fun i hi => by
    cases List.mem_singleton.1 hi
    exact hside ▸ rests_ofOrder hr ht
  refine ⟨?_, ?_, ?_⟩
  · intro s
    exact (Book.queue_withLedger ..).symm ▸ h.ordered s
  · intro s i hi
    exact h.resting s i (Book.queue_withLedger _ s l ▸ hi)
  · intro s i hi
    exact h.dormant s i (Book.stopLossQueue_withLedger _ s l ▸ hi)

/-- Letting an order rest shows it. -/
theorem ends_rest (hadd : ∀ j, Ends (Ledger.add (s.state.order r)) ⟨s.state.book.ledger, j⟩
    (fun _ t => P t.state) (fun f _ => f.IsOverflow ∧ B)) :
    Ends (rest side r) s (fun _ t => ∃ l, P l ∧ t.state = s.state.rested side r l)
      (fun f t => f.IsOverflow ∧ B ∧ ∃ l, t.state = s.state.rested side r l) := by
  simp only [rest, ends_bind, ends_current, ends_changeQueue, ends_onLedger, Book.ledger_withQueue]
  exact (hadd _).mono (fun _ t ht => ⟨t.state, ht, rfl⟩) fun f t hf => ⟨hf.1, hf.2, t.state, rfl⟩

/-- The desk with a stop-loss put aside. -/
def parked (d : Desk σ) (r : OrderRef) : Desk σ where
  office := d.office
  book := d.book.withStopLossQueue
    ((d.book.stopLossQueue (d.order r).side).push r (d.order r)) (d.order r).side

/-- Queues stay sound when a stop-loss is put aside. -/
theorem Sound.parked (hd : Sound known d) (hr : known r) : Sound known (d.parked r) where
  ordered s := by
    unfold Desk.parked
    rw [Book.queue_withStopLossQueue]
    exact hd.ordered s
  resting s i hi := by
    unfold Desk.parked at hi
    rw [Book.queue_withStopLossQueue] at hi
    exact hd.resting s i hi
  dormant s i hi := by
    unfold Desk.parked at hi
    rw [Book.stopLossQueue_withStopLossQueue] at hi
    split at hi
    · rw [Queue.push, Queue.bag_pushItem, Multiset.mem_cons] at hi
      rcases hi with rfl | hi
      · exact hr
      · exact hd.dormant _ i hi
    · exact hd.dormant s i hi

/-- Putting a stop-loss aside never breaks off. -/
theorem ends_parkStopLoss {Q : Unit → Logged (Desk σ) → Prop} {E}
    (h : ∀ j, Q () ⟨s.state.parked r, j⟩) : Ends (parkStopLoss r) s Q E := by
  simp only [parkStopLoss, ends_bind, ends_current, ends_changeStopLossQueue, ends_log]
  exact h _

/-- A book that does not match takes nothing from its submissions. -/
theorem ends_takeSubmissions_of_not {S : Settlement σ} (submissions : List Submission)
    (hp : s.state.book.isRunning = false) :
    Ends (takeSubmissions S submissions) s (fun _ t => t = s) (fun _ _ => False) := by
  induction submissions with
  | nil => exact rfl
  | cons sub rest ih =>
    simp only [takeSubmissions, ends_bind, ends_current, hp, Bool.false_eq_true, if_false]
    exact ih.imp (fun _ _ ht => ht)

end

/-! ## Processing -/

variable {s : Logged (Desk Simulated)} {d d' : Desk Simulated}

/-- Resting leads onward. -/
theorem onward_rested (l : Ledger) : Onward d (d.rested side r l) :=
  .of_office rfl (Book.phase_withQueue ..)

/-- Processing an order that no stop-loss follows: rounds of matching, and then it rests if it is
open. -/
def Plain (known : OrderRef → Prop) (r : OrderRef) (d d' : Desk Simulated) : Prop :=
  ∃ dm, MatchRun known (d.order r).side (d.order r).user r d false dm ∧
    (((dm.order r).isOpen = true ∧ ∃ l, d' = dm.rested (d.order r).side r l) ∨
      ((dm.order r).isOpen = false ∧ d' = dm))

section

variable {Inv : Option OrderRef → Office Simulated → Ledger → Prop}
  {Broken : Office Simulated → Prop}

/-- Resting orders are matched with each other until the book is settled. -/
theorem ends_reconcile (up : Upkeep known Inv Broken) (hd : Sound known s.state)
    (hI : Inv none s.state.office s.state.book.ledger) :
    Ends (reconcile Simulated.settlement) s
      (fun _ t => Onward s.state t.state ∧ Sound known t.state ∧
        Inv none t.state.office t.state.book.ledger ∧ Settled t.state)
      (fun f t => BrokenOff known Broken s.state f t.state) := by
  simp only [reconcile, ends_bind, ends_current]
  exact ends_reconcileSteps up _ hd hI (Nat.lt_succ_self _)

/-- Processing an order keeps what `Upkeep` says. Unless a stop-loss was activated in it, it is
plain matching. -/
theorem ends_process (up : Upkeep known Inv Broken) (hd : Sound known s.state) (hr : known r)
    (ht : (s.state.order r).type ≠ .stopLoss)
    (hI : Inv (some r) s.state.office s.state.book.ledger) :
    Ends (process Simulated.settlement r) s
      (fun _ t => Onward s.state t.state ∧ Sound known t.state ∧
        Inv none t.state.office t.state.book.ledger ∧
        (Plain known r s.state t.state ∨ ∃ dm, Onward dm t.state ∧
          MatchRun known (s.state.order r).side (s.state.order r).user r s.state true dm))
      (fun f t => BrokenOff known Broken s.state f t.state) := by
  have hin : Incoming known (s.state.order r).side (s.state.order r).user r s.state :=
    ⟨hr, rfl, rfl, ht⟩
  simp only [process, ends_bind, ends_current]
  refine (ends_matchIncoming up _ hd hin hI ?_).imp ?_
  · split <;> simp only [Simulated.settlement] <;> omega
  rintro fired t ⟨_, rfl, hrun, hI'⟩
  have hin' := hin.onward hrun.onward
  have hd' := hrun.sound hd
  -- what is done after the order rests or is finished
  have hnext : ∀ u : Logged (Desk Simulated), Onward t.state u.state → Sound known u.state →
      Inv none u.state.office u.state.book.ledger →
      (fired = false → Plain known r s.state u.state) →
      Ends (if fired = true then reconcile Simulated.settlement else pure ()) u
        (fun _ t => Onward s.state t.state ∧ Sound known t.state ∧
          Inv none t.state.office t.state.book.ledger ∧
          (Plain known r s.state t.state ∨ ∃ dm, Onward dm t.state ∧
            MatchRun known (s.state.order r).side (s.state.order r).user r s.state true dm))
        (fun f t => BrokenOff known Broken s.state f t.state) := by
    intro u hon hsound hu hplain
    cases fired with
    | false => exact ⟨hrun.onward.trans hon, hsound, hu, .inl (hplain rfl)⟩
    | true =>
      refine (ends_reconcile up hsound hu).mono ?_ fun f v hf => hf.after (hrun.onward.trans hon)
      rintro _ v ⟨hon', hsound', hv, -⟩
      exact ⟨(hrun.onward.trans hon).trans hon', hsound', hv, .inr ⟨_, hon.trans hon', hrun⟩⟩
  split
  · next hopen =>
    rw [ends_bind]
    refine (ends_rest (P := Inv none t.state.office) (B := Broken t.state.office) fun j =>
      up.rest r t.state.office t.state.book.ledger j hr hopen hI').mono ?_ ?_
    · rintro _ ⟨u, j⟩ ⟨l, hl, rfl⟩
      exact hnext _ (onward_rested l) (hd'.rested hr hin'.side hin'.type l) hl fun hf =>
        ⟨t.state, hf ▸ hrun, .inl ⟨hopen, l, rfl⟩⟩
    · rintro f ⟨u, j⟩ ⟨hf, hB, l, rfl⟩
      exact ⟨hf, hrun.onward.trans (onward_rested l), hd'.rested hr hin'.side hin'.type l, hB⟩
  · next hopen =>
    have hopen : (t.state.order r).isOpen = false := by simpa using hopen
    exact hnext t (.refl _) hd' (up.finish r _ _ hr hopen hI') fun hf =>
      ⟨t.state, hf ▸ hrun, .inr ⟨hopen, rfl⟩⟩

end

end Bourse.Desk
