import Bourse.Proofs.Book.Ended
import Bourse.Proofs.Session.Basic
import Bourse.Proofs.Settlement.Recorded
import Mathlib.Data.List.Induction

/-!
# Books with settlement of any kind

A `Floor` is one book with any settlement, on a table of orders, under a sequence of `Move`s from
outside. It is to any settlement what a `Session` is to the simulated one (`Floor.session_run`),
and it also tells whether anything broke off so far.

`Floor.transcript` are the calls of settlement that a sequence of moves leads to. They are read off
a run that records them, and that run differs from the plain one in nothing but the record
(`Floor.run_recording`).
-/

namespace Bourse

open Bourse.Action

variable {σ τ α : Type}

/-- What is done to a book from outside. -/
inductive Move (σ : Type) where
  /-- An open order of a previous run is loaded. -/
  | load (side : Side) (r : OrderRef)
  /-- Trades of a previous run are replayed. -/
  | loadTrades (trades : List Trade)
  /-- The book is started. -/
  | start
  /-- An order is handed in. -/
  | submit (side : Side) (r : OrderRef)
  /-- Settlement cancels an order. -/
  | cancel (r : OrderRef)
  /-- The book takes the depth of an order away. -/
  | withdraw (side : Side) (r : OrderRef)
  /-- Those who wait for the start give up. -/
  | abandon
  /-- The book is stopped. -/
  | shutdown
  /-- The state of settlement changes by itself. -/
  | backend (f : σ → σ)

namespace Move

/-- The order that a move brings to the book. -/
def brings? : Move σ → Option OrderRef
  | load _ r | submit _ r => some r
  | _ => none

/-- The same move where the calls of settlement are recorded. -/
def recorded : Move σ → Move (Recorded σ)
  | load side r => .load side r
  | loadTrades trades => .loadTrades trades
  | start => .start
  | submit side r => .submit side r
  | cancel r => .cancel r
  | withdraw side r => .withdraw side r
  | abandon => .abandon
  | shutdown => .shutdown
  | backend f => .backend fun b => { b with inner := f b.inner }

end Move

/-- The orders that moves bring to the book, the first first. -/
def brought (moves : List (Move σ)) : List OrderRef := moves.filterMap Move.brings?

/-- Moves of two lists bring the orders of both. -/
theorem brought_append (moves moves' : List (Move σ)) :
    brought (moves ++ moves') = brought moves ++ brought moves' := List.filterMap_append

/-- No order is brought twice by the first of the moves if it is not by all. -/
theorem nodup_brought_of_append {moves moves' : List (Move σ)}
    (h : (brought (moves ++ moves')).Nodup) : (brought moves).Nodup := by
  rw [brought_append] at h
  exact (List.nodup_append.1 h).1

/-- If no order is brought twice, what a move brings was not brought before. -/
theorem notMem_brought_of_append {before after : List (Move σ)} {m : Move σ} {r : OrderRef}
    (h : (brought (before ++ m :: after)).Nodup) (hm : m.brings? = some r) :
    r ∉ brought before := by
  have hr : r ∈ brought (m :: after) := List.mem_filterMap.2 ⟨m, List.mem_cons_self, hm⟩
  rw [brought_append] at h
  exact fun hmem => (List.nodup_append.1 h).2.2 r hmem r hr rfl

/-- The order that a further move brings comes last. -/
theorem reverse_brought_append (moves : List (Move σ)) (m : Move σ) :
    (brought (moves ++ [m])).reverse = m.brings?.toList ++ (brought moves).reverse := by
  have hm : brought [m] = m.brings?.toList := by
    cases h : m.brings? <;> simp [brought, h]
  rw [brought_append, hm, List.reverse_append]
  cases m.brings? <;> rfl

/-- The start of a book broke off. -/
def StartResult.isBroken : StartResult → Bool
  | .broken _ => true
  | .started | .refused _ => false

/-- A book with any settlement under moves from outside. -/
structure Floor (σ : Type) where
  desk : Logged (Desk σ)
  register : Register
  /-- Nothing broke off so far. -/
  intact : Bool

namespace Floor

/-- The desk. -/
def state (f : Floor σ) : Desk σ := f.desk.state

/-- A fresh book on a table of orders, with settlement in some state. -/
def opening (i : Instrument) (history buffer : Nat) (os : Orders) (b : σ) : Floor σ where
  desk := ⟨⟨⟨os, b⟩, .new i history buffer⟩, #[]⟩
  register := .empty
  intact := true

/-- The orders that wait for the book to be started. -/
def waiting (f : Floor σ) : List OrderRef := f.state.book.phase.orders

/-- Carries out an action, and notes its answer. It broke off if it failed, if the answer says so,
or if the book says so. -/
def perform (act : Action (Desk σ) α) (note : α → Register → Register) (broken : α → Bool)
    (f : Floor σ) : Floor σ :=
  match act f.desk with
  | .ok a t => ⟨t, note a f.register, f.intact && !broken a && !t.state.book.phase.isCrashed⟩
  | .error _ t => ⟨t, f.register, false⟩

/-- Carries out a move. An order is accepted when it was loaded, when it was matched or parked, or
when the book was started while it waited. -/
def apply (S : Settlement σ) (f : Floor σ) : Move σ → Floor σ
  | .load side r =>
    f.perform (Desk.load side r) (fun answer g => g.loaded r answer) fun _ => false
  | .loadTrades trades => f.perform (Desk.loadTrades trades) (fun _ g => g) fun _ => false
  | .start => f.perform (Desk.start S) (fun report g => g.afterStart f.waiting report.result)
    fun report => report.result.isBroken
  | .submit side r =>
    f.perform (Desk.submit S side r) (fun answer g => g.submitted r answer) fun _ => false
  | .cancel r => f.perform (Desk.onOffice (Office.onOrders (Orders.cancel r)))
    (fun answer g => g.afterCancel r answer) fun _ => false
  | .withdraw side r =>
    f.perform (Desk.withdraw side r) (fun answer g => g.afterWithdraw r answer) fun _ => false
  | .abandon => f.perform Desk.abandon (fun _ g => g) fun _ => false
  | .shutdown => f.perform Desk.shutdown (fun _ g => g) fun _ => false
  | .backend h => f.perform (Desk.onOffice (Office.onBackend (Action.change h))) (fun _ g => g)
    fun _ => false

/-- Carries out moves, the first first. -/
def run (S : Settlement σ) (f : Floor σ) (moves : List (Move σ)) : Floor σ :=
  moves.foldl (apply S) f

/-- Moves of two lists are carried out one list after the other. -/
theorem run_append (S : Settlement σ) (f : Floor σ) (moves moves' : List (Move σ)) :
    f.run S (moves ++ moves') = (f.run S moves).run S moves' := List.foldl_append

/-- What all ends of an action have in common holds of the floor afterwards. -/
theorem perform_of_ends {act : Action (Desk σ) α} {note : α → Register → Register}
    {broken : α → Bool} {g : Floor σ} {R : Floor σ → Prop} {Q : α → Logged (Desk σ) → Prop}
    {E : Failure → Logged (Desk σ) → Prop} (h : Ends act g.desk Q E)
    (hok : ∀ a t, Q a t →
      R ⟨t, note a g.register, g.intact && !broken a && !t.state.book.phase.isCrashed⟩)
    (hfail : ∀ x t, E x t → R ⟨t, g.register, false⟩) : R (g.perform act note broken) := by
  unfold Ends at h
  unfold perform
  split
  · next ha => rw [ha] at h; exact hok _ _ h
  · next ha => rw [ha] at h; exact hfail _ _ h

/-- Where everything is intact it was so before. -/
theorem intact_of_apply {S : Settlement σ} {f : Floor σ} {m : Move σ}
    (h : (f.apply S m).intact = true) : f.intact = true := by
  have hperform : ∀ {α : Type} (act : Action (Desk σ) α) note broken,
      (f.perform act note broken).intact = true → f.intact = true := by
    intro α act note broken h
    unfold perform at h
    split at h
    · simp only [Bool.and_eq_true] at h
      exact h.1.1
    · cases h
  cases m <;> exact hperform _ _ _ h

/-- Where everything is intact after moves it was so before them. -/
theorem intact_of_run {S : Settlement σ} {f : Floor σ} {moves : List (Move σ)}
    (h : (f.run S moves).intact = true) : f.intact = true := by
  induction moves using List.reverseRecOn with
  | nil => exact h
  | append_singleton moves m ih =>
    rw [run_append] at h
    exact ih (intact_of_apply h)

/-! ## Sessions -/

end Floor

/-- The move that a call of a session is. -/
def Call.move : Call → Move Simulated
  | .load side r => .load side r
  | .loadTrades trades => .loadTrades trades
  | .start => .start
  | .submit side r => .submit side r
  | .reject u => .backend (·.reject u)
  | .cancel r => .cancel r
  | .withdraw side r => .withdraw side r
  | .abandon => .abandon
  | .shutdown => .shutdown
  | .tick now => .backend ({ · with now })

namespace Floor

/-- A book with simulated settlement as a session. -/
def session (f : Floor Simulated) : Session := ⟨f.desk, f.register⟩

/-- An action on a floor is one on its session. -/
theorem session_perform (act : Action (Desk Simulated) α) (note : α → Register → Register)
    (broken : α → Bool) (f : Floor Simulated) :
    (f.perform act note broken).session = f.session.perform act note := by
  unfold perform Session.perform
  rw [show f.session.desk = f.desk from rfl]
  cases act f.desk <;> rfl

/-- A move on a floor is a call of its session. -/
theorem session_apply (f : Floor Simulated) (c : Call) :
    (f.apply Simulated.settlement c.move).session = f.session.apply c := by
  cases c <;> exact session_perform _ _ _ f

/-- Calls of a session are moves on a book with simulated settlement. -/
theorem session_run (i : Instrument) (history buffer : Nat) (os : Orders) (calls : List Call) :
    ((opening i history buffer os Simulated.empty).run Simulated.settlement
      (calls.map Call.move)).session = (Session.opening i history buffer os).run calls := by
  induction calls using List.reverseRecOn with
  | nil => rfl
  | append_singleton calls c ih =>
    have hrun : (Session.opening i history buffer os).run (calls ++ [c]) =
        ((Session.opening i history buffer os).run calls).apply c := List.foldl_append
    rw [hrun, ← ih, List.map_append, run_append]
    exact session_apply _ c

/-! ## The calls of settlement -/

/-- The floor seen through a view of the backend. -/
def seen (view : τ → σ) (f : Floor τ) : Floor σ :=
  ⟨⟨f.state.seen view, f.desk.journal⟩, f.register, f.intact⟩

/-- What mirrors an action is noted alike. -/
theorem perform_seen {view : τ → σ} {big : Action (Desk τ) α} {small : Action (Desk σ) α}
    (h : Desk.Mirrors view big small) (f : Floor τ) (note : α → Register → Register)
    (broken : α → Bool) :
    (f.perform big note broken).seen view = (f.seen view).perform small note broken := by
  have hact := h.eq f.desk
  unfold perform
  rw [show (f.seen view).desk = ⟨f.desk.state.seen view, f.desk.journal⟩ from rfl, hact]
  cases big f.desk <;> rfl

/-- A recorded move does what the plain one does. -/
theorem apply_seen {S : Settlement σ} (f : Floor (Recorded σ)) (m : Move σ) :
    (f.apply S.recorded m.recorded).seen Recorded.inner = (f.seen Recorded.inner).apply S m := by
  have h := S.mirrors_recorded
  cases m with
  | load side r => exact perform_seen Desk.mirrors_load f _ _
  | loadTrades trades => exact perform_seen (Desk.mirrors_loadTrades trades) f _ _
  | start => exact perform_seen (Desk.mirrors_start h) f _ _
  | submit side r => exact perform_seen (Desk.mirrors_submit h) f _ _
  | cancel r => exact perform_seen (Desk.mirrors_onOrders _) f _ _
  | withdraw side r => exact perform_seen Desk.mirrors_withdraw f _ _
  | abandon => exact perform_seen Desk.mirrors_abandon f _ _
  | shutdown => exact perform_seen Desk.mirrors_shutdown f _ _
  | backend g =>
    have hchange : Action.Mirrors Recorded.inner
        (change fun b : Recorded σ => { b with inner := g b.inner }) (change g) :=
      mirrors_change fun _ => rfl
    have hbackend : Action.Mirrors (Office.seen Recorded.inner)
        (Office.onBackend (change fun b : Recorded σ => { b with inner := g b.inner }))
        (Office.onBackend (change g)) := hchange.within (fun _ => rfl) fun _ _ => rfl
    exact perform_seen (Desk.mirrors_onOffice hbackend) f _ _

/-- A fresh book where the calls of settlement are recorded. -/
def recording (i : Instrument) (history buffer : Nat) (os : Orders) (b : σ) : Floor (Recorded σ) :=
  opening i history buffer os ⟨b, []⟩

/-- The floor after recorded moves. -/
def recordedRun (S : Settlement σ) (i : Instrument) (history buffer : Nat) (os : Orders) (b : σ)
    (moves : List (Move σ)) : Floor (Recorded σ) :=
  (recording i history buffer os b).run S.recorded (moves.map Move.recorded)

/-- The calls of settlement so far. -/
def calls (f : Floor (Recorded σ)) : Transcript := f.state.office.backend.transcript

/-- The calls of settlement that moves on a fresh book lead to. -/
def transcript (S : Settlement σ) (i : Instrument) (history buffer : Nat) (os : Orders) (b : σ)
    (moves : List (Move σ)) : Transcript := (recordedRun S i history buffer os b moves).calls

variable {S : Settlement σ} {i : Instrument} {history buffer : Nat} {os : Orders} {b : σ}

/-- Recorded moves of two lists are carried out one list after the other. -/
theorem recordedRun_append (moves moves' : List (Move σ)) :
    recordedRun S i history buffer os b (moves ++ moves') =
      (recordedRun S i history buffer os b moves).run S.recorded (moves'.map Move.recorded) := by
  unfold recordedRun
  rw [List.map_append, run_append]

/-- What is intact after moves was intact before the last of them. -/
theorem intact_recordedRun_of_append {moves moves' : List (Move σ)}
    (h : (recordedRun S i history buffer os b (moves ++ moves')).intact = true) :
    (recordedRun S i history buffer os b moves).intact = true := by
  rw [recordedRun_append] at h
  exact intact_of_run h

/-- The record makes no difference. -/
theorem run_recording (moves : List (Move σ)) :
    (recordedRun S i history buffer os b moves).seen Recorded.inner =
      (opening i history buffer os b).run S moves := by
  induction moves using List.reverseRecOn with
  | nil => rfl
  | append_singleton moves m ih =>
    rw [recordedRun_append, run_append, ← ih]
    exact apply_seen _ m

end Floor

end Bourse
