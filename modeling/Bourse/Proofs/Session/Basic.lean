import Bourse.Book.Lifecycle
import Bourse.Settlement.Simulated

/-!
# Sessions

A `Session` is one book with simulated settlement, on a table of orders that nobody else writes,
under a sequence of `Call`s from outside. It starts with a fresh book and a backend without trades,
and goes on also after a call broke off.

Beside the desk it keeps a `Register` of what the answers told the caller: which orders the book
has accepted, and for which of these either half of a cancellation was carried out.
-/

namespace Bourse

/-- What is done to a book from outside. -/
inductive Call where
  /-- An open order of a previous run is loaded. -/
  | load (side : Side) (r : OrderRef)
  /-- Trades of a previous run are replayed. -/
  | loadTrades (trades : List Trade)
  /-- The book is started. -/
  | start
  /-- An order is handed in. -/
  | submit (side : Side) (r : OrderRef)
  /-- A user is flagged as unable to settle. -/
  | reject (u : UserId)
  /-- Settlement cancels an order. -/
  | cancel (r : OrderRef)
  /-- The book takes the depth of an order away. -/
  | withdraw (side : Side) (r : OrderRef)
  /-- Those who wait for the start give up. -/
  | abandon
  /-- The book is stopped. -/
  | shutdown
  /-- Time passes. -/
  | tick (now : Timestamp)

/-- The order that a call hands to the book. -/
def Call.handed? : Call → Option OrderRef
  | load _ r | submit _ r => some r
  | _ => none

/-- The orders that calls hand to the book. -/
def handed (calls : List Call) : List OrderRef := calls.filterMap Call.handed?

/-- The orders that wait for the start of a book in this phase. -/
def Phase.orders : Phase → List OrderRef
  | .waiting submissions => submissions.map (·.order)
  | .running | .crashed _ | .stopped => []

/-- What the caller knows from the answers. -/
structure Register where
  /-- The orders the book has accepted. -/
  accepted : List OrderRef
  /-- The accepted orders that settlement cancelled. -/
  cancelled : List OrderRef
  /-- The accepted orders whose depth the book was told to take away. -/
  withdrawn : List OrderRef

namespace Register

/-- Nothing has been called yet. -/
def empty : Register := ⟨[], [], []⟩

/-- Notes an accepted order. -/
def accept (g : Register) (r : OrderRef) : Register := { g with accepted := r :: g.accepted }

/-- Notes a cancellation by settlement. -/
def cancel (g : Register) (r : OrderRef) : Register :=
  if r ∈ g.accepted then { g with cancelled := r :: g.cancelled } else g

/-- Notes a cancellation by the book. -/
def withdraw (g : Register) (r : OrderRef) : Register :=
  if r ∈ g.accepted then { g with withdrawn := r :: g.withdrawn } else g

/-- Notes the answer to a load. -/
def loaded (g : Register) (r : OrderRef) : Except EngineError Unit → Register
  | .ok () => g.accept r
  | .error _ => g

/-- Notes the answer to a submission. One that waits is accepted when the book is started. -/
def submitted (g : Register) (r : OrderRef) : Except EngineError Receipt → Register
  | .ok .done => g.accept r
  | .ok .waiting | .error _ => g

/-- Notes the answer of settlement to a cancellation. -/
def afterCancel (g : Register) (r : OrderRef) : Except CancelError Unit → Register
  | .ok () => g.cancel r
  | .error _ => g

/-- Notes the answer of the book to a cancellation. -/
def afterWithdraw (g : Register) (r : OrderRef) : Except EngineError Unit → Register
  | .ok () => g.withdraw r
  | .error _ => g

/-- Notes how the start of the book ended, with the orders that waited for it. -/
def afterStart (g : Register) (waiting : List OrderRef) : StartResult → Register
  | .started => waiting.foldl accept g
  | .refused _ | .broken _ => g

@[simp] theorem accepted_cancel (g : Register) (r : OrderRef) :
    (g.cancel r).accepted = g.accepted := by
  unfold cancel
  split <;> rfl

@[simp] theorem accepted_withdraw (g : Register) (r : OrderRef) :
    (g.withdraw r).accepted = g.accepted := by
  unfold withdraw
  split <;> rfl

/-- Those who waited are accepted in turn, the last one comes first. -/
theorem accepted_foldl_accept (g : Register) (rs : List OrderRef) :
    (rs.foldl accept g).accepted = rs.reverse ++ g.accepted := by
  induction rs generalizing g with
  | nil => rfl
  | cons r rest ih =>
    rw [List.foldl_cons, ih, List.reverse_cons, List.append_assoc]
    rfl

end Register

/-- A book under calls from outside. -/
structure Session where
  desk : Logged (Desk Simulated)
  register : Register

namespace Session

variable {α : Type}

/-- The desk of the session. -/
def state (s : Session) : Desk Simulated := s.desk.state

/-- A fresh book on a table of orders. -/
def opening (i : Instrument) (history buffer : Nat) (os : Orders) : Session where
  desk := ⟨⟨⟨os, .empty⟩, .new i history buffer⟩, #[]⟩
  register := .empty

/-- The orders that wait for the book to be started. -/
def waiting (s : Session) : List OrderRef := s.state.book.phase.orders

/-- Carries out an action, and notes its answer. -/
def perform (act : Action (Desk Simulated) α) (note : α → Register → Register) (s : Session) :
    Session :=
  match act s.desk with
  | .ok a t => ⟨t, note a s.register⟩
  | .error _ t => ⟨t, s.register⟩

/-- Carries out a call. An order is accepted when it was loaded, when it was matched or parked, or
when the book was started while it waited. -/
def apply (s : Session) : Call → Session
  | .load side r => s.perform (Desk.load side r) fun answer g => g.loaded r answer
  | .loadTrades trades => s.perform (Desk.loadTrades trades) fun _ g => g
  | .start => s.perform (Desk.start Simulated.settlement) fun report g =>
    g.afterStart s.waiting report.result
  | .submit side r =>
    s.perform (Desk.submit Simulated.settlement side r) fun answer g => g.submitted r answer
  | .reject u =>
    s.perform (Desk.onOffice (Office.onBackend (Action.change (·.reject u)))) fun _ g => g
  | .cancel r => s.perform (Desk.onOffice (Office.onOrders (Orders.cancel r))) fun answer g =>
    g.afterCancel r answer
  | .withdraw side r => s.perform (Desk.withdraw side r) fun answer g => g.afterWithdraw r answer
  | .abandon => s.perform Desk.abandon fun _ g => g
  | .shutdown => s.perform Desk.shutdown fun _ g => g
  | .tick now =>
    s.perform (Desk.onOffice (Office.onBackend (Action.change ({ · with now })))) fun _ g => g

/-- Carries out calls, the first first. -/
def run (s : Session) (calls : List Call) : Session := calls.foldl apply s

/-- Calls of two lists are made one list after the other. -/
theorem run_append (s : Session) (calls calls' : List Call) :
    s.run (calls ++ calls') = (s.run calls).run calls' := List.foldl_append

/-- Asks of two users at 90 and 95, and a bid of the first user at 100 that crosses both. -/
def ownCross : Orders where
  rows := #[order 1 1 .ask 90 5, order 2 2 .ask 95 4, order 3 1 .bid 100 7]
where
  /-- An open limit order. -/
  order (id : UInt64) (user : UInt32) (side : Side) (price quantity : UInt64) : Order :=
    { Order.blank with
      id := ⟨id⟩, user := ⟨user⟩, side, price := .ofUInt64 price, quantity := ⟨quantity⟩,
      closed := false }

/-- An ask at 105, a bid of another user at 100, and a bid of the user of the ask at 110. -/
def spread : Orders where
  rows := #[ownCross.order 1 1 .ask 105 5, ownCross.order 2 2 .bid 100 4,
    ownCross.order 3 1 .bid 110 2]

/-- A fresh book on `ownCross`. -/
def ownCrossOpening : Session := opening ⟨⟨0⟩, .ofUInt64 90⟩ 10 10 ownCross

end Session

end Bourse
