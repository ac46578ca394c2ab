import Bourse.Book.Matching

/-!
# The life of a book

Before a book is started it takes in the open orders of a previous run (`loadOld`) and lets
submissions wait. Starting it (`start`) reconciles what is resting and then matches the submissions
that waited, in turn. From then on an order is matched as soon as it is handed in (`submit`), until
the book is stopped (`shutdown`) or matching breaks off.

Closed orders and stop-losses never wait for the book: a closed order is passed over, a stop-loss
is parked, whatever the phase.
-/

namespace Bourse

/-- The answer to an accepted call. -/
inductive Receipt where
  /-- The call has been carried out. -/
  | done
  /-- The call waits for the book to be started. -/
  | waiting
deriving DecidableEq

/-- How the start of a book ended. -/
inductive StartResult where
  /-- The book is running. -/
  | started
  /-- The book was started before. -/
  | refused (error : EngineError)
  /-- Reconciliation broke off; the book has ended. -/
  | broken (cause : Failure)
deriving DecidableEq

/-- The start of a book: how it ended, and the answers to those who waited for it. -/
structure StartReport where
  result : StartResult
  answers : List (Except EngineError Receipt)

namespace Desk

variable {σ : Type}

/-- The refusal of an order that is on another side than expected. -/
def checkSide (expected : Side) (r : OrderRef) : Action (Desk σ) (Option EngineError) := do
  let o := (← Action.current).order r
  return if o.side = expected then none else some (.sideMismatch o.id expected o.side)

/-- The refusal of a book that has ended. -/
def stoppedError (d : Desk σ) : EngineError := .bookStopped d.book.instrument

/-- Matches an order that the book took from its submissions. If matching breaks off the book has
ended, and what was done stays. -/
def runTask (S : Settlement σ) (r : OrderRef) : Action (Desk σ) Unit := do
  match ← Action.attempt (process S r) with
  | .ok () => pure ()
  | .error cause => enter (.crashed cause)

/-- Hands in an order of a side. -/
def submit (S : Settlement σ) (s : Side) (r : OrderRef) :
    Action (Desk σ) (Except EngineError Receipt) := do
  if let some error ← checkSide s r then
    return .error error
  let d ← Action.current
  let o := d.order r
  if o.closed then
    Action.log (.closedOrderIgnored d.book.instrument o.id)
    return .ok .done
  if o.type = .stopLoss then
    parkStopLoss r
    return .ok .done
  match d.book.phase with
  | .waiting submissions =>
    enter (.waiting (submissions ++ [⟨r, false⟩]))
    return .ok .waiting
  | .running =>
    runTask S r
    return .ok .done
  | .crashed _ | .stopped => return .error d.stoppedError

/-- Takes the depth of an order away. The order leaves its queue when it surfaces there; by then
settlement has closed it. -/
def withdraw (s : Side) (r : OrderRef) : Action (Desk σ) (Except EngineError Unit) := do
  if let some error ← checkSide s r then
    return .error error
  let d ← Action.current
  let o := d.order r
  onLedger (Ledger.withdraw o.id)
  Action.log (.orderWithdrawn d.book.instrument o.id s)
  return .ok ()

/-- Takes in an open order of a previous run. -/
def load (s : Side) (r : OrderRef) : Action (Desk σ) (Except EngineError Unit) := do
  if let some error ← checkSide s r then
    return .error error
  let d ← Action.current
  let o := d.order r
  if o.closed then
    Action.log (.closedOrderSkipped d.book.instrument o.id)
  else
    loadOld r
  return .ok ()

/-- Replays the trades of a previous run. -/
def loadTrades (trades : List Trade) : Action (Desk σ) Unit := do
  Action.log (.loadingOldTrades (← Action.current).book.instrument trades.length)
  replayTrades trades

/-- Matches the submissions that waited for the start, in turn. The answers are those of the
submitters that are still there. Once matching breaks off the others are refused. -/
def takeSubmissions (S : Settlement σ) :
    List Submission → Action (Desk σ) (List (Except EngineError Receipt))
  | [] => return []
  | sub :: rest => do
    let d ← Action.current
    if d.book.isRunning then
      if sub.abandoned then
        Action.log (.submitterGone d.book.instrument (d.order sub.order).id)
      runTask S sub.order
    let answer : Except EngineError Receipt :=
      if d.book.isRunning then .ok .done else .error d.stoppedError
    let answers ← takeSubmissions S rest
    return if sub.abandoned then answers else answer :: answers

/-- Starts the book: reconciles what is resting and matches what was submitted meanwhile. A book is
started once at most, also if that breaks off. -/
def start (S : Settlement σ) : Action (Desk σ) StartReport := do
  let d ← Action.current
  match d.book.phase with
  | .waiting submissions =>
    enter .stopped
    match ← Action.attempt (reconcile S) with
    | .ok () =>
      enter .running
      Action.log (.matchingStarted d.book.instrument)
      return ⟨.started, ← takeSubmissions S submissions⟩
    | .error cause => return ⟨.broken cause, ← takeSubmissions S submissions⟩
  | _ => return ⟨.refused (.alreadyStarted d.book.instrument), []⟩

/-- Makes sure that everything submitted so far has been matched. -/
def flush : Action (Desk σ) (Except EngineError Receipt) := do
  let d ← Action.current
  match d.book.phase with
  | .waiting _ => return .ok .waiting
  | .running => return .ok .done
  | .crashed _ | .stopped => return .error d.stoppedError

/-- Stops matching. A book that broke off answers with the reason, the first time. -/
def shutdown : Action (Desk σ) (Except EngineError Unit) := do
  let d ← Action.current
  match d.book.phase with
  | .waiting _ | .stopped => return .ok ()
  | .running =>
    Action.log (.matchingStopped d.book.instrument)
    enter .stopped
    return .ok ()
  | .crashed cause =>
    Action.log (.taskAlreadyGone d.book.instrument)
    enter .stopped
    return .error (.task cause.message)

/-- The submitters that wait for the start give up; the answer is how many there were. What the
book has taken in is still matched when it starts, the rest is lost. -/
def abandon : Action (Desk σ) Nat := do
  let d ← Action.current
  match d.book.phase with
  | .waiting submissions =>
    let kept := (submissions.take d.book.capacity).map fun s => { s with abandoned := true }
    enter (.waiting kept)
    return (submissions.filter fun s => !s.abandoned).length
  | _ => return 0

end Desk

end Bourse
