import Bourse.Proofs.Book.Rounds
import Bourse.Proofs.Book.Trade

/-!
# What others do while a book waits

While settlement deals with a pair, or notes a stop-loss, the book waits, and its ledger is not
taken meanwhile. Then others may have it withdraw orders: that is the book's half of a
cancellation, which comes between two moves as well (`Desk.withdraw`).

`Others` are what they withdraw. Nothing is supposed of it. The functions of this module are those
of the matching code in which others come in before settlement has begun and after it has ended
(`Desk.awaiting`), up to the two calls that lead to settlement (`Amid.start`, `Amid.submit`). Where
nobody comes in they are the same as the ones without others (`Amid.start_nobody`,
`Amid.submit_nobody`).
-/

namespace Bourse

/-- The orders of a side that others have the book withdraw while it waits, by what they find. -/
def Others (σ : Type) : Type := Desk σ → List (Side × OrderRef)

/-- Nobody withdraws anything. -/
def Others.nobody (σ : Type) : Others σ := fun _ => []

namespace Desk

variable {σ α : Type}

/-- Others withdraw orders. -/
def comeIn (others : Others σ) : Action (Desk σ) Unit := do
  (others (← Action.current)).forM fun e => do
    let _ ← withdraw e.1 e.2

/-- Waits for settlement. Others come in before it has begun and after it has ended. -/
def awaiting (others : Others σ) (act : Action (Office σ) α) : Action (Desk σ) α := do
  comeIn others
  let a ← onOffice act
  comeIn others
  return a

/-- Nobody comes in. -/
theorem comeIn_nobody : comeIn (.nobody σ) = pure () := rfl

/-- Where nobody comes in, waiting for settlement is asking it. -/
theorem awaiting_nobody (act : Action (Office σ) α) : awaiting (.nobody σ) act = onOffice act := by
  simp only [awaiting, comeIn_nobody, pure_bind, bind_pure]

namespace Amid

variable (S : Settlement σ) (others : Others σ)

/-- A match step. -/
def makeTrade (ask bid : OrderRef) (incoming : Option Side) :
    Action (Desk σ) (Except MatchFault MatchStep) := do
  let d ← Action.current
  let out ← awaiting others (S.fill ask bid (d.dealPrice ask bid)
    (min (d.order ask).unfulfilled (d.order bid).unfulfilled))
  recordDeal d.book.instrument (d.order ask).id (d.order bid).id out.trade
  settleShown incoming .ask (d.order ask).id out
  settleShown incoming .bid (d.order bid).id out
  return answer (d.order ask).id (d.order bid).id out

/-- Lets an activated stop-loss join the resting orders. -/
def promote (price : Price) (r : OrderRef) : Action (Desk σ) Unit := do
  let d ← Action.current
  let o := d.order r
  Action.log (.stopLossTriggered d.book.instrument o.id o.side o.price price)
  awaiting others (S.stopLossTriggered r)
  let o' := (← Action.current).order r
  changeQueue o.side (·.push r o')

/-- Activates the stop-losses that a trade reaches, if there was a trade. -/
def triggerAfter : Option Trade → Action (Desk σ) Bool
  | some t => do
    let asks ← takeReached .ask t.price ((← Action.current).book.stopLossCount .ask)
    let bids ← takeReached .bid t.price ((← Action.current).book.stopLossCount .bid)
    (asks ++ bids).forM (promote S others t.price)
    return !(asks ++ bids).isEmpty
  | none => return false

/-- One round of matching an incoming order of a side and user. -/
def matchRound (s : Side) (user : UserId) (incoming : OrderRef) :
    Action (Desk σ) RoundResult := do
  if !((← Action.current).order incoming).isOpen then
    return ⟨false, false⟩
  let (top, aside) ← findTop s.opposite (some user)
  match top with
  | none =>
    restore s.opposite aside
    return ⟨false, false⟩
  | some resting =>
    let (ask, bid) := pair s incoming resting
    let d ← Action.current
    if !crosses (d.order ask) (d.order bid) then
      restore s.opposite aside
      return ⟨false, false⟩
    match ← makeTrade S others ask bid (some s) with
    | .ok step =>
      if step.isDone s.opposite then
        popResting s.opposite resting
      restore s.opposite aside
      return ⟨← triggerAfter S others step.trade, true⟩
    | .error fault =>
      Action.log (.matchAbandoned d.book.instrument fault)
      restore s.opposite aside
      return ⟨← triggerAfter S others fault.trade, false⟩

/-- One round of matching resting orders with each other. -/
def reconcileRound : Action (Desk σ) RoundResult := do
  let (topAsk, _) ← findTop .ask none
  let some ask := topAsk | return ⟨false, false⟩
  let (topBid, aside) ← findTop .bid (some ((← Action.current).order ask).user)
  match topBid with
  | none =>
    restore .bid aside
    return ⟨false, false⟩
  | some bid =>
    let d ← Action.current
    if !crosses (d.order ask) (d.order bid) then
      restore .bid aside
      return ⟨false, false⟩
    match ← makeTrade S others ask bid none with
    | .ok step =>
      if step.askDone then
        popResting .ask ask
      if step.bidDone then
        popResting .bid bid
      restore .bid aside
      return ⟨← triggerAfter S others step.trade, true⟩
    | .error fault =>
      Action.log (.reconciliationAbandoned d.book.instrument fault)
      restore .bid aside
      return ⟨← triggerAfter S others fault.trade, false⟩

/-- Matches an incoming order, round by round. -/
def matchIncoming (s : Side) (user : UserId) (incoming : OrderRef) :
    (limit : Nat) → (activated : Bool) → Action (Desk σ) Bool
  | 0, _ => Action.fail .stepLimit
  | limit + 1, activated => do
    let result ← matchRound S others s user incoming
    if result.goesOn then
      matchIncoming s user incoming limit (activated || result.fired)
    else
      return activated || result.fired

/-- Matches resting orders with each other, round by round. -/
def reconcileSteps : (limit : Nat) → Action (Desk σ) Unit
  | 0 => Action.fail .stepLimit
  | limit + 1 => do
    if (← reconcileRound S others).goesOn then reconcileSteps limit else return

/-- Matches resting orders with each other as far as they cross. -/
def reconcile : Action (Desk σ) Unit := do
  reconcileSteps S others ((← Action.current).book.itemCount + 1)

/-- Processes an order. -/
def process (r : OrderRef) : Action (Desk σ) Unit := do
  let d ← Action.current
  let activated ←
    matchIncoming S others (d.order r).side (d.order r).user r (processLimit S d) false
  restLeft (d.order r).side r
  if activated then reconcile S others

/-- Matches an order that the book took from its submissions. -/
def runTask (r : OrderRef) : Action (Desk σ) Unit := do
  match ← Action.attempt (process S others r) with
  | .ok () => pure ()
  | .error cause => enter (.crashed cause)

/-- Hands in an order of a side. -/
def submit (s : Side) (r : OrderRef) : Action (Desk σ) (Except EngineError Receipt) := do
  if let some error ← checkSide s r then
    return .error error
  let d ← Action.current
  let o := d.order r
  if o.closed then
    Action.log (.closedOrderIgnored d.book.instrument o.id)
    return .ok .done
  if o.type = .stopLoss then
    parkStopLoss r
    return .ok .done
  match d.book.phase with
  | .waiting submissions =>
    enter (.waiting (submissions ++ [⟨r, false⟩]))
    return .ok .waiting
  | .running =>
    runTask S others r
    return .ok .done
  | .crashed _ | .stopped => return .error d.stoppedError

/-- Matches one submission that waited for the start, unless matching broke off before. -/
def takeOne (sub : Submission) : Action (Desk σ) Unit := do
  let d ← Action.current
  if d.book.isRunning then
    announce d sub
    runTask S others sub.order

/-- Matches the submissions that waited for the start, in turn. -/
def takeSubmissions : List Submission → Action (Desk σ) (List (Except EngineError Receipt))
  | [] => return []
  | sub :: rest => do
    let d ← Action.current
    takeOne S others sub
    let answers ← takeSubmissions rest
    return if sub.abandoned then answers
      else (if d.book.isRunning then .ok .done else .error d.stoppedError) :: answers

/-- Starts the book. -/
def start : Action (Desk σ) StartReport := do
  let d ← Action.current
  match d.book.phase with
  | .waiting submissions =>
    enter .stopped
    match ← Action.attempt (reconcile S others) with
    | .ok () =>
      enter .running
      Action.log (.matchingStarted d.book.instrument)
      return ⟨.started, ← takeSubmissions S others submissions⟩
    | .error cause => return ⟨.broken cause, ← takeSubmissions S others submissions⟩
  | _ => return ⟨.refused (.alreadyStarted d.book.instrument), []⟩

/-! ## Where nobody comes in -/

/-- A match step where nobody comes in. -/
theorem makeTrade_nobody : makeTrade S (.nobody σ) = Desk.makeTrade S := by
  funext ask bid incoming
  rw [makeTrade_eq]
  simp only [makeTrade, awaiting_nobody]

/-- A stop-loss joins in where nobody else does. -/
theorem promote_nobody : promote S (.nobody σ) = Desk.promote S := by
  funext price r
  simp only [promote, Desk.promote, awaiting_nobody]

/-- What a trade triggers where nobody comes in. -/
theorem triggerAfter_nobody : triggerAfter S (.nobody σ) = Desk.triggerAfter S := by
  funext trade
  cases trade with
  | none => rfl
  | some t => simp only [triggerAfter, Desk.triggerAfter, triggerStopLosses, promote_nobody]

/-- A round of matching where nobody comes in. -/
theorem matchRound_nobody : matchRound S (.nobody σ) = Desk.matchRound S := by
  funext side user r
  simp only [matchRound, makeTrade_nobody, triggerAfter_nobody]
  rfl

/-- A round of reconciling where nobody comes in. -/
theorem reconcileRound_nobody : reconcileRound S (.nobody σ) = Desk.reconcileRound S := by
  simp only [reconcileRound, makeTrade_nobody, triggerAfter_nobody]
  rfl

/-- Matching an order where nobody comes in, by induction on the limit. -/
theorem matchIncoming_nobody : matchIncoming S (.nobody σ) = Desk.matchIncoming S := by
  funext side user r limit
  induction limit with
  | zero => rfl
  | succ limit ih =>
    funext activated
    rw [matchIncoming_succ, matchIncoming, matchRound_nobody, ih]

/-- Reconciling where nobody comes in, by induction on the limit. -/
theorem reconcileSteps_nobody : reconcileSteps S (.nobody σ) = Desk.reconcileSteps S := by
  funext limit
  induction limit with
  | zero => rfl
  | succ limit ih => rw [reconcileSteps_succ, reconcileSteps, reconcileRound_nobody, ih]

/-- Reconciling the whole book where nobody comes in. -/
theorem reconcile_nobody : reconcile S (.nobody σ) = Desk.reconcile S := by
  simp only [reconcile, Desk.reconcile, reconcileSteps_nobody]

/-- Processing an order where nobody comes in. -/
theorem process_nobody : process S (.nobody σ) = Desk.process S := by
  funext r
  rw [process_eq]
  simp only [process, matchIncoming_nobody, reconcile_nobody]

/-- A task is run where nobody comes in. -/
theorem runTask_nobody : runTask S (.nobody σ) = Desk.runTask S := by
  funext r
  simp only [runTask, process_nobody]
  rfl

/-- An order is handed in where nobody else comes in. -/
theorem submit_nobody : submit S (.nobody σ) = Desk.submit S := by
  funext side r
  simp only [submit, runTask_nobody]
  rfl

/-- Submissions are matched where nobody comes in, by induction on their list. -/
theorem takeSubmissions_nobody : takeSubmissions S (.nobody σ) = Desk.takeSubmissions S := by
  funext submissions
  induction submissions with
  | nil => rfl
  | cons sub rest ih =>
    rw [takeSubmissions_cons, takeSubmissions, ih]
    simp only [takeOne, Desk.takeOne, runTask_nobody]

/-- A book is started where nobody comes in. -/
theorem start_nobody : start S (.nobody σ) = Desk.start S := by
  simp only [start, reconcile_nobody, takeSubmissions_nobody]
  rfl

end Amid

end Desk

end Bourse
