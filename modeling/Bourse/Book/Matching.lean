import Bourse.Book.Basic
import Bourse.Book.Terms
import Bourse.Trigger

/-!
# Matching

An incoming order is matched against the best resting orders of other users, one after the other,
until it is finished or nothing crosses it (`matchIncoming`); what is left of it rests. Trades can
reach dormant stop-losses, which then join the resting orders (`triggerStopLosses`). If any did,
resting orders that cross are matched with each other (`reconcile`), as they are when a book is
started.

Closed orders leave their queue when they are found on top of it (`topMatching`). Orders of the
user that is being matched are set aside meanwhile and put back with their old rank (`restore`).
-/

namespace Bourse.Desk

variable {σ : Type}

/-- Puts a stop-loss aside until a trade reaches it. -/
def parkStopLoss (r : OrderRef) : Action (Desk σ) Unit := do
  let d ← Action.current
  let o := d.order r
  changeStopLossQueue o.side (·.push r o)
  Action.log (.stopLossParked d.book.instrument o.id o.side o.price)

/-- Lets an order rest in the queue of a side, and shows it. -/
def rest (s : Side) (r : OrderRef) : Action (Desk σ) Unit := do
  let o := (← Action.current).order r
  changeQueue s (·.push r o)
  onLedger (Ledger.add o)

/-- Takes in an order that was open before the book was made. -/
def loadOld (r : OrderRef) : Action (Desk σ) Unit := do
  let o := (← Action.current).order r
  if o.type = .stopLoss then
    parkStopLoss r
  else
    rest o.side r

/-- Replays trades of a previous run, the oldest first; the latest sets the last price. -/
def replayTrades (trades : List Trade) : Action (Desk σ) Unit := do
  let sorted := trades.mergeSort fun a b => a.createdAt ≤ b.createdAt
  sorted.forM fun t => onLedger (Ledger.recordTrade t)
  if let some latest := sorted.getLast? then
    changeBook fun b => { b with lastPrice := latest.price }

/-- The best open order of a side that is not of the excluded user. Closed orders on top are
dropped for good, and the excluded user's are added to those set aside. Every step takes an order
off the queue, so `n` need not exceed its size. -/
def topMatching (s : Side) (exclude : Option UserId) :
    (n : Nat) → (aside : List Item) → Action (Desk σ) (Option OrderRef × List Item)
  | 0, aside => return (none, aside)
  | n + 1, aside => do
    let d ← Action.current
    match (d.book.queue s).headItem? with
    | none => return (none, aside)
    | some head =>
      let o := d.order head.order
      if !o.isOpen then
        changeQueue s (·.dropHead)
        onLedger (Ledger.withdraw o.id)
        Action.log (.closedOrderDropped d.book.instrument o.id s)
        topMatching s exclude n aside
      else if exclude = some o.user then
        changeQueue s (·.dropHead)
        topMatching s exclude n (aside ++ [head])
      else
        return (some head.order, aside)

/-- The best order of a side as `topMatching` finds it, with the orders set aside on the way. -/
def findTop (s : Side) (exclude : Option UserId) :
    Action (Desk σ) (Option OrderRef × List Item) := do
  topMatching s exclude ((← Action.current).book.queue s).size []

/-- Puts orders that were set aside back into their queue. They never left market depth. -/
def restore (s : Side) (aside : List Item) : Action (Desk σ) Unit :=
  changeQueue s fun q => aside.foldl Queue.pushItem q

/-- Takes a finished order off the top of its queue. One that is not there stays and is dropped
when it surfaces. -/
def popResting (s : Side) (r : OrderRef) : Action (Desk σ) Unit := do
  let d ← Action.current
  if (d.book.queue s).head? = some r then
    changeQueue s (·.dropHead)
  else
    Action.log (.finishedNotOnTop d.book.instrument (d.order r).id s)

/-- Brings the depth of one order of a match in line with the outcome. -/
def settleDepth (id : OrderId) (status : FillStatus) (trade : Option Trade) :
    Action (Desk σ) Unit := do
  if let some t := trade then
    let _ ← onLedger (Ledger.reduce id t.quantity)
  if status.isDone then
    onLedger (Ledger.withdraw id)

/-- Lets settlement try a pair, and brings last price and depth in line with the outcome. The order
on the incoming side is not shown yet, so its depth stays as it is. -/
def makeTrade (S : Settlement σ) (ask bid : OrderRef) (incoming : Option Side) :
    Action (Desk σ) (Except MatchFault MatchStep) := do
  let d ← Action.current
  let a := d.order ask
  let b := d.order bid
  let (price, quantity) := tradeTerms a b d.book.lastPrice
  let outcome ← onOffice (S.fill ask bid price quantity)
  if let some t := outcome.trade then
    Action.log (.traded d.book.instrument a.id b.id t.price t.quantity)
    onLedger (Ledger.recordTrade t)
    changeBook fun book => { book with lastPrice := t.price }
  if incoming ≠ some .ask then
    settleDepth a.id outcome.ask outcome.trade
  if incoming ≠ some .bid then
    settleDepth b.id outcome.bid outcome.trade
  if outcome.ask.isDone || outcome.bid.isDone then
    return .ok ⟨outcome.ask.isDone, outcome.bid.isDone, outcome.trade⟩
  else
    return .error ⟨a.id, b.id, outcome⟩

/-- Takes the stop-losses of a side that a trade price reaches off their queue and activates them,
the first in rank first. Closed ones on top are dropped. Every step takes one off the queue, so `n`
need not exceed its size. -/
def takeReached (s : Side) (price : Price) : (n : Nat) → Action (Desk σ) (List OrderRef)
  | 0 => return []
  | n + 1 => do
    let d ← Action.current
    let reached r := (d.order r).closed || (d.order r).isReachedBy price
    match (d.book.stopLossQueue s).popIf reached with
    | (none, _) => return []
    | (some item, q) =>
      changeStopLossQueue s fun _ => q
      let o := d.order item.order
      if o.closed then
        Action.log (.cancelledStopLossDropped d.book.instrument o.id)
        takeReached s price n
      else
        onOffice (Office.onOrders (Action.change (·.modify item.order (·.activateStopLoss.2))))
        return item.order :: (← takeReached s price n)

/-- Lets an activated stop-loss join the resting orders. It takes any price, so it never shows in
depth. -/
def promote (S : Settlement σ) (price : Price) (r : OrderRef) : Action (Desk σ) Unit := do
  let d ← Action.current
  let o := d.order r
  Action.log (.stopLossTriggered d.book.instrument o.id o.side o.price price)
  onOffice (S.stopLossTriggered r)
  let o' := (← Action.current).order r
  changeQueue o.side (·.push r o')

/-- Activates every stop-loss that a trade price reaches: the asks, then the bids. The answer tells
whether there was any. -/
def triggerStopLosses (S : Settlement σ) (price : Price) : Action (Desk σ) Bool := do
  let asks ← takeReached .ask price ((← Action.current).book.stopLossCount .ask)
  let bids ← takeReached .bid price ((← Action.current).book.stopLossCount .bid)
  let activated := asks ++ bids
  activated.forM (promote S price)
  return !activated.isEmpty

/-- Activates the stop-losses that a trade reaches, if there was a trade. -/
def triggerAfter (S : Settlement σ) (trade : Option Trade) : Action (Desk σ) Bool :=
  match trade with
  | some t => triggerStopLosses S t.price
  | none => return false

/-- The ask and the bid of a match, by the side of the incoming order. -/
def pair (s : Side) (incoming resting : OrderRef) : OrderRef × OrderRef :=
  match s with
  | .ask => (incoming, resting)
  | .bid => (resting, incoming)

/-- Matches an incoming order of a side and user until it is finished, nothing crosses it or a step
makes no progress. The answer tells whether a stop-loss was activated, here or before. -/
def matchIncoming (S : Settlement σ) (s : Side) (user : UserId) (incoming : OrderRef) :
    (limit : Nat) → (activated : Bool) → Action (Desk σ) Bool
  | 0, _ => Action.fail .stepLimit
  | limit + 1, activated => do
    if !((← Action.current).order incoming).isOpen then
      return activated
    let (top, aside) ← findTop s.opposite (some user)
    match top with
    | none =>
      restore s.opposite aside
      return activated
    | some resting =>
      let (ask, bid) := pair s incoming resting
      let d ← Action.current
      if !crosses (d.order ask) (d.order bid) then
        restore s.opposite aside
        return activated
      match ← makeTrade S ask bid (some s) with
      | .ok step =>
        if step.isDone s.opposite then
          popResting s.opposite resting
        restore s.opposite aside
        let fired ← triggerAfter S step.trade
        matchIncoming S s user incoming limit (activated || fired)
      | .error fault =>
        Action.log (.matchAbandoned d.book.instrument fault)
        restore s.opposite aside
        let fired ← triggerAfter S fault.trade
        return activated || fired

/-- Matches resting orders with each other until none of different users cross or a step makes no
progress. Every step but the last takes an order off a queue. -/
def reconcileSteps (S : Settlement σ) : (limit : Nat) → Action (Desk σ) Unit
  | 0 => Action.fail .stepLimit
  | limit + 1 => do
    let (topAsk, _) ← findTop .ask none
    let some ask := topAsk | return
    let (topBid, aside) ← findTop .bid (some ((← Action.current).order ask).user)
    let some bid := topBid | restore .bid aside
    let d ← Action.current
    if !crosses (d.order ask) (d.order bid) then
      restore .bid aside
      return
    match ← makeTrade S ask bid none with
    | .ok step =>
      if step.askDone then
        popResting .ask ask
      if step.bidDone then
        popResting .bid bid
      restore .bid aside
      let _ ← triggerAfter S step.trade
      reconcileSteps S limit
    | .error fault =>
      Action.log (.reconciliationAbandoned d.book.instrument fault)
      restore .bid aside
      let _ ← triggerAfter S fault.trade

/-- Matches resting orders with each other as far as they cross. -/
def reconcile (S : Settlement σ) : Action (Desk σ) Unit := do
  reconcileSteps S ((← Action.current).book.itemCount + 1)

/-- Matches an incoming order, lets what is left of it rest, and then lets activated stop-losses
trade. -/
def process (S : Settlement σ) (incoming : OrderRef) : Action (Desk σ) Unit := do
  let d ← Action.current
  let o := d.order incoming
  let limit := d.book.itemCount + S.patience d.office.backend + 2
  let activated ← matchIncoming S o.side o.user incoming limit false
  if ((← Action.current).order incoming).isOpen then
    rest o.side incoming
  if activated then
    reconcile S

end Bourse.Desk
