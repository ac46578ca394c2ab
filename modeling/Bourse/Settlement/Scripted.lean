import Bourse.Settlement.Simulated

/-!
# Scripted settlement

`Scripted` is simulated settlement under a script. For each instrument it holds a list of
directives, one for each fill to come: cancel an order first, crash, or give a fixed answer. Where
the script is empty the fill is simulated.

It stamps the trades of an instrument with 1, 2, 3 and so on, and keeps what happened on each
instrument until it is collected (`Scripted.collect`). The instrument of a fill is that of the ask.
-/

namespace Bourse

/-- What a fixed answer does to one side. -/
structure ScriptedSide where
  status : FillStatus
  /-- Fill the order by this much before answering. -/
  fill : Option Quantity
  /-- Close the order before answering. -/
  close : Bool
deriving DecidableEq

/-- The trade of a fixed answer. -/
structure ScriptedTrade where
  quantity : Quantity
  /-- The price, if it is not the one asked for. -/
  price : Option Price
deriving DecidableEq

/-- What to do with one fill. -/
inductive Directive where
  /-- Settle as simulated. -/
  | simulate
  /-- Cancel orders of the pair that are still open, then settle as simulated. -/
  | cancelFirst (ask bid : Bool)
  /-- Crash. -/
  | crash
  /-- Change the ask, then the bid, and answer with their statuses and the trade. -/
  | answer (ask bid : ScriptedSide) (trade : Option ScriptedTrade)
deriving DecidableEq

/-- What scripted settlement knows of one instrument. -/
structure Lane where
  /-- The directives still to be used. -/
  script : List Directive
  /-- The number of trades made. -/
  tradeCount : Nat
  /-- The trades not yet collected, the oldest first. -/
  trades : Array Trade
  /-- The activated stop-losses not yet collected, the earliest first. -/
  activated : Array OrderId

/-- An instrument on which nothing happened yet. -/
def Lane.empty : Lane := ⟨[], 0, #[], #[]⟩

/-- The state of scripted settlement. -/
structure Scripted where
  simulated : Simulated
  /-- The instruments met so far, each once. -/
  lanes : List (InstrumentId × Lane)

namespace Scripted

/-- A backend without a script. -/
def empty : Scripted := ⟨.empty, []⟩

/-- What is known of an instrument. -/
def lane (s : Scripted) (i : InstrumentId) : Lane :=
  ((s.lanes.find? fun e => e.1 = i).map (·.2)).getD .empty

/-- Changes what is known of an instrument. -/
def withLane (s : Scripted) (i : InstrumentId) (l : Lane) : Scripted :=
  { s with lanes := (i, l) :: s.lanes.filter fun e => e.1 ≠ i }

/-- The number of directives still to be used. -/
def pending (s : Scripted) : Nat := s.lanes.foldl (fun n e => n + e.2.script.length) 0

/-- Adds directives to the script of an instrument. -/
def extend (s : Scripted) (i : InstrumentId) (ds : List Directive) : Scripted :=
  let l := s.lane i
  s.withLane i { l with script := l.script ++ ds }

/-- Flags a user as unable to settle. -/
def reject (s : Scripted) (u : UserId) : Scripted := { s with simulated := s.simulated.reject u }

/-- What happened on an instrument since it was last collected: the trades and the activated
stop-losses. -/
def collect (s : Scripted) (i : InstrumentId) : (List Trade × List OrderId) × Scripted :=
  let l := s.lane i
  ((l.trades.toList, l.activated.toList), s.withLane i { l with trades := #[], activated := #[] })

/-- Takes the next directive of an instrument off the script. -/
def nextDirective (i : InstrumentId) : Action Scripted Directive := do
  let s ← Action.current
  let l := s.lane i
  match l.script with
  | [] => return .simulate
  | d :: rest =>
    Action.replace (s.withLane i { l with script := rest })
    return d

/-- The time that the next trade of an instrument is stamped with. -/
def nextStamp (s : Scripted) (i : InstrumentId) : Timestamp :=
  Timestamp.ofNat ((s.lane i).tradeCount + 1)

/-- Runs an action of simulated settlement. -/
def simulating {α : Type} (act : Action (Office Simulated) α) : Action (Office Scripted) α :=
  Office.withinBackend (·.simulated) (fun b s => { s with simulated := b }) act

/-- Settles a pair as simulated, at the time that the next trade of the instrument is stamped
with. -/
def simulate (i : InstrumentId) (ask bid : OrderRef) (price : Price) (q : Quantity) :
    Action (Office Scripted) FillOutcome := do
  let now := (← Action.current).backend.nextStamp i
  Office.onBackend (Action.change fun s => { s with simulated := { s.simulated with now } })
  simulating (Simulated.settle ask bid price q)

/-- Does what a fixed answer says to one order. -/
def applySide (r : OrderRef) (side : ScriptedSide) : Action (Office Scripted) Unit := do
  if let some q := side.fill then
    simulating (Simulated.fillOrder r q)
  if side.close then
    Office.onOrders (Action.change (·.modify r Order.close))

/-- Carries out a directive. -/
def follow (d : Directive) (i : InstrumentId) (ask bid : OrderRef) (price : Price)
    (q : Quantity) : Action (Office Scripted) FillOutcome := do
  match d with
  | .simulate => simulate i ask bid price q
  | .cancelFirst cancelAsk cancelBid =>
    if cancelAsk then
      let _ ← Office.onOrders (Orders.cancel ask)
    if cancelBid then
      let _ ← Office.onOrders (Orders.cancel bid)
    simulate i ask bid price q
  | .crash => Action.fail .backendCrash
  | .answer askSide bidSide trade =>
    applySide ask askSide
    applySide bid bidSide
    let o ← Action.current
    let trade := trade.map fun t =>
      ({ askId := (o.orders.get ask).id
         bidId := (o.orders.get bid).id
         price := t.price.getD price
         quantity := t.quantity
         createdAt := o.backend.nextStamp i } : Trade)
    return ⟨askSide.status, bidSide.status, trade⟩

/-- Keeps and counts a trade. -/
def keep (i : InstrumentId) (t : Trade) : Action Scripted Unit :=
  Action.change fun s =>
    let l := s.lane i
    s.withLane i { l with tradeCount := l.tradeCount + 1, trades := l.trades.push t }

/-- Settles a pair by the next directive of the ask's instrument. -/
def settle (ask bid : OrderRef) (price : Price) (q : Quantity) :
    Action (Office Scripted) FillOutcome := do
  let i := ((← Action.current).orders.get ask).instrument
  let d ← Office.onBackend (nextDirective i)
  let outcome ← follow d i ask bid price q
  if let some t := outcome.trade then
    Office.onBackend (keep i t)
  return outcome

/-- Notes an activated stop-loss. -/
def noteStopLoss (r : OrderRef) : Action (Office Scripted) Unit := do
  simulating (Simulated.noteStopLoss r)
  let order := (← Action.current).orders.get r
  Office.onBackend (Action.change fun s =>
    let l := s.lane order.instrument
    s.withLane order.instrument { l with activated := l.activated.push order.id })

/-- Scripted settlement. Each directive may call a side finished that is not. -/
def settlement : Settlement Scripted where
  fill := settle
  stopLossTriggered := noteStopLoss
  patience := pending

end Scripted

end Bourse
