import Bourse.Error
import Bourse.Settlement.Outcome

/-!
# Events

The exchange keeps a journal of what happens. Each kind of `Event` has a `Severity`, a message and
named fields in text form (`Event.severity`, `Event.message`, `Event.fields`).

The journal is an account for people: nothing the exchange decides depends on it.
-/

namespace Bourse

/-- How much an event matters, from most to least. -/
inductive Severity where
  | error
  | warn
  | info
  | debug
deriving DecidableEq

namespace Severity

/-- The place in the order, the most severe first. -/
def order : Severity → Nat
  | error => 0
  | warn => 1
  | info => 2
  | debug => 3

/-- The name of the severity as the journal shows it. -/
def text : Severity → String
  | error => "ERROR"
  | warn => "WARN"
  | info => "INFO"
  | debug => "DEBUG"

end Severity

/-- Something that happened on the exchange. -/
inductive Event where
  /-- More was taken off a depth level than it held, so the level was dropped. -/
  | levelUnderflow (instrument : InstrumentId) (side : Side) (price : Price)
      (quantity available : Quantity)
  /-- A trade was larger than what its order showed. -/
  | tradeExceedsShown (order : OrderId) (side : Side) (price : Price) (quantity shown : Quantity)
  /-- A step of matching an incoming order made no progress. -/
  | matchAbandoned (instrument : InstrumentId) (fault : MatchFault)
  /-- A step of reconciling resting orders made no progress. -/
  | reconciliationAbandoned (instrument : InstrumentId) (fault : MatchFault)
  /-- A finished order is not where it was found. -/
  | finishedNotOnTop (instrument : InstrumentId) (order : OrderId) (side : Side)
  /-- The submitter of an order gave up before the order was taken. -/
  | submitterGone (instrument : InstrumentId) (order : OrderId)
  /-- An open order for an instrument without a book was left out. -/
  | unknownInstrumentSkipped (instrument : InstrumentId) (order : OrderId)
  /-- Bootstrap failed after some books were started. -/
  | bootstrapFailed (error : EngineError)
  /-- A pair of orders traded. -/
  | traded (instrument : InstrumentId) (ask bid : OrderId) (price : Price) (quantity : Quantity)
  /-- A trade reached a stop-loss. -/
  | stopLossTriggered (instrument : InstrumentId) (order : OrderId) (side : Side)
      (trigger trade : Price)
  /-- Settlement took note of an activated stop-loss. -/
  | stopLossPersisted (order : OrderId)
  /-- A book matches orders from now on. -/
  | matchingStarted (instrument : InstrumentId)
  /-- A book does not match orders any more. -/
  | matchingStopped (instrument : InstrumentId)
  /-- Bootstrap is loading the open orders. -/
  | loadingOpenOrders (instruments asks bids : Nat)
  /-- All books are running. -/
  | engineReady (instruments : Nat)
  /-- All books are stopped. -/
  | engineStopped
  /-- A stop-loss was put aside until a trade reaches it. -/
  | stopLossParked (instrument : InstrumentId) (order : OrderId) (side : Side) (trigger : Price)
  /-- A closed order left its queue. -/
  | closedOrderDropped (instrument : InstrumentId) (order : OrderId) (side : Side)
  /-- A closed stop-loss left its queue. -/
  | cancelledStopLossDropped (instrument : InstrumentId) (order : OrderId)
  /-- An order left the market depth. -/
  | orderWithdrawn (instrument : InstrumentId) (order : OrderId) (side : Side)
  /-- A closed order was submitted. -/
  | closedOrderIgnored (instrument : InstrumentId) (order : OrderId)
  /-- A closed order was to be loaded. -/
  | closedOrderSkipped (instrument : InstrumentId) (order : OrderId)
  /-- Trades of a previous run are being replayed. -/
  | loadingOldTrades (instrument : InstrumentId) (count : Nat)
  /-- An order was cancelled. -/
  | orderCancelled (order : OrderId) (side : Side)
  /-- The task to be stopped had broken off before. -/
  | taskAlreadyGone (instrument : InstrumentId)
deriving DecidableEq

namespace Event

/-- How much the event matters. -/
def severity : Event → Severity
  | levelUnderflow .. | tradeExceedsShown .. | matchAbandoned .. | reconciliationAbandoned ..
  | finishedNotOnTop .. => .error
  | submitterGone .. | unknownInstrumentSkipped .. | bootstrapFailed .. => .warn
  | traded .. | stopLossTriggered .. | stopLossPersisted .. | matchingStarted ..
  | matchingStopped .. | loadingOpenOrders .. | engineReady .. | engineStopped => .info
  | stopLossParked .. | closedOrderDropped .. | cancelledStopLossDropped .. | orderWithdrawn ..
  | closedOrderIgnored .. | closedOrderSkipped .. | loadingOldTrades .. | orderCancelled ..
  | taskAlreadyGone .. => .debug

/-- The event in words, without its particulars. -/
def message : Event → String
  | levelUnderflow .. => "depth level underflow, level dropped"
  | tradeExceedsShown .. => "trade exceeds shown depth, reduced to what was shown"
  | matchAbandoned .. => "match step abandoned"
  | reconciliationAbandoned .. => "reconciliation step abandoned"
  | finishedNotOnTop .. => "finished order is no longer on top"
  | submitterGone .. => "submitter went away, matching anyway"
  | unknownInstrumentSkipped .. => "open order for unknown instrument skipped"
  | bootstrapFailed .. => "bootstrap failed, stopping started books"
  | traded .. => "trade"
  | stopLossTriggered .. => "stop-loss triggered"
  | stopLossPersisted .. => "stop-loss persisted as active"
  | matchingStarted .. => "matching started"
  | matchingStopped .. => "matching stopped"
  | loadingOpenOrders .. => "loading open orders"
  | engineReady .. => "matching engine ready"
  | engineStopped => "matching engine stopped"
  | stopLossParked .. => "stop-loss parked"
  | closedOrderDropped .. => "dropped closed order"
  | cancelledStopLossDropped .. => "dropped cancelled stop-loss"
  | orderWithdrawn .. => "order withdrawn from depth"
  | closedOrderIgnored .. => "ignoring closed order"
  | closedOrderSkipped .. => "skipping closed order"
  | loadingOldTrades .. => "loading old trades"
  | orderCancelled .. => "order cancelled"
  | taskAlreadyGone .. => "matching task already gone"

/-- The particulars of the event, each with its name. -/
def fields : Event → List (String × String)
  | levelUnderflow i side price quantity available =>
    [("instrument", i.text), ("side", side.text), ("price", price.text),
      ("quantity", quantity.text), ("available", available.text)]
  | tradeExceedsShown order side price quantity shown =>
    [("order_id", order.text), ("side", side.text), ("price", price.text),
      ("quantity", quantity.text), ("shown", shown.text)]
  | matchAbandoned i fault | reconciliationAbandoned i fault =>
    [("instrument", i.text), ("fault", fault.text)]
  | finishedNotOnTop i order side | closedOrderDropped i order side
  | orderWithdrawn i order side =>
    [("instrument", i.text), ("order_id", order.text), ("side", side.text)]
  | submitterGone i order | cancelledStopLossDropped i order | closedOrderIgnored i order
  | closedOrderSkipped i order => [("instrument", i.text), ("order_id", order.text)]
  | unknownInstrumentSkipped i order => [("instrument_id", i.text), ("order_id", order.text)]
  | bootstrapFailed error => [("error", error.text)]
  | traded i ask bid price quantity =>
    [("instrument", i.text), ("ask_id", ask.text), ("bid_id", bid.text), ("price", price.text),
      ("quantity", quantity.text)]
  | stopLossTriggered i order side trigger trade =>
    [("instrument", i.text), ("order_id", order.text), ("side", side.text),
      ("trigger", trigger.text), ("trade_price", trade.text)]
  | stopLossPersisted order => [("order_id", order.text)]
  | matchingStarted i | matchingStopped i | taskAlreadyGone i => [("instrument", i.text)]
  | loadingOpenOrders instruments asks bids =>
    [("instruments", toString instruments), ("asks", toString asks), ("bids", toString bids)]
  | engineReady instruments => [("instruments", toString instruments)]
  | engineStopped => []
  | stopLossParked i order side trigger =>
    [("instrument", i.text), ("order_id", order.text), ("side", side.text),
      ("trigger", trigger.text)]
  | loadingOldTrades i count => [("instrument", i.text), ("count", toString count)]
  | orderCancelled order side => [("order_id", order.text), ("side", side.text)]

end Event

end Bourse
