import Bourse.Basic
import Bourse.Price
import Bourse.Quantity
import Bourse.Timestamp

/-!
# Orders and trades

An `Order` asks for or bids on a quantity of one instrument. Two of its fields move: `fulfilled`
grows as the order is filled (`Order.fill`), and `closed` is set once nothing is left or the order
is cancelled. A stop-loss order is dormant until it is activated (`Order.activateStopLoss`); from
then on it trades like a market order.

A `Trade` is the record of one settled match.
-/

namespace Bourse

/-- What an order does with its price. -/
inductive OrderType where
  /-- Rests at its limit price. -/
  | limit
  /-- Takes any price. -/
  | market
  /-- Dormant until a trade reaches the trigger price. -/
  | stopLoss
  /-- An activated stop-loss, which takes any price. -/
  | stopLossActive
deriving DecidableEq

/-- Market orders and activated stop-losses take any price and have no price of their own. -/
def OrderType.isMarket : OrderType → Bool
  | limit | stopLoss => false
  | market | stopLossActive => true

/-- A single ask or bid for one instrument. -/
structure Order where
  id : OrderId
  user : UserId
  instrument : InstrumentId
  side : Side
  type : OrderType
  /-- The limit or trigger price; `Price.market` for market orders. -/
  price : Price
  quantity : Quantity
  fulfilled : Quantity
  closed : Bool
  createdAt : Timestamp
deriving DecidableEq

namespace Order

/-- What is left to fill. -/
def unfulfilled (o : Order) : Quantity := o.quantity.monus o.fulfilled

/-- The order takes any price. -/
def isMarket (o : Order) : Bool := o.type.isMarket

/-- The order can still trade: it is not closed and something is left to fill. -/
def isOpen (o : Order) : Bool := !o.closed && !o.unfulfilled.isZero

/-- The order with a fill added, closed if nothing is left. More than what is left is refused. -/
def fill (o : Order) (q : Quantity) : Except Failure Order := do
  if q ≤ o.unfulfilled then
    let fulfilled ← o.fulfilled.add q
    return { o with fulfilled, closed := o.closed || fulfilled == o.quantity }
  else
    throw .overfill

/-- Makes a dormant stop-loss active; the answer tells whether it was one. -/
def activateStopLoss (o : Order) : Bool × Order :=
  if o.type = .stopLoss then (true, { o with type := .stopLossActive }) else (false, o)

/-- The order, closed. -/
def close (o : Order) : Order := { o with closed := true }

end Order

/-- The record of a settled match. -/
structure Trade where
  askId : OrderId
  bidId : OrderId
  price : Price
  quantity : Quantity
  createdAt : Timestamp
deriving DecidableEq

end Bourse
