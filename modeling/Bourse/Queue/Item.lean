import Bourse.Orders

/-!
# Queue items and their rank

A queue ranks its orders by what they looked like when they came in. An `Item` is a reference to
the order and that snapshot; it is not refreshed while the order is filled, so a resting order
keeps its place.

`rank` puts orders that take any price first, oldest first among themselves. The others are ranked
by price in the direction of the queue, then by larger quantity, then by age. Orders equal in all
of that are ranked by number.
-/

namespace Bourse

/-- An order in a queue, with the snapshot that ranks it. -/
structure Item where
  order : OrderRef
  id : OrderId
  type : OrderType
  price : Price
  /-- What was left to fill when the order came in. -/
  quantity : Quantity
  createdAt : Timestamp
deriving DecidableEq

namespace Item

/-- The item of an order as it is now. -/
def ofOrder (r : OrderRef) (o : Order) : Item where
  order := r
  id := o.id
  type := o.type
  price := o.price
  quantity := o.unfulfilled
  createdAt := o.createdAt

/-- The order took any price when it came in. -/
def isMarket (i : Item) : Bool := i.type.isMarket

end Item

/-- Which prices a queue serves first. -/
inductive PriceDirection where
  /-- The lowest price: resting asks, and dormant stop-losses that buy. -/
  | lowestFirst
  /-- The highest price: resting bids, and dormant stop-losses that sell. -/
  | highestFirst
deriving DecidableEq

namespace PriceDirection

/-- The direction of the resting orders of a side. -/
def ofResting : Side → PriceDirection
  | .ask => lowestFirst
  | .bid => highestFirst

/-- The direction of the dormant stop-losses of a side. They are reached by prices that move
against resting orders of that side, so the direction is the opposite one. -/
def ofStopLoss : Side → PriceDirection
  | .ask => highestFirst
  | .bid => lowestFirst

/-- Compares prices; the greater one is served first. -/
def comparePrices : PriceDirection → Price → Price → Ordering
  | lowestFirst, a, b => compare b a
  | highestFirst, a, b => compare a b

end PriceDirection

/-- Compares two items by price, then quantity, then age; the greater one is served first. -/
def rankLimits (direction : PriceDirection) (a b : Item) : Ordering :=
  ((direction.comparePrices a.price b.price).then (compare a.quantity b.quantity)).then
    (compare b.createdAt a.createdAt)

/-- Compares two items of a queue; the greater one is served first. -/
def rank (direction : PriceDirection) (a b : Item) : Ordering :=
  let ordering :=
    match a.isMarket, b.isMarket with
    | true, true => compare b.createdAt a.createdAt
    | true, false => .gt
    | false, true => .lt
    | false, false => rankLimits direction a b
  ordering.then (compare b.id.number.toNat a.id.number.toNat)

end Bourse
