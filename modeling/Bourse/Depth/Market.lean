import Bourse.Depth.Levels

/-!
# Market depth

`MarketDepth` is what subscribers see of one instrument: the levels of both sides and the latest
trades. It is fed with reports (`Report`), and read as a whole (`MarketDepth.snapshot`) or as the
changes since the last reading (`MarketDepth.takeUpdate`).

Orders that take any price, and reports of no quantity, never show in the levels.
-/

namespace Bourse

/-- A trade as subscribers see it. -/
structure TradeTick where
  price : Price
  quantity : Quantity
  madeAt : Timestamp
deriving DecidableEq

/-- What a book reports to market depth. -/
inductive Report where
  /-- Quantity of an order came into the book. -/
  | add (isMarket : Bool) (side : Side) (price : Price) (quantity : Quantity)
  /-- Quantity of an order left the book. -/
  | close (isMarket : Bool) (side : Side) (price : Price) (quantity : Quantity)
  /-- A trade was made. -/
  | trade (tick : TradeTick)
deriving DecidableEq

/-- A full view of market depth. -/
structure DepthSnapshot where
  instrument : InstrumentId
  /-- The lowest ask first. -/
  asks : List (Price × Quantity)
  /-- The highest bid first. -/
  bids : List (Price × Quantity)
  /-- The newest first. -/
  latestTrades : List TradeTick
deriving DecidableEq

/-- The changes of market depth between two readings. -/
structure DepthUpdate where
  askDiff : PriceMap Int64
  bidDiff : PriceMap Int64
  /-- The oldest first. -/
  trades : List TradeTick

/-- Nothing changed. -/
def DepthUpdate.isEmpty (u : DepthUpdate) : Bool :=
  u.askDiff.isEmpty && u.bidDiff.isEmpty && u.trades.isEmpty

/-- The market depth of one instrument. -/
structure MarketDepth where
  instrument : InstrumentId
  /-- How many of the latest trades are kept. -/
  history : Nat
  asks : Levels
  bids : Levels
  /-- The latest trades, the newest first. -/
  latest : List TradeTick
  /-- The trades since the last update was taken, the oldest first. -/
  fresh : Array TradeTick

namespace MarketDepth

/-- Market depth without orders or trades. -/
def empty (instrument : InstrumentId) (history : Nat) : MarketDepth where
  instrument := instrument
  history := history
  asks := .empty
  bids := .empty
  latest := []
  fresh := #[]

/-- The levels of a side. -/
def levels (d : MarketDepth) : Side → Levels
  | .ask => d.asks
  | .bid => d.bids

/-- Puts other levels in place on a side. -/
def withLevels (d : MarketDepth) (l : Levels) : Side → MarketDepth
  | .ask => { d with asks := l }
  | .bid => { d with bids := l }

/-- Runs an action on the levels of a side. -/
def onLevels (s : Side) (act : Action Levels α) : Action MarketDepth α :=
  act.within (·.levels s) (fun l d => d.withLevels l s)

/-- Adds the quantity of an order to its level. -/
def addOrder (isMarket : Bool) (s : Side) (p : Price) (q : Quantity) : Action MarketDepth Unit :=
  if isMarket || q.isZero then pure () else onLevels s (Levels.add p q)

/-- Takes quantity of an order off its level. -/
def closeOrder (isMarket : Bool) (s : Side) (p : Price) (q : Quantity) :
    Action MarketDepth Unit := do
  if isMarket || q.isZero then
    return
  if let some held ← onLevels s (Levels.remove p q) then
    Action.log (.levelUnderflow (← Action.current).instrument s p q held)

/-- Adds a trade to the latest ones; the oldest leave when there are too many. -/
def addTrade (t : TradeTick) : Action MarketDepth Unit :=
  Action.change fun d =>
    { d with latest := (t :: d.latest).take d.history, fresh := d.fresh.push t }

/-- Takes in a report of the book. -/
def receive : Report → Action MarketDepth Unit
  | .add isMarket s p q => addOrder isMarket s p q
  | .close isMarket s p q => closeOrder isMarket s p q
  | .trade t => addTrade t

/-- The full view. -/
def snapshot (d : MarketDepth) : DepthSnapshot where
  instrument := d.instrument
  asks := d.asks.depth.entries
  bids := d.bids.depth.entries.reverse
  latestTrades := d.latest

/-- The changes since the last update was taken, and market depth with none pending. -/
def takeUpdate (d : MarketDepth) : DepthUpdate × MarketDepth :=
  ({ askDiff := d.asks.diff, bidDiff := d.bids.diff, trades := d.fresh.toList },
    { d with
      asks := { d.asks with diff := .empty }
      bids := { d.bids with diff := .empty }
      fresh := #[] })

/-- The resting quantity at a price. -/
def quantityAt (d : MarketDepth) (s : Side) (p : Price) : Quantity := (d.levels s).quantityAt p

/-- The lowest ask. -/
def bestAsk? (d : MarketDepth) : Option Price := d.asks.depth.lowest?

/-- The highest bid. -/
def bestBid? (d : MarketDepth) : Option Price := d.bids.depth.highest?

/-- The resting quantity of a side. -/
def total (d : MarketDepth) (s : Side) : Except Failure Quantity := (d.levels s).total

end MarketDepth

end Bourse
