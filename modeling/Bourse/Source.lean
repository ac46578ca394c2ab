import Bourse.Error
import Bourse.Orders

/-!
# Bootstrap data

At bootstrap the engine loads the instruments, the open orders and the recent trades of each
instrument from an `OrderSource`, any of whose loads may fail. `MemorySource` serves them from
memory: orders that are closed are left out, and the recent trades of an instrument come newest
first, those of one moment in the order they were added in.
-/

namespace Bourse

/-- A tradable instrument and its last known price. -/
structure Instrument where
  id : InstrumentId
  currentPrice : Price
deriving DecidableEq

/-- What the engine can load at bootstrap. -/
structure OrderSource where
  instruments : Except LoadError (List Instrument)
  /-- The open asks, by the state of the orders when they are loaded. -/
  openAsks : Orders → Except LoadError (List OrderRef)
  /-- The open bids, by the state of the orders when they are loaded. -/
  openBids : Orders → Except LoadError (List OrderRef)
  /-- Up to so many most recent trades of an instrument. -/
  recentTrades : InstrumentId → Nat → Except LoadError (List Trade)

/-- Bootstrap data in memory. -/
structure MemorySource where
  instruments : List Instrument
  asks : List OrderRef
  bids : List OrderRef
  /-- The trades with their instruments, in the order they were added in. -/
  trades : List (InstrumentId × Trade)

namespace MemorySource

/-- A source without data. -/
def empty : MemorySource := ⟨[], [], [], []⟩

/-- Adds an instrument. -/
def addInstrument (s : MemorySource) (i : Instrument) : MemorySource :=
  { s with instruments := s.instruments ++ [i] }

/-- Adds an order on its side. -/
def addOrder (s : MemorySource) (os : Orders) (r : OrderRef) : MemorySource :=
  match (os.get r).side with
  | .ask => { s with asks := s.asks ++ [r] }
  | .bid => { s with bids := s.bids ++ [r] }

/-- Adds a trade of an instrument. -/
def addTrade (s : MemorySource) (i : InstrumentId) (t : Trade) : MemorySource :=
  { s with trades := s.trades ++ [(i, t)] }

/-- The orders that are not closed. -/
def openOnly (os : Orders) (rs : List OrderRef) : List OrderRef :=
  rs.filter fun r => !(os.get r).closed

/-- The trades of an instrument, in the order they were added in. -/
def tradesOf (s : MemorySource) (i : InstrumentId) : List Trade :=
  (s.trades.filter fun e => e.1 = i).map (·.2)

/-- Up to `count` most recent trades of an instrument, the newest first. -/
def recentTrades (s : MemorySource) (i : InstrumentId) (count : Nat) : List Trade :=
  ((s.tradesOf i).mergeSort fun a b => b.createdAt ≤ a.createdAt).take count

/-- The source as the engine loads from it; no load fails. -/
def toSource (s : MemorySource) : OrderSource where
  instruments := .ok s.instruments
  openAsks os := .ok (openOnly os s.asks)
  openBids os := .ok (openOnly os s.bids)
  recentTrades i count := .ok (s.recentTrades i count)

end MemorySource

/-- The loads of a bootstrap. -/
inductive Load where
  | instruments
  | asks
  | bids
  | trades
deriving DecidableEq

namespace Load

/-- The name of a load. -/
def text : Load → String
  | instruments => "instruments"
  | asks => "asks"
  | bids => "bids"
  | trades => "trades"

/-- The load of a name. -/
def ofText? (s : String) : Option Load :=
  [instruments, asks, bids, trades].find? fun l => l.text = s

end Load

/-- The source with one of its loads failing. -/
def OrderSource.failing (s : OrderSource) (l : Load) (reason : String) : OrderSource :=
  let error : LoadError := ⟨l.text, reason⟩
  match l with
  | .instruments => { s with instruments := .error error }
  | .asks => { s with openAsks := fun _ => .error error }
  | .bids => { s with openBids := fun _ => .error error }
  | .trades => { s with recentTrades := fun _ _ => .error error }

end Bourse
