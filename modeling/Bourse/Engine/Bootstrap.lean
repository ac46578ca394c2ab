import Bourse.Engine.Basic

/-!
# Bootstrap

`Exchange.bootstrap` brings an exchange up in four stages: it makes a book for each instrument,
loads the open orders into the books, replays recent trades, and starts the books. A load that
fails ends the bootstrap before any book is started. If the start of a book breaks off, the others
are started all the same and then stopped.
-/

namespace Bourse.Exchange

variable {σ : Type}

/-- Loads open orders into the books of their instruments. One without a book is left out. -/
def loadOrders : List OrderRef → Action (Exchange σ) (Except EngineError Unit)
  | [] => return .ok ()
  | r :: rest => do
    let x ← Action.current
    let o := x.office.orders.get r
    match x.book? o.instrument with
    | none =>
      Action.log (.unknownInstrumentSkipped o.instrument o.id)
      loadOrders rest
    | some b =>
      match ← onBook b (Desk.load o.side r) with
      | .ok () => loadOrders rest
      | .error e => return .error e

/-- Replays the recent trades of each book in turn. -/
def loadTrades (source : OrderSource) : List Book → Action (Exchange σ) (Except EngineError Unit)
  | [] => return .ok ()
  | b :: rest => do
    match source.recentTrades b.instrument (← Action.current).config.recentTradeCount.toNat with
    | .error e => return .error (.source e)
    | .ok trades =>
      onBook b (Desk.loadTrades trades)
      loadTrades source rest

/-- The error of a start that failed. -/
def startError? : StartResult → Option EngineError
  | .started => none
  | .refused e => some e
  | .broken cause => some (.task cause.message)

/-- Starts each book in turn. The answer is the error of the first that did not start. -/
def startBooks (S : Settlement σ) : List Book → Action (Exchange σ) (Option EngineError)
  | [] => return none
  | b :: rest => do
    let report ← onBook b (Desk.start S)
    let later ← startBooks S rest
    return (startError? report.result).or later

/-- Starts all books, and stops them again if one does not start. -/
def startAll (S : Settlement σ) : Action (Exchange σ) (Except EngineError Unit) := do
  match ← startBooks S (← Action.current).books with
  | none =>
    Action.log (.engineReady (← Action.current).books.length)
    return .ok ()
  | some e =>
    Action.log (.bootstrapFailed e)
    match ← shutdown with
    | .ok () => return .error e
    | .error e' => return .error e'

/-- The books of a list of instruments. Of two with the same number the later one counts. -/
def makeBooks (config : EngineConfig) (history : Nat) (instruments : List Instrument) :
    List Book :=
  instruments.foldl
    (fun books i => putBook (Book.new i history config.submissionBuffer.toNat) books) []

/-- Loads everything from a source and starts the books. Each depth keeps `history` trades. -/
def bootstrap (S : Settlement σ) (source : OrderSource) (history : Nat) :
    Action (Exchange σ) (Except EngineError Unit) := do
  match source.instruments with
  | .error e => return .error (.source e)
  | .ok instruments =>
    Action.change fun x => { x with books := makeBooks x.config history instruments }
    let x ← Action.current
    match source.openAsks x.office.orders, source.openBids x.office.orders with
    | .error e, _ => return .error (.source e)
    | .ok _, .error e => return .error (.source e)
    | .ok asks, .ok bids =>
      Action.log (.loadingOpenOrders x.books.length asks.length bids.length)
      match ← loadOrders (asks ++ bids) with
      | .error e => return .error e
      | .ok () =>
        match ← loadTrades source (← Action.current).books with
        | .error e => return .error e
        | .ok () => startAll S

end Bourse.Exchange
