import Bourse.Ledger
import Bourse.Queue.Basic
import Bourse.Settlement.Interface
import Bourse.Source

/-!
# Order books

A `Book` is the state of trading in one instrument: four queues, the ledger of shown orders and the
last traded price. Resting orders wait in a queue of their side, dormant stop-losses in another.
The `Phase` of a book tells whether it matches orders: it waits to be started, runs, or has ended.

A book works on its `Desk`: itself, the table of orders and the settlement backend.
-/

namespace Bourse

/-- An order handed in before the book was started. -/
structure Submission where
  order : OrderRef
  /-- Nobody waits for the answer any more. -/
  abandoned : Bool
deriving DecidableEq

/-- Whether a book matches orders. -/
inductive Phase where
  /-- The book has not been started; these submissions wait for it, the earliest first. -/
  | waiting (submissions : List Submission)
  /-- The book matches orders as they are handed in. -/
  | running
  /-- Matching broke off, and nobody has asked for the end of it yet. -/
  | crashed (cause : Failure)
  /-- Matching has ended. -/
  | stopped
deriving DecidableEq

/-- The order book of one instrument. -/
structure Book where
  instrument : InstrumentId
  asks : Queue
  bids : Queue
  askStopLosses : Queue
  bidStopLosses : Queue
  ledger : Ledger
  /-- The price of the last trade, or of the instrument before there was one. -/
  lastPrice : Price
  /-- How many submissions the book takes in while it waits; the others wait outside. -/
  capacity : Nat
  phase : Phase

namespace Book

/-- A book that has not been started. It takes in at least one submission. -/
def new (i : Instrument) (history buffer : Nat) : Book where
  instrument := i.id
  asks := .empty (.ofResting .ask)
  bids := .empty (.ofResting .bid)
  askStopLosses := .empty (.ofStopLoss .ask)
  bidStopLosses := .empty (.ofStopLoss .bid)
  ledger := .empty i.id history
  lastPrice := i.currentPrice
  capacity := max buffer 1
  phase := .waiting []

/-- The resting orders of a side. -/
def queue (b : Book) : Side → Queue
  | .ask => b.asks
  | .bid => b.bids

/-- Puts another queue of resting orders in place. -/
def withQueue (b : Book) (q : Queue) : Side → Book
  | .ask => { b with asks := q }
  | .bid => { b with bids := q }

/-- The dormant stop-losses of a side. -/
def stopLossQueue (b : Book) : Side → Queue
  | .ask => b.askStopLosses
  | .bid => b.bidStopLosses

/-- Puts another queue of dormant stop-losses in place. -/
def withStopLossQueue (b : Book) (q : Queue) : Side → Book
  | .ask => { b with askStopLosses := q }
  | .bid => { b with bidStopLosses := q }

/-- The number of orders in all four queues. -/
def itemCount (b : Book) : Nat :=
  b.asks.size + b.bids.size + b.askStopLosses.size + b.bidStopLosses.size

/-- The book matches orders. -/
def isRunning (b : Book) : Bool := b.phase = .running

/-- The number of orders in the queue of a side, closed ones that were not dropped yet included. -/
def restingCount (b : Book) (s : Side) : Nat := (b.queue s).size

/-- The number of dormant stop-losses of a side, closed ones included. -/
def stopLossCount (b : Book) (s : Side) : Nat := (b.stopLossQueue s).size

/-- The first order of the queue of a side. -/
def best? (b : Book) (s : Side) : Option OrderRef := (b.queue s).head?

/-- The book in words. -/
def summary (b : Book) : String :=
  "OrderBook \x7b instrument_id: InstrumentId(" ++ b.instrument.text ++ "), asks: "
    ++ toString b.asks.size ++ ", bids: " ++ toString b.bids.size ++ " \x7d"

end Book

/-- What a book works on. -/
structure Desk (σ : Type) where
  office : Office σ
  book : Book

namespace Desk

variable {σ α : Type}

/-- The order of a reference. -/
def order (d : Desk σ) (r : OrderRef) : Order := d.office.orders.get r

/-- Runs an action of settlement. -/
def onOffice (act : Action (Office σ) α) : Action (Desk σ) α :=
  act.within (·.office) (fun o d => { d with office := o })

/-- Runs an action on the ledger of the book. -/
def onLedger (act : Action Ledger α) : Action (Desk σ) α :=
  act.within (·.book.ledger) (fun l d => { d with book := { d.book with ledger := l } })

/-- Changes the book. -/
def changeBook (f : Book → Book) : Action (Desk σ) Unit :=
  Action.change fun d => { d with book := f d.book }

/-- Changes the queue of resting orders of a side. -/
def changeQueue (s : Side) (f : Queue → Queue) : Action (Desk σ) Unit :=
  changeBook fun b => b.withQueue (f (b.queue s)) s

/-- Changes the queue of dormant stop-losses of a side. -/
def changeStopLossQueue (s : Side) (f : Queue → Queue) : Action (Desk σ) Unit :=
  changeBook fun b => b.withStopLossQueue (f (b.stopLossQueue s)) s

/-- Moves the book to another phase. -/
def enter (p : Phase) : Action (Desk σ) Unit := changeBook fun b => { b with phase := p }

end Desk

end Bourse
