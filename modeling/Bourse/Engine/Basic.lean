import Bourse.Book.Lifecycle
import Bourse.Engine.Config

/-!
# The matching engine

An `Exchange` has one book for each instrument, all with the same table of orders and the same
settlement. `Exchange.bootstrap` loads instruments, open orders and recent trades, and starts every
book; it answers only when all are running, and stops those it started if one does not start.

At run time the engine routes each order to the book of its instrument. `Exchange.flush` and
`Exchange.shutdown` visit the books in turn and end at the first that answers with an error.
-/

namespace Bourse

/-- The books of all instruments with what they share. -/
structure Exchange (σ : Type) where
  office : Office σ
  config : EngineConfig
  /-- The books in the order in which they are visited, one for each instrument. -/
  books : List Book

namespace Exchange

variable {σ α : Type}

/-- An exchange without books. -/
def empty (office : Office σ) (config : EngineConfig) : Exchange σ := ⟨office, config, []⟩

/-- The book of an instrument. -/
def book? (x : Exchange σ) (i : InstrumentId) : Option Book :=
  x.books.find? fun b => b.instrument = i

/-- Puts a book in the place of the one of its instrument, or last if there is none. -/
def putBook (b : Book) : List Book → List Book
  | [] => [b]
  | c :: rest => if c.instrument = b.instrument then b :: rest else c :: putBook b rest

/-- Runs an action of a book on the exchange. -/
def onBook (b : Book) (act : Action (Desk σ) α) : Action (Exchange σ) α :=
  act.within (fun x => ⟨x.office, b⟩)
    (fun d x => { x with office := d.office, books := putBook d.book x.books })

/-- Runs an action on each book in turn until one answers with an error. -/
def visitBooks (act : Action (Desk σ) (Except EngineError α)) :
    List Book → Action (Exchange σ) (Except EngineError Unit)
  | [] => return .ok ()
  | b :: rest => do
    match ← onBook b act with
    | .ok _ => visitBooks act rest
    | .error e => return .error e

/-- Makes sure that every book has matched what was submitted so far. -/
def flush : Action (Exchange σ) (Except EngineError Unit) := do
  visitBooks Desk.flush (← Action.current).books

/-- Stops the books. -/
def shutdown : Action (Exchange σ) (Except EngineError Unit) := do
  match ← visitBooks Desk.shutdown (← Action.current).books with
  | .ok () =>
    Action.log .engineStopped
    return .ok ()
  | .error e => return .error e

/-- Routes a call to the book of an order's instrument. -/
def route (r : OrderRef) (act : Action (Desk σ) (Except EngineError α)) :
    Action (Exchange σ) (Except EngineError α) := do
  let x ← Action.current
  let i := (x.office.orders.get r).instrument
  match x.book? i with
  | some b => onBook b act
  | none => return .error (.unknownInstrument i)

/-- Hands in an order of a side. -/
def submit (S : Settlement σ) (s : Side) (r : OrderRef) :
    Action (Exchange σ) (Except EngineError Receipt) := route r (Desk.submit S s r)

/-- Takes the depth of an order of a side away. -/
def withdraw (s : Side) (r : OrderRef) : Action (Exchange σ) (Except EngineError Unit) :=
  route r (Desk.withdraw s r)

end Exchange

end Bourse
