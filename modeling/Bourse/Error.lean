import Bourse.Basic

/-!
# Refusals

The errors with which the exchange refuses a call, as causes: a bootstrap load failed
(`LoadError`), an order is closed already (`CancelError`), a book or the engine does not take the
order (`EngineError`). The wording of each is in its `text`.
-/

namespace Bourse

/-- A load at bootstrap failed. -/
structure LoadError where
  /-- What was being loaded. -/
  what : String
  reason : String
deriving DecidableEq

/-- The error in words. -/
def LoadError.text (e : LoadError) : String := "Failed to load " ++ e.what ++ ": " ++ e.reason

/-- A cancellation was refused. -/
inductive CancelError where
  /-- The order is closed already. -/
  | alreadyClosed (order : OrderId)
deriving DecidableEq

/-- The error in words. -/
def CancelError.text : CancelError → String
  | alreadyClosed order => "Order " ++ order.text ++ " is already closed"

/-- A call to a book or to the engine was refused. -/
inductive EngineError where
  /-- The engine has no book for the instrument. -/
  | unknownInstrument (instrument : InstrumentId)
  /-- The order is on the other side than the one it was handed in for. -/
  | sideMismatch (order : OrderId) (expected actual : Side)
  /-- The book does not match orders any more. -/
  | bookStopped (instrument : InstrumentId)
  /-- The book was started before. -/
  | alreadyStarted (instrument : InstrumentId)
  /-- A load at bootstrap failed. -/
  | source (error : LoadError)
  /-- A matching task broke off. -/
  | task (reason : String)
deriving DecidableEq

/-- The error in words. -/
def EngineError.text : EngineError → String
  | unknownInstrument i => "Instrument " ++ i.text ++ " not found"
  | sideMismatch order expected actual =>
    "Order " ++ order.text ++ " is a " ++ actual.text ++ " order, expected " ++ expected.text
  | bookStopped i => "Order book for instrument " ++ i.text ++ " is not running"
  | alreadyStarted i => "Order book for instrument " ++ i.text ++ " already started"
  | source e => "Bootstrap source error: " ++ e.text
  | task reason => "Matching task failed: " ++ reason

end Bourse
