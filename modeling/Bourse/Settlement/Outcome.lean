import Bourse.Order

/-!
# Outcomes of a settlement

Settlement answers a fill with a `FillOutcome`: what became of each side, and the trade if shares
changed hands. A side that is done, or was closed before, is finished (`FillStatus.isDone`).

A fill that finishes neither side makes no progress. The book reports it as a `MatchFault` and
abandons the step; otherwise the outcome becomes a `MatchStep`.
-/

namespace Bourse

/-- What a fill did to one side. -/
inductive FillStatus where
  /-- The order is still open and stays in the book. -/
  | undone
  /-- The order is finished: filled completely, or closed because it could not settle. -/
  | done
  /-- The order had been closed by a cancellation before the fill. -/
  | alreadyClosed
deriving DecidableEq

namespace FillStatus

/-- The side is finished. -/
def isDone : FillStatus → Bool
  | undone => false
  | done | alreadyClosed => true

/-- The name of the status as it appears in messages. -/
def text : FillStatus → String
  | undone => "Undone"
  | done => "Done"
  | alreadyClosed => "AlreadyClosed"

end FillStatus

/-- What a fill did to both sides, and the trade if there was one. -/
structure FillOutcome where
  ask : FillStatus
  bid : FillStatus
  trade : Option Trade
deriving DecidableEq

/-- The status of one side. -/
def FillOutcome.status (o : FillOutcome) : Side → FillStatus
  | .ask => o.ask
  | .bid => o.bid

/-- What one match step did. -/
structure MatchStep where
  askDone : Bool
  bidDone : Bool
  trade : Option Trade
deriving DecidableEq

/-- Whether the step finished the order of a side. -/
def MatchStep.isDone (s : MatchStep) : Side → Bool
  | .ask => s.askDone
  | .bid => s.bidDone

/-- Settlement left both orders of a match open. The trade, if quantity moved nevertheless, has
been recorded like any other. -/
structure MatchFault where
  askId : OrderId
  bidId : OrderId
  outcome : FillOutcome
deriving DecidableEq

namespace MatchFault

/-- The trade that was made in spite of the fault. -/
def trade (f : MatchFault) : Option Trade := f.outcome.trade

/-- The fault in words. -/
def text (f : MatchFault) : String :=
  "Settlement left ask " ++ f.askId.text ++ " (" ++ f.outcome.ask.text ++ ") and bid "
    ++ f.bidId.text ++ " (" ++ f.outcome.bid.text ++ ") both open"

end MatchFault

end Bourse
