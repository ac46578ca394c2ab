import Bourse.Decimal.Scientific
import Bourse.Json.Decimal
import Bourse.Order
import Bourse.Settlement.Outcome
import Bourse.Trigger
import Bourse.Wire.Basic

/-!
# Wire forms of values and choices

Identifiers, quantities and timestamps are bare numbers. A price is the text of its decimal. It is
also read from a text with a power of ten (`Decimal.read?`) and from a number
(`JsonNumber.decimal?`).
-/

namespace Bourse

instance : WireForm Price where
  encode p := .ofString p.text
  decode?
    | .text (some s) => (Decimal.read? s).map Price.mk
    | .number n => n.decimal?.map Price.mk
    | _ => none

instance : WireForm Quantity where
  encode q := WireForm.encode q.count
  decode? j := (WireForm.decode? j).map Quantity.mk

instance : WireForm InstrumentId where
  encode i := WireForm.encode i.number
  decode? j := (WireForm.decode? j).map InstrumentId.mk

instance : WireForm UserId where
  encode u := WireForm.encode u.number
  decode? j := (WireForm.decode? j).map UserId.mk

instance : WireForm OrderId where
  encode o := WireForm.encode o.number
  decode? j := (WireForm.decode? j).map OrderId.mk

instance : WireForm Timestamp where
  encode t := WireForm.encode t.millis
  decode? j := (WireForm.decode? j).map Timestamp.mk

/-- The wire form of a choice by the names of its members. -/
@[reducible] def WireForm.ofNames {α : Type} (name : α → String) (members : List α) :
    WireForm α where
  encode a := .ofString (name a)
  decode? j := j.choice?.bind fun s => members.find? fun a => name a = s

/-- The name of a side on the wire. -/
def Side.wireName : Side → String
  | .ask => "Ask"
  | .bid => "Bid"

instance : WireForm Side := .ofNames Side.wireName [.ask, .bid]

/-- The name of an order type on the wire. -/
def OrderType.wireName : OrderType → String
  | .limit => "Limit"
  | .market => "Market"
  | .stopLoss => "StopLoss"
  | .stopLossActive => "StopLossActive"

instance : WireForm OrderType :=
  .ofNames OrderType.wireName [.limit, .market, .stopLoss, .stopLossActive]

/-- The name of a fill status on the wire. -/
def FillStatus.wireName : FillStatus → String
  | .undone => "undone"
  | .done => "done"
  | .alreadyClosed => "already_closed"

instance : WireForm FillStatus := .ofNames FillStatus.wireName [.undone, .done, .alreadyClosed]

/-- The name of a trigger condition on the wire. -/
def TriggerCondition.wireName : TriggerCondition → String
  | .above => "Above"
  | .below => "Below"

instance : WireForm TriggerCondition := .ofNames TriggerCondition.wireName [.above, .below]

end Bourse
