import Bourse.Settlement.Interface

/-!
# Simulated settlement

`Simulated` settles in memory. An open pair trades as much as was asked for and both orders have
left. Users can be flagged as unable to settle (`Simulated.reject`); an order of theirs is closed
when it should trade, and the other side keeps waiting.

Trades are stamped with the time the backend shows, `Simulated.now`.
-/

namespace Bourse

/-- The state of simulated settlement. -/
structure Simulated where
  /-- All trades, the oldest first. -/
  trades : Array Trade
  /-- The users that cannot settle. -/
  rejected : List UserId
  /-- The stop-losses that became active, the earliest first. -/
  activated : Array OrderId
  /-- The time that the next trade is stamped with. -/
  now : Timestamp

namespace Simulated

/-- A backend without trades, in which every user can settle. -/
def empty : Simulated where
  trades := #[]
  rejected := []
  activated := #[]
  now := ⟨0⟩

/-- Flags a user as unable to settle. -/
def reject (s : Simulated) (u : UserId) : Simulated := { s with rejected := u :: s.rejected }

/-- The user cannot settle. -/
def isRejected (s : Simulated) (u : UserId) : Bool := s.rejected.contains u

/-- The status of a side that may just have been finished. -/
def statusOf (finished : Bool) : FillStatus := if finished then .done else .undone

/-- Adds a fill to an order. -/
def fillOrder (r : OrderRef) (q : Quantity) : Action (Office Simulated) Unit := do
  let o ← Action.current
  let filled ← Action.ofExcept ((o.orders.get r).fill q)
  Action.replace { o with orders := o.orders.set r filled }

/-- Closes the orders of a pair whose users cannot settle. -/
def closeRejected (ask bid : OrderRef) (askRejected bidRejected : Bool) :
    Action (Office Simulated) FillOutcome := do
  if askRejected then
    Office.onOrders (Action.change (·.modify ask Order.close))
  if bidRejected then
    Office.onOrders (Action.change (·.modify bid Order.close))
  return ⟨statusOf askRejected, statusOf bidRejected, none⟩

/-- Lets an open pair trade. -/
def trade (ask bid : OrderRef) (price : Price) (q : Quantity) :
    Action (Office Simulated) FillOutcome := do
  fillOrder ask q
  fillOrder bid q
  let o ← Action.current
  let a := o.orders.get ask
  let b := o.orders.get bid
  let trade : Trade := ⟨a.id, b.id, price, q, o.backend.now⟩
  Action.replace { o with backend := { o.backend with trades := o.backend.trades.push trade } }
  return ⟨statusOf a.closed, statusOf b.closed, some trade⟩

/-- Settles a pair: a side that is closed stays as it is, a user that cannot settle is closed, and
otherwise the two trade at most the quantity asked for. -/
def settle (ask bid : OrderRef) (price : Price) (q : Quantity) :
    Action (Office Simulated) FillOutcome := do
  let o ← Action.current
  let a := o.orders.get ask
  let b := o.orders.get bid
  match a.closed, b.closed with
  | true, true => return ⟨.alreadyClosed, .alreadyClosed, none⟩
  | true, false => return ⟨.alreadyClosed, .undone, none⟩
  | false, true => return ⟨.undone, .alreadyClosed, none⟩
  | false, false =>
    let askRejected := o.backend.isRejected a.user
    let bidRejected := o.backend.isRejected b.user
    if askRejected || bidRejected then
      closeRejected ask bid askRejected bidRejected
    else
      trade ask bid price (min (min q a.unfulfilled) b.unfulfilled)

/-- Notes an activated stop-loss. -/
def noteStopLoss (r : OrderRef) : Action (Office Simulated) Unit := do
  let o ← Action.current
  let id := (o.orders.get r).id
  Action.replace { o with backend := { o.backend with activated := o.backend.activated.push id } }
  Action.log (.stopLossPersisted id)

/-- Simulated settlement. It calls a side finished only when the order is closed. -/
def settlement : Settlement Simulated where
  fill := settle
  stopLossTriggered := noteStopLoss
  patience _ := 0

end Simulated

end Bourse
