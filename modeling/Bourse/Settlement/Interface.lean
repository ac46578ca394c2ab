import Bourse.Action
import Bourse.Orders

/-!
# The settlement interface

Settlement is the party that fills orders: the book chooses a pair, a price and a quantity, and a
`Settlement` decides what becomes of it. It works on an `Office`, the table of orders together with
a state of its own, and may write the two orders in any way, crash, or answer anything.

Cancelling an order (`Orders.cancel`) belongs to settlement too, so that fills and cancellations of
an order come one after the other.
-/

namespace Bourse

/-- What settlement works on: the orders, and the state of the settlement backend. -/
structure Office (σ : Type) where
  orders : Orders
  backend : σ

namespace Office

variable {σ τ α : Type}

/-- Runs an action on the orders. -/
def onOrders (act : Action Orders α) : Action (Office σ) α :=
  act.within (·.orders) (fun os o => { o with orders := os })

/-- Runs an action on the state of the backend. -/
def onBackend (act : Action σ α) : Action (Office σ) α :=
  act.within (·.backend) (fun b o => { o with backend := b })

/-- Runs an action of a backend that is a part of this one. -/
def withinBackend (part : τ → σ) (put : σ → τ → τ) (act : Action (Office σ) α) :
    Action (Office τ) α :=
  act.within (fun o => ⟨o.orders, part o.backend⟩) (fun o t => ⟨o.orders, put o.backend t.backend⟩)

end Office

/-- Closes an open order. -/
def Orders.cancel (r : OrderRef) : Action Orders (Except CancelError Unit) := do
  let os ← Action.current
  let o := os.get r
  if o.closed then
    return .error (.alreadyClosed o.id)
  Action.replace (os.set r o.close)
  Action.log (.orderCancelled o.id o.side)
  return .ok ()

/-- Settlement of matches, with a backend state of type `σ`. -/
structure Settlement (σ : Type) where
  /-- Tries to trade a quantity between an ask and a bid at a price. -/
  fill : (ask bid : OrderRef) → Price → Quantity → Action (Office σ) FillOutcome
  /-- Takes note of a stop-loss that became active. -/
  stopLossTriggered : OrderRef → Action (Office σ) Unit
  /-- How many fills may still call an incoming order finished that is not. Matching an order goes
  on for this many steps longer than a backend without such answers needs. -/
  patience : σ → Nat

end Bourse
