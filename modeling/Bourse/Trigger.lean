import Bourse.Order

/-!
# Stop-loss triggers

A dormant stop-loss waits for the market to move against its owner: one that sells waits for a
trade at or below its trigger price, one that buys for a trade at or above it
(`TriggerCondition.ofSide`, `Order.isReachedBy`).
-/

namespace Bourse

/-- How a trade price reaches a trigger price. -/
inductive TriggerCondition where
  /-- A trade at or above the trigger reaches it. -/
  | above
  /-- A trade at or below the trigger reaches it. -/
  | below
deriving DecidableEq

namespace TriggerCondition

/-- The condition of a stop-loss on the given side. -/
def ofSide : Side → TriggerCondition
  | .ask => below
  | .bid => above

/-- The trade price reaches the trigger price. -/
def isMet : TriggerCondition → (trigger trade : Price) → Bool
  | above, trigger, trade => trigger ≤ trade
  | below, trigger, trade => trade ≤ trigger

end TriggerCondition

/-- The trade price reaches the order's price, read as the trigger of a stop-loss on its side. -/
def Order.isReachedBy (o : Order) (trade : Price) : Bool :=
  (TriggerCondition.ofSide o.side).isMet o.price trade

end Bourse
