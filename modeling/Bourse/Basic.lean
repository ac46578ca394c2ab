/-!
# Identifiers and sides

Instruments, users and orders are known by numbers, each with a type of its own (`InstrumentId`,
`UserId`, `OrderId`). Every order is on one `Side`: an ask sells, a bid buys.
-/

namespace Bourse

/-- The number of an instrument. -/
structure InstrumentId where
  number : UInt32
deriving DecidableEq

/-- The number of a user. -/
structure UserId where
  number : UInt32
deriving DecidableEq

/-- The number of an order; numbers are given out in the order of arrival. -/
structure OrderId where
  number : UInt64
deriving DecidableEq

/-- The number of the instrument in digits. -/
def InstrumentId.text (i : InstrumentId) : String := toString i.number.toNat

/-- The number of the user in digits. -/
def UserId.text (u : UserId) : String := toString u.number.toNat

/-- The number of the order in digits. -/
def OrderId.text (o : OrderId) : String := toString o.number.toNat

/-- The side of an order. -/
inductive Side where
  /-- The order sells. -/
  | ask
  /-- The order buys. -/
  | bid
deriving DecidableEq

namespace Side

/-- The side an order trades with. -/
def opposite : Side → Side
  | ask => bid
  | bid => ask

/-- The name of the side. -/
def text : Side → String
  | ask => "ask"
  | bid => "bid"

/-- The side opposite to the opposite one is the side itself. -/
@[simp] theorem opposite_opposite (s : Side) : s.opposite.opposite = s := by cases s <;> rfl

/-- No side is its own opposite. -/
theorem opposite_ne (s : Side) : s.opposite ≠ s := by cases s <;> decide

end Side

end Bourse
