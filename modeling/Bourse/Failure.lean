/-!
# Failures

An operation of the exchange can be broken off in the middle: a sum leaves its range, a fill asks
for more than is left, the settlement backend crashes. A `Failure` names the reason, and
`Failure.message` is its text.

Whatever the operation wrote before the failure stays written, so an operation that can fail
returns its state also then (`Bourse.Action`).
-/

namespace Bourse

/-- Why an operation was broken off. -/
inductive Failure where
  /-- A sum of quantities or of depth differences leaves its range. -/
  | additionOverflow
  /-- The negation of a depth difference leaves its range. -/
  | negationOverflow
  /-- A quantity was to be taken off a smaller one. -/
  | quantityUnderflow
  /-- A fill asked for more than the order has left. -/
  | overfill
  /-- The settlement backend crashed. -/
  | backendCrash
  /-- A price below zero was put in. -/
  | negativePrice
  /-- A matching pass outran the bound on its steps. -/
  | stepLimit
deriving DecidableEq

/-- The text of a failure. -/
def Failure.message : Failure → String
  | additionOverflow => "attempt to add with overflow"
  | negationOverflow => "attempt to negate with overflow"
  | quantityUnderflow => "quantity underflow"
  | overfill => "cannot fill more than remaining"
  | backendCrash => "settlement backend crashed"
  | negativePrice => "assertion failed: value >= Decimal::ZERO"
  | stepLimit => "matching did not end within its step limit"

end Bourse
