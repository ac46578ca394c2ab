import Bourse.Action
import Bourse.Depth.Delta
import Bourse.PriceMap

/-!
# The levels of one side

`Levels` holds the resting quantity at each price of one side, and by how much each changed since
the differences were last taken. Quantity is added to a level by `Levels.add` and taken off by
`Levels.remove`; a level of zero, and a difference of zero, have no entry.

A level is written before its difference, so a difference that leaves its range breaks off with the
level already changed.
-/

namespace Bourse

/-- The depth of one side. -/
structure Levels where
  /-- The resting quantity at each price. -/
  depth : PriceMap Quantity
  /-- The change at each price since the differences were last taken. -/
  diff : PriceMap Int64

namespace Levels

/-- No depth and no differences. -/
def empty : Levels := ⟨.empty, .empty⟩

/-- The resting quantity at a price. -/
def quantityAt (l : Levels) (p : Price) : Quantity := (l.depth.find? p).getD .zero

/-- The sum of all levels, from the lowest price up. -/
def total (l : Levels) : Except Failure Quantity :=
  l.depth.entries.foldlM (fun sum e => sum.add e.2) .zero

/-- Adds to the difference at a price. -/
def recordDiff (p : Price) (delta : Int64) : Action Levels Unit := do
  let l ← Action.current
  let sum ← Action.ofExcept (Delta.add ((l.diff.find? p).getD 0) delta)
  Action.replace { l with diff := if sum = 0 then l.diff.erase p else l.diff.insert p sum }

/-- Adds quantity to a level. -/
def add (p : Price) (q : Quantity) : Action Levels Unit := do
  let l ← Action.current
  let sum ← Action.ofExcept ((l.quantityAt p).add q)
  Action.replace { l with depth := l.depth.insert p sum }
  recordDiff p q.signed

/-- Takes quantity off a level. If the level holds less it is dropped, and the answer is what it
held. -/
def remove (p : Price) (q : Quantity) : Action Levels (Option Quantity) := do
  let l ← Action.current
  let held := l.quantityAt p
  match held.sub? q with
  | some rest =>
    Action.replace
      { l with depth := if rest.isZero then l.depth.erase p else l.depth.insert p rest }
    recordDiff p (← Action.ofExcept (Delta.neg q.signed))
    return none
  | none =>
    Action.replace { l with depth := l.depth.erase p }
    if !held.isZero then
      recordDiff p (← Action.ofExcept (Delta.neg held.signed))
    return some held

end Levels

end Bourse
