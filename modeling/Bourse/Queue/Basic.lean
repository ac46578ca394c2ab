import Bourse.Queue.Item

/-!
# Priority queues

A `Queue` is a binary heap of items in an array: position 1 is the top, and the children of
position `k` are at `2k` and `2k + 1`. An item enters at the end and swims up (`swim`); when the
top leaves, the last item takes its place and sinks (`sink`).

Items that rank equal are served in the order in which these exchanges leave them.
-/

namespace Bourse

/-- The item at position `i` is served before the one at position `j`. -/
def outranks (direction : PriceDirection) (items : Array Item) (i j : Nat) : Bool :=
  match items[i - 1]?, items[j - 1]? with
  | some a, some b => rank direction a b == .gt
  | _, _ => false

/-- Exchanges the items at two positions. -/
def exchange (items : Array Item) (i j : Nat) : Array Item := items.swapIfInBounds (i - 1) (j - 1)

/-- Exchanging two items leaves as many. -/
@[simp] theorem size_exchange (items : Array Item) (i j : Nat) :
    (exchange items i j).size = items.size := by simp [exchange]

/-- Moves the item at position `k` up while it outranks its parent. -/
def swim (direction : PriceDirection) (items : Array Item) (k : Nat) : Array Item :=
  if _h : 1 < k then
    if outranks direction items k (k / 2) then
      swim direction (exchange items k (k / 2)) (k / 2)
    else
      items
  else
    items
termination_by k

/-- The child of position `k` that is served first; the right one only if it outranks the left. -/
def preferredChild (direction : PriceDirection) (items : Array Item) (k : Nat) : Nat :=
  if 2 * k < items.size ∧ outranks direction items (2 * k + 1) (2 * k) then 2 * k + 1 else 2 * k

/-- The preferred child is below its parent. -/
theorem le_preferredChild (direction : PriceDirection) (items : Array Item) (k : Nat) :
    2 * k ≤ preferredChild direction items k := by
  unfold preferredChild
  split <;> omega

/-- Moves the item at position `k` down while a child outranks it. -/
def sink (direction : PriceDirection) (items : Array Item) (k : Nat) : Array Item :=
  if _h : 0 < k ∧ 2 * k ≤ items.size then
    let child := preferredChild direction items k
    if outranks direction items child k then
      sink direction (exchange items k child) child
    else
      items
  else
    items
termination_by items.size - k
decreasing_by
  have := le_preferredChild direction items k
  simp only [size_exchange]
  omega

/-- A priority queue of orders. -/
structure Queue where
  direction : PriceDirection
  items : Array Item

namespace Queue

/-- A queue without orders. -/
def empty (direction : PriceDirection) : Queue := ⟨direction, #[]⟩

/-- The number of orders queued. -/
def size (q : Queue) : Nat := q.items.size

/-- Nothing is queued. -/
def isEmpty (q : Queue) : Bool := q.items.isEmpty

/-- Adds an item. One that was in the queue before gets its old rank back. -/
def pushItem (q : Queue) (i : Item) : Queue :=
  let items := q.items.push i
  { q with items := swim q.direction items items.size }

/-- Adds an order, ranked by what it is now. -/
def push (q : Queue) (r : OrderRef) (o : Order) : Queue := q.pushItem (.ofOrder r o)

/-- The item that is served first. -/
def headItem? (q : Queue) : Option Item := q.items[0]?

/-- The order that is served first. -/
def head? (q : Queue) : Option OrderRef := q.headItem?.map (·.order)

/-- The queue without its first item. -/
def dropHead (q : Queue) : Queue :=
  let items := (exchange q.items 1 q.items.size).pop
  { q with items := sink q.direction items 1 }

/-- Takes the first item out if its order is accepted. -/
def popIf (q : Queue) (take : OrderRef → Bool) : Option Item × Queue :=
  match q.headItem? with
  | some i => if take i.order then (some i, q.dropHead) else (none, q)
  | none => (none, q)

/-- Takes the first item out. -/
def pop (q : Queue) : Option Item × Queue := q.popIf fun _ => true

/-- All items in the order in which they are taken out. -/
def drain (q : Queue) : List Item := go q.size q
where
  /-- Takes out up to `n` items. -/
  go : Nat → Queue → List Item
    | 0, _ => []
    | n + 1, q =>
      match q.pop with
      | (some i, rest) => i :: go n rest
      | (none, _) => []

end Queue

end Bourse
