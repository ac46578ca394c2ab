import Bourse.Proofs.Queue.Served

/-!
# Queues in use

A `Counter` is one queue under a sequence of `QueueCall`s, beside a table of orders that others
change as they like. It starts empty, and keeps account of the items that were put in and of those
that were given out.

Whatever is called, the array stays a heap, the account balances (`Counter.Sound`), and the queue
serves by rank: what it gives out next is outranked by nothing it holds (`Counter.serves_by_rank`).
-/

namespace Bourse

/-- What is done to a queue, or to the orders in it. -/
inductive QueueCall where
  /-- An order is put in, ranked by what it is now. -/
  | push (r : OrderRef)
  /-- An item is put in, ranked by the snapshot it has. -/
  | pushItem (i : Item)
  /-- The first item is taken out. -/
  | pop
  /-- The first item is taken out if its order is accepted as it is now. -/
  | popIf (take : OrderRef → Order → Bool)
  /-- Orders are filled, closed, activated, or changed in any other way. -/
  | change (orders : Orders)

/-- A queue in use. -/
structure Counter where
  /-- The orders as they are now. -/
  orders : Orders
  queue : Queue
  /-- The items that were put in. -/
  received : Multiset Item
  /-- The items that were given out. -/
  given : Multiset Item

namespace Queue

variable {direction : PriceDirection} {q rest : Queue} {i h : Item} {take : OrderRef → Bool}

/-- An item is one that the queue may serve first: it is queued, and nothing that is queued
outranks it. -/
structure Best (direction : PriceDirection) (q : Queue) (i : Item) : Prop where
  queued : i ∈ q.bag
  isLE : ∀ j ∈ q.bag, (rank direction j i).isLE

/-- The answer of a queue that was asked to give out its first item if it is accepted. -/
inductive Answered (direction : PriceDirection) (q : Queue) (take : OrderRef → Bool) :
    Option Item × Queue → Prop
  /-- The first item was given out. It ranks best, and all others are left. -/
  | given {i : Item} {rest : Queue} (head : q.headItem? = some i) (accepted : take i.order = true)
    (best : Best direction q i) (left : q.bag = i ::ₘ rest.bag) :
    Answered direction q take (some i, rest)
  /-- The first item was refused, or there is none. Nothing changed. -/
  | kept (refused : ∀ i, q.headItem? = some i → take i.order = false) :
    Answered direction q take (none, q)

/-- The head of an ordered queue is best. -/
theorem Ordered.best (hq : q.Ordered direction) (hh : q.headItem? = some h) : Best direction q h :=
  ⟨mem_bag_of_headItem? hh, fun _ hj => hq.isLE_head hh hj⟩

/-- A request to an ordered queue is answered with its best item. -/
theorem Ordered.answered (hq : q.Ordered direction) (take : OrderRef → Bool) :
    Answered direction q take (q.popIf take) := by
  unfold popIf
  cases hh : q.headItem? with
  | none => exact .kept fun i hi => nomatch hh.symm.trans hi
  | some i =>
    cases htake : take i.order with
    | false =>
      simp only [htake]
      exact .kept fun j hj => Option.some.inj (hh.symm.trans hj) ▸ htake
    | true =>
      simp only [htake]
      exact .given hh htake (hq.best hh) (bag_dropHead hh)

/-- What a queue gives out next and what it keeps is what it held. -/
theorem Answered.bag_eq {answer : Option Item × Queue} (h : Answered direction q take answer) :
    answer.2.bag + (answer.1.toList : Multiset Item) = q.bag := by
  cases h with
  | given _ _ _ left => rw [left, Multiset.add_comm]; rfl
  | kept => exact Multiset.add_zero _

/-- A queue keeps its order when it is asked for its first item. -/
theorem Ordered.popIf (hq : q.Ordered direction) (take : OrderRef → Bool) :
    (q.popIf take).2.Ordered direction := by
  unfold Queue.popIf
  split
  · split
    · exact hq.dropHead
    · exact hq
  · exact hq

end Queue

namespace Counter

open Queue (Ordered Answered Best)

variable {direction : PriceDirection} {c : Counter}

/-- An empty queue beside a table of orders. -/
def opening (direction : PriceDirection) (orders : Orders) : Counter :=
  ⟨orders, .empty direction, 0, 0⟩

/-- Puts an order in, and notes the snapshot of it as it is now. -/
def push (c : Counter) (r : OrderRef) : Counter :=
  let o := c.orders.get r
  { c with queue := c.queue.push r o, received := .ofOrder r o ::ₘ c.received }

/-- Puts an item in. -/
def receive (c : Counter) (i : Item) : Counter :=
  { c with queue := c.queue.pushItem i, received := i ::ₘ c.received }

/-- Notes the answer of the queue. -/
def give (c : Counter) (answer : Option Item × Queue) : Counter :=
  { c with queue := answer.2, given := (answer.1.toList : Multiset Item) + c.given }

/-- Carries out a call. -/
def apply (c : Counter) : QueueCall → Counter
  | .push r => c.push r
  | .pushItem i => c.receive i
  | .pop => c.give c.queue.pop
  | .popIf take => c.give (c.queue.popIf fun r => take r (c.orders.get r))
  | .change orders => { c with orders }

/-- Carries out calls, the first first. -/
def run (c : Counter) (calls : List QueueCall) : Counter := calls.foldl apply c

/-- The queue is in order, and the account balances. -/
structure Sound (direction : PriceDirection) (c : Counter) : Prop where
  ordered : c.queue.Ordered direction
  balance : c.queue.bag + c.given = c.received

/-- A fresh counter is sound. -/
theorem sound_opening (direction : PriceDirection) (orders : Orders) :
    (opening direction orders).Sound direction := ⟨Queue.ordered_empty, rfl⟩

/-- An order is put in with the snapshot that is noted. -/
theorem Sound.push (hc : c.Sound direction) (r : OrderRef) : (c.push r).Sound direction := by
  refine ⟨hc.ordered.pushItem _, ?_⟩
  show (c.queue.push r (c.orders.get r)).bag + c.given = .ofOrder r (c.orders.get r) ::ₘ c.received
  rw [Queue.push, Queue.bag_pushItem, Multiset.cons_add, hc.balance]

/-- A counter stays sound as it receives an item. -/
theorem Sound.receive (hc : c.Sound direction) (i : Item) : (c.receive i).Sound direction := by
  refine ⟨hc.ordered.pushItem i, ?_⟩
  show (c.queue.pushItem i).bag + c.given = i ::ₘ c.received
  rw [Queue.bag_pushItem, Multiset.cons_add, hc.balance]

/-- A counter stays sound as it gives one out. -/
theorem Sound.give (hc : c.Sound direction) (take : OrderRef → Bool) :
    (c.give (c.queue.popIf take)).Sound direction := by
  refine ⟨hc.ordered.popIf take, ?_⟩
  have hbag := (hc.ordered.answered take).bag_eq
  show (c.queue.popIf take).2.bag + (_ + c.given) = c.received
  rw [← Multiset.add_assoc, hbag, hc.balance]

/-- Each call leaves the queue in order and the account balanced. -/
theorem Sound.apply (hc : c.Sound direction) (call : QueueCall) :
    (c.apply call).Sound direction := by
  cases call with
  | push r => exact hc.push r
  | pushItem i => exact hc.receive i
  | pop => exact hc.give _
  | popIf take => exact hc.give _
  | change orders => exact ⟨hc.ordered, hc.balance⟩

/-- A counter stays sound over all calls, by induction on them. -/
theorem Sound.run (hc : c.Sound direction) (calls : List QueueCall) :
    (c.run calls).Sound direction := by
  induction calls generalizing c with
  | nil => exact hc
  | cons call rest ih => exact ih (hc.apply call)

/-- How a queue serves. -/
structure ServesByRank (direction : PriceDirection) (c : Counter) : Prop where
  /-- No item outranks its parent. -/
  heap : IsHeap direction c.queue.items
  /-- What is queued, with the snapshots with which it was put in, is what was put in without what
  was given out, and nothing was given out that was not put in. -/
  bag : c.queue.bag = c.received - c.given ∧ c.given ≤ c.received
  /-- The head is the order of the first item, which ranks best. There is none only if nothing is
  queued. -/
  head : (∀ i, c.queue.headItem? = some i →
      c.queue.head? = some i.order ∧ Best direction c.queue i) ∧
    (c.queue.head? = none ↔ c.queue.bag = 0)
  /-- Taking the first item out gives the best, and leaves the others. -/
  pop : Answered direction c.queue (fun _ => true) c.queue.pop
  /-- Taking the first item out if it is accepted does the same, or nothing. -/
  popIf : ∀ take, Answered direction c.queue take (c.queue.popIf take)
  /-- All items are given out, each but the last followed by one that does not outrank it. -/
  drain : (c.queue.drain : Multiset Item) = c.queue.bag ∧
    c.queue.drain.Pairwise fun a b => (rank direction b a).isLE
  /-- Items that take any price are given out before all others. -/
  marketFirst : c.queue.drain.Pairwise fun a b => b.isMarket = true → a.isMarket = true

/-- Whatever is done to a queue that starts empty, and to its orders, it is a heap that holds what
was put in and not given out, and it serves by rank. -/
theorem serves_by_rank (direction : PriceDirection) (orders : Orders) (calls : List QueueCall) :
    ServesByRank direction ((opening direction orders).run calls) := by
  have hsound := (sound_opening direction orders).run calls
  have hordered := hsound.ordered
  have hdrain := Queue.pairwise_drain hordered
  refine ⟨hordered.heap, ⟨?_, ?_⟩, ⟨fun i hi => ⟨congrArg _ hi, hordered.best hi⟩, ?_⟩,
    hordered.answered _, hordered.answered, ⟨Queue.coe_drain hordered, hdrain⟩, ?_⟩
  · rw [← hsound.balance, Multiset.add_sub_cancel_right]
  · rw [← hsound.balance]
    exact Multiset.le_add_left _ _
  · exact Option.map_eq_none_iff.trans Queue.headItem?_eq_none
  · exact hdrain.imp fun hle => isMarket_of_isLE hle

/-- A queue of an ask at 100 that is closed while queued, a market order and an ask at 90 gives out
the market order, then the better price, then the closed order. -/
example :
    let order (n : UInt64) (type : OrderType) (price : UInt64) : Order :=
      { Order.blank with
        id := ⟨n⟩, type, price := .ofUInt64 price, quantity := ⟨5⟩, closed := false }
    let orders : Orders := ⟨#[order 1 .limit 100, order 2 .market 0, order 3 .limit 90]⟩
    let c := (opening .lowestFirst orders).run
      [.push ⟨0⟩, .push ⟨1⟩, .change (orders.modify ⟨0⟩ Order.close), .push ⟨2⟩,
        .popIf fun _ o => o.closed]
    c.queue.drain.map (·.id.number) = [2, 3, 1] := by
  decide +kernel

end Counter

end Bourse
