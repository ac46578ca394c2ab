import Bourse.Proofs.Book.Process

/-!
# The stock of a book

`Book.stock` are the items of all four queues of a book together. What is taken out of a queue or
put into it is taken out of the stock or put into it, and the other queues keep what they hold.
-/

namespace Bourse

variable {σ : Type} {side : Side} {r : OrderRef} {i : Item}

namespace Book

variable {b b' : Book} {m : Multiset Item}

/-- The items of all four queues. -/
def stock (b : Book) : Multiset Item :=
  (b.queue .ask).bag + (b.queue .bid).bag + (b.stopLossQueue .ask).bag + (b.stopLossQueue .bid).bag

/-- Books with the same queues have the same stock. -/
theorem stock_congr (hqueue : ∀ s, b'.queue s = b.queue s)
    (hstop : ∀ s, b'.stopLossQueue s = b.stopLossQueue s) : b'.stock = b.stock := by
  unfold stock
  rw [hqueue, hqueue, hstop, hstop]

/-- Taking items out of a queue of resting orders takes them out of the stock. -/
theorem stock_of_queue (side : Side) (hqueue : ∀ s, side ≠ s → b'.queue s = b.queue s)
    (hstop : ∀ s, b'.stopLossQueue s = b.stopLossQueue s)
    (hbag : (b.queue side).bag = m + (b'.queue side).bag) : b.stock = m + b'.stock := by
  unfold stock
  rw [hstop, hstop]
  cases side
  · rw [hqueue .bid (by decide), hbag]
    abel
  · rw [hqueue .ask (by decide), hbag]
    abel

/-- Taking items out of a queue of dormant stop-losses takes them out of the stock. -/
theorem stock_of_stopLossQueue (side : Side) (hqueue : ∀ s, b'.queue s = b.queue s)
    (hstop : ∀ s, side ≠ s → b'.stopLossQueue s = b.stopLossQueue s)
    (hbag : (b.stopLossQueue side).bag = m + (b'.stopLossQueue side).bag) :
    b.stock = m + b'.stock := by
  unfold stock
  rw [hqueue, hqueue]
  cases side
  · rw [hstop .bid (by decide), hbag]
    abel
  · rw [hstop .ask (by decide), hbag]
    abel

/-- Putting another queue of resting orders in place leaves the rest of the stock. -/
theorem stock_withQueue (b : Book) (q : Queue) (side : Side) : ∃ rest,
    b.stock = (b.queue side).bag + rest ∧ (b.withQueue q side).stock = q.bag + rest := by
  cases side with
  | ask =>
    refine ⟨b.bids.bag + b.askStopLosses.bag + b.bidStopLosses.bag, ?_, ?_⟩ <;>
      simp only [stock, queue, stopLossQueue, withQueue] <;> abel
  | bid =>
    refine ⟨b.asks.bag + b.askStopLosses.bag + b.bidStopLosses.bag, ?_, ?_⟩ <;>
      simp only [stock, queue, stopLossQueue, withQueue] <;> abel

/-- Putting another queue of dormant stop-losses in place leaves the rest of the stock. -/
theorem stock_withStopLossQueue (b : Book) (q : Queue) (side : Side) : ∃ rest,
    b.stock = (b.stopLossQueue side).bag + rest ∧
      (b.withStopLossQueue q side).stock = q.bag + rest := by
  cases side with
  | ask =>
    refine ⟨b.asks.bag + b.bids.bag + b.bidStopLosses.bag, ?_, ?_⟩ <;>
      simp only [stock, queue, stopLossQueue, withStopLossQueue] <;> abel
  | bid =>
    refine ⟨b.asks.bag + b.bids.bag + b.askStopLosses.bag, ?_, ?_⟩ <;>
      simp only [stock, queue, stopLossQueue, withStopLossQueue] <;> abel

/-- The stock of a book is what is in one of its queues. -/
theorem mem_stock : i ∈ b.stock ↔ ∃ s, i ∈ (b.queue s).bag ∨ i ∈ (b.stopLossQueue s).bag := by
  unfold stock
  simp only [Multiset.mem_add]
  constructor
  · rintro (((h | h) | h) | h)
    · exact ⟨.ask, .inl h⟩
    · exact ⟨.bid, .inl h⟩
    · exact ⟨.ask, .inr h⟩
    · exact ⟨.bid, .inr h⟩
  · rintro ⟨s, h | h⟩
    · cases s
      · exact .inl (.inl (.inl h))
      · exact .inl (.inl (.inr h))
    · cases s
      · exact .inl (.inr h)
      · exact .inr h

end Book

namespace Desk

variable {d d' : Desk σ} {exclude : Option UserId} {dropped : Multiset Item} {aside : List Item}

/-- A search takes out of the stock what it drops and sets aside. -/
theorem Searched.stock (h : Searched side exclude d d' dropped aside) :
    d.book.stock = dropped + aside + d'.book.stock :=
  Book.stock_of_queue side (fun _ hs => h.queue_of_ne hs) h.stopLossQueue h.bag

/-- Without the head of a queue the stock is one item less. -/
theorem stock_withoutHead (hh : (d.book.queue side).headItem? = some i) (l : Ledger) :
    d.book.stock = {i} + (d.withoutHead side l).book.stock := by
  refine Book.stock_of_queue side (fun _ hs => queue_withoutHead_of_ne d side l hs)
    (stopLossQueue_withoutHead d side l) ?_
  rw [bag_withoutHead hh l, Multiset.singleton_add]

/-- What is put back comes into the stock. -/
theorem stock_withItems (items : List Item) :
    (d.withItems side items).book.stock = items + d.book.stock := by
  refine Book.stock_of_queue side (fun s hs => ?_) (fun s => ?_) ?_
  · rw [queue_withItems, if_neg hs]
  · rw [stopLossQueue_withItems]
  · rw [bag_withItems]

/-- The other queue of dormant stop-losses stays. -/
theorem stopLossQueue_withoutDormant_of_ne {s : Side} (hs : side ≠ s) :
    (d.withoutDormant side).book.stopLossQueue s = d.book.stopLossQueue s := by
  unfold withoutDormant
  rw [Book.stopLossQueue_withStopLossQueue, if_neg hs]

/-- The resting orders stay where a dormant stop-loss leaves. -/
theorem queue_withoutDormant (s : Side) :
    (d.withoutDormant side).book.queue s = d.book.queue s := Book.queue_withStopLossQueue ..

/-- The items of a queue of dormant stop-losses are its head and those without it. -/
theorem bag_withoutDormant (hh : (d.book.stopLossQueue side).headItem? = some i) :
    (d.book.stopLossQueue side).bag = i ::ₘ
    ((d.withoutDormant side).book.stopLossQueue side).bag := by
  rw [stopLossQueue_withoutDormant, Queue.bag_dropHead hh]

/-- Without the head of a queue of dormant stop-losses the stock is one item less. -/
theorem stock_withoutDormant (hh : (d.book.stopLossQueue side).headItem? = some i) :
    d.book.stock = {i} + (d.withoutDormant side).book.stock := by
  refine Book.stock_of_stopLossQueue side queue_withoutDormant
    (fun _ hs => stopLossQueue_withoutDormant_of_ne hs) ?_
  rw [bag_withoutDormant hh, Multiset.singleton_add]

/-- The dormant stop-losses stay where an order comes to rest. -/
theorem stopLossQueue_rested (d : Desk σ) (side : Side) (r : OrderRef) (l : Ledger) (s : Side) :
    (d.rested side r l).book.stopLossQueue s = d.book.stopLossQueue s :=
  (Book.stopLossQueue_withLedger ..).trans (stopLossQueue_withItems ..)

/-- An order that rests comes into the stock. -/
theorem stock_rested (d : Desk σ) (side : Side) (r : OrderRef) (l : Ledger) :
    (d.rested side r l).book.stock = {.ofOrder r (d.order r)} + d.book.stock := by
  have hitems : (d.rested side r l).book.stock =
      (d.withItems side [.ofOrder r (d.order r)]).book.stock :=
    Book.stock_congr (fun _ => Book.queue_withLedger ..) fun _ => Book.stopLossQueue_withLedger ..
  rw [hitems, stock_withItems]
  rfl

/-- A stop-loss that is put aside comes into the queue of its side, and no other. -/
theorem stopLossQueue_parked (d : Desk σ) (r : OrderRef) (s : Side) :
    (d.parked r).book.stopLossQueue s = if (d.order r).side = s then
      (d.book.stopLossQueue s).push r (d.order r) else d.book.stopLossQueue s := by
  unfold parked
  rw [Book.stopLossQueue_withStopLossQueue]
  split
  · next h => rw [h]
  · rfl

/-- A stop-loss that is put aside comes into the stock. -/
theorem stock_parked (d : Desk σ) (r : OrderRef) :
    (d.parked r).book.stock = {.ofOrder r (d.order r)} + d.book.stock := by
  refine Book.stock_of_stopLossQueue (d.order r).side (fun s => ?_) (fun s hs => ?_) ?_
  · exact (Book.queue_withStopLossQueue ..).symm
  · rw [stopLossQueue_parked, if_neg hs]
  · rw [stopLossQueue_parked, if_pos rfl, Queue.push, Queue.bag_pushItem, Multiset.singleton_add]

end Desk

end Bourse
