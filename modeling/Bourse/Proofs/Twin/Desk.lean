import Bourse.Proofs.Book.Stock
import Bourse.Proofs.Twin.Ledger

/-!
# Desks that match the same

`Desk.Twin` relates two desks with one office whose books hold the same orders: the queues may have
come to be arranged differently, and the ledgers are only alike. The first book may also hold
orders that the second has already lost, as long as they can do nothing any more: they are closed,
and shown no longer (`Desk.Gone`). Whether it may is told by `lax`.

All orders that are about have different numbers, those in hand included, so the head of a queue is
determined by its items: either both queues have the same head, or that of the first is gone
(`Queue.Twin.headItem?_cases`).
-/

namespace Bourse

open Bourse.Action

/-! ## Queues -/

namespace Queue

variable {gone gone' : Item → Prop} {direction : PriceDirection} {q q' : Queue} {i : Item}

/-- The same items, but for some of the first queue that are gone. -/
structure Twin (gone : Item → Prop) (direction : PriceDirection) (q q' : Queue) : Prop where
  ordered : q.Ordered direction
  ordered' : q'.Ordered direction
  bag : ∃ extra, q.bag = extra + q'.bag ∧ ∀ i ∈ extra, gone i

namespace Twin

theorem refl (hq : q.Ordered direction) : Twin gone direction q q :=
  ⟨hq, hq, 0, (zero_add _).symm, fun _ h => absurd h (Multiset.notMem_zero _)⟩

theorem mono (h : Twin gone direction q q') (hgone : ∀ i ∈ q.bag, gone i → gone' i) :
    Twin gone' direction q q' := by
  obtain ⟨extra, hbag, hextra⟩ := h.bag
  refine ⟨h.ordered, h.ordered', extra, hbag, fun i hi => hgone i ?_ (hextra i hi)⟩
  exact hbag ▸ Multiset.mem_add.2 (.inl hi)

/-- Twins get the same item. -/
theorem pushItem (h : Twin gone direction q q') (i : Item) :
    Twin gone direction (q.pushItem i) (q'.pushItem i) := by
  obtain ⟨extra, hbag, hextra⟩ := h.bag
  refine ⟨h.ordered.pushItem i, h.ordered'.pushItem i, extra, ?_, hextra⟩
  rw [bag_pushItem, bag_pushItem, hbag, Multiset.add_cons]

/-- Twins get the same items. -/
theorem pushItems (h : Twin gone direction q q') (items : List Item) :
    Twin gone direction (items.foldl Queue.pushItem q) (items.foldl Queue.pushItem q') := by
  induction items generalizing q q' with
  | nil => exact h
  | cons i rest ih => exact ih (h.pushItem i)

/-- Where the first queue is empty the second is. -/
theorem headItem?_eq_none (h : Twin gone direction q q') (hh : q.headItem? = none) :
    q'.headItem? = none := by
  obtain ⟨extra, hbag, -⟩ := h.bag
  rw [Queue.headItem?_eq_none] at hh ⊢
  exact Multiset.le_zero.1 ((Multiset.le_add_left _ _).trans (hbag.symm.trans hh).le)

/-- The head of the first queue is that of the second too, or it is gone. -/
theorem headItem?_cases (h : Twin gone direction q q') (hids : (q.bag.map (·.id)).Nodup)
    (hh : q.headItem? = some i) :
    (q'.headItem? = some i ∧ Twin gone direction q.dropHead q'.dropHead) ∨
      (gone i ∧ Twin gone direction q.dropHead q') := by
  obtain ⟨extra, hbag, hextra⟩ := h.bag
  have hdrop := bag_dropHead hh
  have hi : i ∈ extra + q'.bag := hbag ▸ mem_bag_of_headItem? hh
  rcases Multiset.mem_add.1 hi with hi | hi
  · obtain ⟨rest, rfl⟩ := Multiset.exists_cons_of_mem hi
    rw [Multiset.cons_add, hdrop, Multiset.cons_inj_right] at hbag
    exact .inr ⟨hextra i hi, h.ordered.dropHead, h.ordered', rest, hbag,
      fun j hj => hextra j (Multiset.mem_cons_of_mem hj)⟩
  · cases hh' : q'.headItem? with
    | none => exact absurd (Queue.headItem?_eq_none.1 hh' ▸ hi) (Multiset.notMem_zero _)
    | some j =>
      have hj := mem_bag_of_headItem? hh'
      have hj : j ∈ q.bag := hbag ▸ Multiset.mem_add.2 (.inr hj)
      have heq : rank direction j i = .eq := Std.OrientedCmp.isLE_antisymm
        (h.ordered.isLE_head hh hj) (h.ordered'.isLE_head hh' hi)
      have hid : j.id = i.id := by
        by_contra hne
        exact rank_ne_eq hne heq
      obtain rfl : j = i := Multiset.inj_on_of_nodup_map hids _ hj _ (mem_bag_of_headItem? hh) hid
      refine .inl ⟨rfl, h.ordered.dropHead, h.ordered'.dropHead, extra, ?_, hextra⟩
      rw [hdrop, bag_dropHead hh', Multiset.add_cons, Multiset.cons_inj_right] at hbag
      exact hbag

/-- Where both queues have the same head it is taken off both. -/
theorem dropHeads (h : Twin gone direction q q') (hids : (q.bag.map (·.id)).Nodup)
    (hh : q.headItem? = some i) (hh' : q'.headItem? = some i) :
    Twin gone direction q.dropHead q'.dropHead := by
  rcases h.headItem?_cases hids hh with ⟨-, hdrop⟩ | ⟨-, hdrop⟩
  · exact hdrop
  · -- the head would be in the first queue twice
    obtain ⟨extra, hbag, -⟩ := hdrop.bag
    rw [bag_dropHead hh, Multiset.map_cons, Multiset.nodup_cons, hbag] at hids
    exact absurd (Multiset.mem_map_of_mem _
      (Multiset.mem_add.2 (.inr (mem_bag_of_headItem? hh')))) hids.1

/-- Where nothing is gone the queues hold the same. -/
theorem bag_eq (h : Twin gone direction q q') (hgone : ∀ i, ¬ gone i) : q'.bag = q.bag := by
  obtain ⟨extra, hbag, hextra⟩ := h.bag
  rw [hbag, Multiset.eq_zero_of_forall_notMem fun i hi => hgone i (hextra i hi), zero_add]

/-- Twins of which nothing is gone have one size. -/
theorem size_eq (h : Twin gone direction q q') (hgone : ∀ i, ¬ gone i) : q'.size = q.size :=
  congrArg Multiset.card (h.bag_eq hgone)

/-- Where nothing is gone the queues have the same head. -/
theorem headItem?_eq (h : Twin gone direction q q') (hgone : ∀ i, ¬ gone i)
    (hids : (q.bag.map (·.id)).Nodup) : q'.headItem? = q.headItem? := by
  cases hh : q.headItem? with
  | none => exact h.headItem?_eq_none hh
  | some i =>
    rcases h.headItem?_cases hids hh with ⟨hh', -⟩ | ⟨hi, -⟩
    · exact hh'
    · exact (hgone i hi).elim

end Twin

/-- The head of a queue is set aside. -/
theorem bag_dropHead_add (hh : q.headItem? = some i) (aside : Multiset Item) :
    q.dropHead.bag + (aside + {i}) = q.bag + aside := by
  rw [bag_dropHead hh, ← Multiset.singleton_add]
  abel

section Push

variable {aside aside' : Multiset Item} {hand hand' : Multiset OrderId} {o : Order}

/-- What is there after an order came in was there before, or is that order. -/
theorem mem_push (haside : aside' ≤ aside) (q : Queue) (r : OrderRef)
    (hi : i ∈ (q.push r o).bag + aside') : i ∈ q.bag + aside ∨ i = .ofOrder r o := by
  rw [push, bag_pushItem, Multiset.cons_add, Multiset.mem_cons] at hi
  exact hi.symm.imp_left (Multiset.mem_of_le (add_le_add_right haside _))

/-- An order came in whose number was taken before. -/
theorem numbers_push (hnumber : o.id ::ₘ (aside'.map (·.id) + hand') ≤ aside.map (·.id) + hand)
    (q : Queue) (r : OrderRef) :
    ((q.push r o).bag + aside').map (·.id) + hand' ≤ (q.bag + aside).map (·.id) + hand := by
  rw [push, bag_pushItem, Multiset.map_add, Multiset.map_cons, Multiset.map_add,
    add_assoc, add_assoc, Multiset.cons_add, ← Multiset.add_cons]
  exact add_le_add_right hnumber _

end Push

end Queue

/-! ## Desks -/

/-- Putting a queue in place that is there changes nothing. -/
theorem Book.withQueue_queue (b : Book) (side : Side) : b.withQueue (b.queue side) side = b := by
  cases side <;> rfl

/-- A queue that is put back where it was changes nothing. -/
theorem Book.withStopLossQueue_stopLossQueue (b : Book) (side : Side) :
    b.withStopLossQueue (b.stopLossQueue side) side = b := by cases side <;> rfl

namespace Desk

variable {lax : Bool} {aside aside' : Multiset Item} {hand hand' : Multiset OrderId}
  {d d' : Desk Simulated} {i : Item} {side : Side} {r : OrderRef} {q q' : Queue}

/-- The item is of a closed order that is shown no longer. -/
def Gone (lax : Bool) (d : Desk Simulated) (i : Item) : Prop :=
  lax = true ∧ (d.order i.order).closed = true ∧ d.book.ledger.find? i.id = none

/-- Both desks hold the same, but for what is gone in the first book. Some items are set aside, and
more numbers than those of the items are taken. -/
structure Twin (lax : Bool) (aside : Multiset Item) (hand : Multiset OrderId)
    (d d' : Desk Simulated) : Prop where
  office : d'.office = d.office
  header : d'.book.header = d.book.header
  ledger : d.book.ledger.Alike d'.book.ledger
  queue : ∀ s, (d.book.queue s).Twin (Gone lax d) (.ofResting s) (d'.book.queue s)
  dormant : ∀ s, (d.book.stopLossQueue s).Twin (Gone lax d) (.ofStopLoss s)
    (d'.book.stopLossQueue s)
  ids : ∀ i ∈ d.book.stock + aside, (d.order i.order).id = i.id
  distinct : ((d.book.stock + aside).map (·.id) + hand).Nodup

/-- A desk is its own twin if its orders have numbers of their own. -/
theorem Twin.refl (hqueue : ∀ s, (d.book.queue s).Ordered (.ofResting s))
    (hdormant : ∀ s, (d.book.stopLossQueue s).Ordered (.ofStopLoss s))
    (hids : ∀ i ∈ d.book.stock + aside, (d.order i.order).id = i.id)
    (hdistinct : ((d.book.stock + aside).map (·.id) + hand).Nodup) : Twin lax aside hand d d :=
  ⟨rfl, rfl, .refl _, fun s => .refl (hqueue s), fun s => .refl (hdormant s), hids, hdistinct⟩

namespace Twin

variable (h : Twin lax aside hand d d')

include h

/-- Twins have the same orders. -/
theorem order : d'.order = d.order := by
  unfold Desk.order
  rw [h.office]

theorem instrument : d'.book.instrument = d.book.instrument := congrArg (·.1) h.header

theorem lastPrice : d'.book.lastPrice = d.book.lastPrice := congrArg (·.2.1) h.header

theorem capacity : d'.book.capacity = d.book.capacity := congrArg (·.2.2.1) h.header

theorem phase : d'.book.phase = d.book.phase := congrArg (·.2.2.2) h.header

/-- Twins refuse alike once they have ended. -/
theorem stoppedError : d'.stoppedError = d.stoppedError :=
  congrArg EngineError.bookStopped h.instrument

/-- Numbers can be given up, and what is set aside can be lost. -/
theorem weaken (hhand : hand' ≤ hand) (haside : aside' ≤ aside) : Twin lax aside' hand' d d' where
  office := h.office
  header := h.header
  ledger := h.ledger
  queue := h.queue
  dormant := h.dormant
  ids i hi := h.ids i (Multiset.mem_of_le (add_le_add_right haside _) hi)
  distinct := by
    refine Multiset.nodup_of_le (add_le_add (Multiset.map_le_map ?_) hhand) h.distinct
    exact add_le_add_right haside _

/-- What is set aside is lost. -/
theorem lose : Twin lax 0 hand d d' := h.weaken le_rfl (Multiset.zero_le _)

/-- No two resting orders of a queue have one number. -/
theorem nodup_queue (s : Side) : ((d.book.queue s).bag.map (·.id)).Nodup := by
  obtain ⟨rest, hstock, -⟩ := d.book.stock_withQueue (d.book.queue s) s
  have hdistinct := h.distinct
  rw [hstock, add_assoc, Multiset.map_add, add_assoc] at hdistinct
  exact Multiset.nodup_of_le (Multiset.le_add_right _ _) hdistinct

/-- No two dormant stop-losses of a queue have one number. -/
theorem nodup_stopLossQueue (s : Side) : ((d.book.stopLossQueue s).bag.map (·.id)).Nodup := by
  obtain ⟨rest, hstock, -⟩ := d.book.stock_withStopLossQueue (d.book.stopLossQueue s) s
  have hdistinct := h.distinct
  rw [hstock, add_assoc, Multiset.map_add, add_assoc] at hdistinct
  exact Multiset.nodup_of_le (Multiset.le_add_right _ _) hdistinct

/-- Some of the stock changes, and what is in hand. Items that are new are true to their orders. -/
theorem ids_of_stock {bag bag' rest : Multiset Item} {b : Book}
    (hstock : d.book.stock = bag + rest) (hstock' : b.stock = bag' + rest)
    (hnew : ∀ i ∈ bag' + aside', i ∈ bag + aside ∨ (d.order i.order).id = i.id) :
    ∀ i ∈ b.stock + aside', (d.order i.order).id = i.id := by
  intro i hi
  have hids := h.ids i
  rw [hstock, add_right_comm, Multiset.mem_add] at hids
  rw [hstock', add_right_comm, Multiset.mem_add] at hi
  rcases hi with hi | hi
  · exact (hnew i hi).elim (fun hi => hids (.inl hi)) id
  · exact hids (.inr hi)

/-- Some of the stock changes, and what is in hand, and no number becomes taken. -/
theorem distinct_of_stock {bag bag' rest : Multiset Item} {b : Book}
    (hstock : d.book.stock = bag + rest) (hstock' : b.stock = bag' + rest)
    (hle : (bag' + aside').map (·.id) + hand' ≤ (bag + aside).map (·.id) + hand) :
    ((b.stock + aside').map (·.id) + hand').Nodup := by
  have hdistinct := h.distinct
  rw [hstock, add_right_comm, Multiset.map_add, add_right_comm] at hdistinct
  rw [hstock', add_right_comm, Multiset.map_add, add_right_comm]
  exact Multiset.nodup_of_le (add_le_add_left hle _) hdistinct

/-- The queues of resting orders of a side change. No number becomes taken, and items that are new
are true to their orders. -/
theorem withQueue (hq : q.Twin (Gone lax d) (.ofResting side) q')
    (hnew : ∀ i ∈ q.bag + aside', i ∈ (d.book.queue side).bag + aside ∨
      (d.order i.order).id = i.id) (hle : (q.bag + aside').map (·.id) + hand' ≤
      ((d.book.queue side).bag + aside).map (·.id) + hand) :
    Twin lax aside' hand' { d with book := d.book.withQueue q side }
      { d' with book := d'.book.withQueue q' side } := by
  obtain ⟨rest, hstock, hstock'⟩ := d.book.stock_withQueue q side
  have hgone : Gone lax { d with book := d.book.withQueue q side } = Gone lax d := by
    funext i
    unfold Gone
    rw [Book.ledger_withQueue]
    rfl
  refine ⟨h.office, ?_, ?_, fun s => ?_, fun s => ?_, h.ids_of_stock hstock hstock' hnew,
    h.distinct_of_stock hstock hstock' hle⟩
  · simp only [Book.header_withQueue, h.header]
  · simp only [Book.ledger_withQueue, h.ledger]
  · rw [hgone]
    simp only [Book.queue_withQueue]
    split
    · next hs => exact hs ▸ hq
    · exact h.queue s
  · rw [hgone]
    simp only [Book.stopLossQueue_withQueue]
    exact h.dormant s

/-- Items leave the queues of resting orders of a side. -/
theorem shrinkQueue (hq : q.Twin (Gone lax d) (.ofResting side) q')
    (hle : q.bag ≤ (d.book.queue side).bag) :
    Twin lax aside hand { d with book := d.book.withQueue q side }
      { d' with book := d'.book.withQueue q' side } :=
  h.withQueue hq (fun _ hi => .inl (Multiset.mem_of_le (add_le_add_left hle _) hi))
    (add_le_add_left (Multiset.map_le_map (add_le_add_left hle _)) _)

/-- The first resting order of a side on the first desk is that of the second too, and both can
lose it or set it aside; or it is gone, and the first can lose it alone. -/
theorem head_cases (hh : (d.book.queue side).headItem? = some i) :
    ((d'.book.queue side).headItem? = some i ∧ ∀ aside', aside' = aside ∨ aside' = aside + {i} →
      Twin lax aside' hand
        { d with book := d.book.withQueue (d.book.queue side).dropHead side }
        { d' with book := d'.book.withQueue (d'.book.queue side).dropHead side }) ∨
    (Gone lax d i ∧ Twin lax aside hand
      { d with book := d.book.withQueue (d.book.queue side).dropHead side } d') := by
  have hle : (d.book.queue side).dropHead.bag ≤ (d.book.queue side).bag :=
    Queue.bag_dropHead hh ▸ Multiset.le_cons_self _ _
  rcases (h.queue side).headItem?_cases (h.nodup_queue side) hh with ⟨hh', hdrop⟩ | ⟨hgone, hdrop⟩
  · refine .inl ⟨hh', ?_⟩
    rintro aside' (rfl | rfl)
    · exact h.shrinkQueue hdrop hle
    · have hmove := Queue.bag_dropHead_add hh aside
      exact h.withQueue hdrop (fun j hj => .inl (hmove ▸ hj)) (le_of_eq (by rw [hmove]))
  · have htwin := h.shrinkQueue hdrop hle
    rw [Book.withQueue_queue] at htwin
    exact .inr ⟨hgone, htwin⟩

/-- The queues of dormant stop-losses of a side change, likewise. -/
theorem withStopLossQueue (hq : q.Twin (Gone lax d) (.ofStopLoss side) q')
    (hnew : ∀ i ∈ q.bag + aside',
      i ∈ (d.book.stopLossQueue side).bag + aside ∨ (d.order i.order).id = i.id)
    (hle : (q.bag + aside').map (·.id) + hand' ≤
      ((d.book.stopLossQueue side).bag + aside).map (·.id) + hand) :
    Twin lax aside' hand' { d with book := d.book.withStopLossQueue q side }
      { d' with book := d'.book.withStopLossQueue q' side } := by
  obtain ⟨rest, hstock, hstock'⟩ := d.book.stock_withStopLossQueue q side
  have hgone : Gone lax { d with book := d.book.withStopLossQueue q side } = Gone lax d := by
    funext i
    unfold Gone
    rw [Book.ledger_withStopLossQueue]
    rfl
  refine ⟨h.office, ?_, ?_, fun s => ?_, fun s => ?_, h.ids_of_stock hstock hstock' hnew,
    h.distinct_of_stock hstock hstock' hle⟩
  · simp only [Book.header_withStopLossQueue, h.header]
  · simp only [Book.ledger_withStopLossQueue, h.ledger]
  · rw [hgone]
    simp only [Book.queue_withStopLossQueue]
    exact h.queue s
  · rw [hgone]
    simp only [Book.stopLossQueue_withStopLossQueue]
    split
    · next hs => exact hs ▸ hq
    · exact h.dormant s

/-- Dormant stop-losses of a side leave their queues. -/
theorem shrinkStopLossQueue (hq : q.Twin (Gone lax d) (.ofStopLoss side) q')
    (hle : q.bag ≤ (d.book.stopLossQueue side).bag) :
    Twin lax aside hand { d with book := d.book.withStopLossQueue q side }
      { d' with book := d'.book.withStopLossQueue q' side } :=
  h.withStopLossQueue hq (fun _ hi => .inl (Multiset.mem_of_le (add_le_add_left hle _) hi))
    (add_le_add_left (Multiset.map_le_map (add_le_add_left hle _)) _)

/-- The same of the first dormant stop-loss of a side. -/
theorem dormantHead_cases (hh : (d.book.stopLossQueue side).headItem? = some i) :
    ((d'.book.stopLossQueue side).headItem? = some i ∧ ∀ aside', aside' = aside ∨
      aside' = aside + {i} → Twin lax aside' hand
        { d with book := d.book.withStopLossQueue (d.book.stopLossQueue side).dropHead side }
        { d' with book := d'.book.withStopLossQueue (d'.book.stopLossQueue side).dropHead side }) ∨
    (Gone lax d i ∧ Twin lax aside hand
      { d with book := d.book.withStopLossQueue (d.book.stopLossQueue side).dropHead side }
      d') := by
  have hle : (d.book.stopLossQueue side).dropHead.bag ≤ (d.book.stopLossQueue side).bag :=
    Queue.bag_dropHead hh ▸ Multiset.le_cons_self _ _
  rcases (h.dormant side).headItem?_cases (h.nodup_stopLossQueue side) hh with
    ⟨hh', hdrop⟩ | ⟨hgone, hdrop⟩
  · refine .inl ⟨hh', ?_⟩
    rintro aside' (rfl | rfl)
    · exact h.shrinkStopLossQueue hdrop hle
    · have hmove := Queue.bag_dropHead_add hh aside
      exact h.withStopLossQueue hdrop (fun j hj => .inl (hmove ▸ hj)) (le_of_eq (by rw [hmove]))
  · have htwin := h.shrinkStopLossQueue hdrop hle
    rw [Book.withStopLossQueue_stopLossQueue] at htwin
    exact .inr ⟨hgone, htwin⟩

/-- The ledgers change, and show nothing of what is gone. -/
theorem withLedger {l l' : Ledger} (hl : l.Alike l')
    (hhides : ∀ i ∈ d.book.stock, (d.order i.order).closed = true →
      d.book.ledger.find? i.id = none → l.find? i.id = none) :
    Twin lax aside hand { d with book := { d.book with ledger := l } }
      { d' with book := { d'.book with ledger := l' } } := by
  have hstock : ({ d.book with ledger := l } : Book).stock = d.book.stock :=
    Book.stock_congr (fun _ => Book.queue_withLedger ..) fun _ => Book.stopLossQueue_withLedger ..
  have hgone : ∀ i ∈ d.book.stock, Gone lax d i →
      Gone lax { d with book := { d.book with ledger := l } } i := fun i hi hg =>
    ⟨hg.1, hg.2.1, hhides i hi hg.2.1 hg.2.2⟩
  refine ⟨h.office, h.header, hl, fun s => ?_, fun s => ?_, fun i hi => h.ids i (hstock ▸ hi), ?_⟩
  · simp only [Book.queue_withLedger]
    exact (h.queue s).mono fun i hi => hgone i (Book.mem_stock.2 ⟨s, .inl hi⟩)
  · simp only [Book.stopLossQueue_withLedger]
    exact (h.dormant s).mono fun i hi => hgone i (Book.mem_stock.2 ⟨s, .inr hi⟩)
  · show ((({ d.book with ledger := l } : Book).stock + aside).map _ + hand).Nodup
    rw [hstock]
    exact h.distinct

/-- The office comes on. -/
theorem withOffice {o : Office Simulated} (ho : d.office.orders.Follow o.orders) :
    Twin lax aside hand { d with office := o } { d' with office := o } := by
  have hgone : ∀ i, Gone lax d i → Gone lax { d with office := o } i := fun i hg =>
    ⟨hg.1, (ho _).closed hg.2.1, hg.2.2⟩
  refine ⟨rfl, h.header, h.ledger, fun s => (h.queue s).mono fun i _ => hgone i,
    fun s => (h.dormant s).mono fun i _ => hgone i, fun i hi => ?_, h.distinct⟩
  exact (ho _).id.trans (h.ids i hi)

/-- The phase or the last price changes. -/
theorem withHeader {b b' : Book} (hheader : b'.header = b.header)
    (hledger : b.ledger = d.book.ledger ∧ b'.ledger = d'.book.ledger)
    (hqueue : ∀ s, b.queue s = d.book.queue s ∧ b'.queue s = d'.book.queue s)
    (hdormant : ∀ s, b.stopLossQueue s = d.book.stopLossQueue s ∧
      b'.stopLossQueue s = d'.book.stopLossQueue s) :
    Twin lax aside hand { d with book := b } { d' with book := b' } := by
  have hstock : b.stock = d.book.stock :=
    Book.stock_congr (fun s => (hqueue s).1) fun s => (hdormant s).1
  have hgone : Gone lax { d with book := b } = Gone lax d := by
    funext i
    unfold Gone
    rw [hledger.1]
    rfl
  refine ⟨h.office, hheader, ?_, fun s => ?_, fun s => ?_, fun i hi => h.ids i (hstock ▸ hi), ?_⟩
  · simp only [hledger.1, hledger.2, h.ledger]
  · rw [hgone]
    simp only [(hqueue s).1, (hqueue s).2, h.queue s]
  · rw [hgone]
    simp only [(hdormant s).1, (hdormant s).2, h.dormant s]
  · show ((b.stock + aside).map _ + hand).Nodup
    rw [hstock]
    exact h.distinct

/-- The last price changes. -/
theorem priced (p : Price) : Twin lax aside hand { d with book := { d.book with lastPrice := p } }
    { d' with book := { d'.book with lastPrice := p } } := by
  refine h.withHeader ?_ ⟨rfl, rfl⟩ (fun s => ?_) fun s => ?_
  · exact congrArg₂ (fun i x => (i, p, x)) h.instrument (congrArg (·.2.2) h.header)
  · cases s <;> exact ⟨rfl, rfl⟩
  · cases s <;> exact ⟨rfl, rfl⟩

/-- The phase changes. -/
theorem enter (p : Phase) : Twin lax aside hand { d with book := { d.book with phase := p } }
    { d' with book := { d'.book with phase := p } } := by
  refine h.withHeader ?_ ⟨rfl, rfl⟩ (fun s => ?_) fun s => ?_
  · exact congrArg (fun x : InstrumentId × Price × Nat × Phase => (x.1, x.2.1, x.2.2.1, p))
      h.header
  · cases s <;> exact ⟨rfl, rfl⟩
  · cases s <;> exact ⟨rfl, rfl⟩

end Twin

end Desk

end Bourse
