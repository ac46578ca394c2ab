import Bourse.Book.Basic
import Bourse.Proofs.Ends
import Bourse.Proofs.Order
import Bourse.Proofs.Queue.Heap
import Bourse.Settlement.Simulated

/-!
# Desks between the steps of a book

Each part of a book is written by its own operations, and the equations here say that the other
parts keep what they hold. `Desk.Sound` is what every state of a book has: the queues of resting
orders are heaps, and their items are true to the orders in all that never changes (`Rests`).
`Desk.Onward` is what every step has: it takes no fill and no trade back, and leaves the phase to
its caller.
-/

namespace Bourse

namespace Book

variable (b : Book) (q : Queue) (s s' : Side)

@[simp] theorem queue_withQueue :
    (b.withQueue q s).queue s' = if s = s' then q else b.queue s' := by
  cases s <;> cases s' <;> rfl

@[simp] theorem stopLossQueue_withQueue :
    (b.withQueue q s).stopLossQueue s' = b.stopLossQueue s' := by
  cases s <;> cases s' <;> rfl

@[simp] theorem queue_withStopLossQueue : (b.withStopLossQueue q s).queue s' = b.queue s' := by
  cases s <;> cases s' <;> rfl

@[simp] theorem stopLossQueue_withStopLossQueue :
    (b.withStopLossQueue q s).stopLossQueue s' = if s = s' then q else b.stopLossQueue s' := by
  cases s <;> cases s' <;> rfl

@[simp] theorem ledger_withQueue : (b.withQueue q s).ledger = b.ledger := by cases s <;> rfl

@[simp] theorem ledger_withStopLossQueue : (b.withStopLossQueue q s).ledger = b.ledger := by
  cases s <;> rfl

@[simp] theorem lastPrice_withQueue : (b.withQueue q s).lastPrice = b.lastPrice := by
  cases s <;> rfl

@[simp] theorem lastPrice_withStopLossQueue :
    (b.withStopLossQueue q s).lastPrice = b.lastPrice := by
  cases s <;> rfl

@[simp] theorem phase_withQueue : (b.withQueue q s).phase = b.phase := by cases s <;> rfl

@[simp] theorem phase_withStopLossQueue : (b.withStopLossQueue q s).phase = b.phase := by
  cases s <;> rfl

@[simp] theorem queue_withLedger (l : Ledger) :
    ({ b with ledger := l } : Book).queue s = b.queue s :=
  by cases s <;> rfl

@[simp] theorem stopLossQueue_withLedger (l : Ledger) :
    ({ b with ledger := l } : Book).stopLossQueue s = b.stopLossQueue s := by cases s <;> rfl

@[simp] theorem queue_withLastPrice (p : Price) (l : Ledger) :
    ({ b with lastPrice := p, ledger := l } : Book).queue s = b.queue s := by cases s <;> rfl

@[simp] theorem stopLossQueue_withLastPrice (p : Price) (l : Ledger) :
    ({ b with lastPrice := p, ledger := l } : Book).stopLossQueue s = b.stopLossQueue s := by
  cases s <;> rfl

/-- What a book is besides its queues and its ledger. -/
def header (b : Book) : InstrumentId × Price × Nat × Phase :=
  (b.instrument, b.lastPrice, b.capacity, b.phase)

@[simp] theorem header_withQueue : (b.withQueue q s).header = b.header := by cases s <;> rfl

@[simp] theorem header_withStopLossQueue : (b.withStopLossQueue q s).header = b.header := by
  cases s <;> rfl

/-- The items of all four queues are counted side by side. -/
theorem itemCount_eq : b.itemCount = (b.queue s).size + (b.queue s.opposite).size +
    (b.stopLossQueue s).size + (b.stopLossQueue s.opposite).size := by
  cases s
  · rfl
  · simp only [itemCount, queue, stopLossQueue, Side.opposite]
    omega

end Book

namespace Desk

open Bourse.Action

variable {σ α : Type} {s : Logged (Desk σ)} {Q : α → Logged (Desk σ) → Prop}
  {E : Failure → Logged (Desk σ) → Prop}

/-- An action of settlement changes the office alone. -/
theorem ends_onOffice {act : Action (Office σ) α} :
    Ends (onOffice act) s Q E ↔ Ends act ⟨s.state.office, s.journal⟩
      (fun a t => Q a ⟨{ s.state with office := t.state }, t.journal⟩)
      (fun f t => E f ⟨{ s.state with office := t.state }, t.journal⟩) := ends_within

/-- An action on the ledger changes the ledger alone. -/
theorem ends_onLedger {act : Action Ledger α} :
    Ends (onLedger act) s Q E ↔ Ends act ⟨s.state.book.ledger, s.journal⟩
      (fun a t => Q a ⟨{ s.state with book := { s.state.book with ledger := t.state } },
        t.journal⟩)
      (fun f t => E f ⟨{ s.state with book := { s.state.book with ledger := t.state } },
        t.journal⟩) :=
  ends_within

/-- Changing the book never breaks off. -/
theorem ends_changeBook {f : Book → Book} {Q : Unit → Logged (Desk σ) → Prop} :
    Ends (changeBook f) s Q E ↔
    Q () ⟨{ s.state with book := f s.state.book }, s.journal⟩ := Iff.rfl

/-- Changing a queue of resting orders never breaks off. -/
theorem ends_changeQueue {side : Side} {f : Queue → Queue} {Q : Unit → Logged (Desk σ) → Prop} :
    Ends (changeQueue side f) s Q E ↔
      Q () ⟨{ s.state with book := s.state.book.withQueue (f (s.state.book.queue side)) side },
        s.journal⟩ := Iff.rfl

/-- Changing a queue of dormant stop-losses never breaks off. -/
theorem ends_changeStopLossQueue {side : Side} {f : Queue → Queue}
    {Q : Unit → Logged (Desk σ) → Prop} :
    Ends (changeStopLossQueue side f) s Q E ↔
      Q () ⟨{ s.state with book :=
        s.state.book.withStopLossQueue (f (s.state.book.stopLossQueue side)) side }, s.journal⟩ :=
  Iff.rfl

/-! ## Sound books -/

/-- An item of a known order of the side that is true to the order. -/
structure Rests (known : OrderRef → Prop) (os : Orders) (s : Side) (i : Item) : Prop where
  known : known i.order
  id : (os.get i.order).id = i.id
  side : (os.get i.order).side = s
  type : (os.get i.order).type = i.type
  price : (os.get i.order).price = i.price
  active : i.type ≠ .stopLoss

/-- What rests goes on resting as orders are filled and closed. -/
theorem Rests.follow {known : OrderRef → Prop} {os os' : Orders} {s : Side} {i : Item}
    (h : Rests known os s i) (hf : os.Follow os') : Rests known os' s i where
  known := h.known
  id := (hf i.order).id.trans h.id
  side := (hf i.order).side.trans h.side
  type := ((hf i.order).type_eq (h.type ▸ h.active)).trans h.type
  price := (hf i.order).price.trans h.price
  active := h.active

/-- The item of an order as it is now is true to it. -/
theorem rests_ofOrder {known : OrderRef → Prop} {os : Orders} {r : OrderRef} (hk : known r)
    (ht : (os.get r).type ≠ .stopLoss) : Rests known os (os.get r).side (.ofOrder r (os.get r)) :=
  ⟨hk, rfl, rfl, rfl, rfl, ht⟩

/-- The queues hold known orders only. Those of resting orders are heaps, and their items are true
to the orders. -/
structure Sound (known : OrderRef → Prop) (d : Desk σ) : Prop where
  ordered : ∀ s, (d.book.queue s).Ordered (.ofResting s)
  resting : ∀ s, ∀ i ∈ (d.book.queue s).bag, Rests known d.office.orders s i
  dormant : ∀ s, ∀ i ∈ (d.book.stopLossQueue s).bag, known i.order

/-- A fresh book is sound. -/
theorem sound_new (known : OrderRef → Prop) (o : Office σ) (i : Instrument)
    (history buffer : Nat) : Sound known ⟨o, .new i history buffer⟩ := by
  refine ⟨?_, ?_, ?_⟩
  · intro s
    cases s <;> exact Queue.ordered_empty
  · intro s i hi
    cases s <;> exact absurd hi (Multiset.notMem_zero _)
  · intro s i hi
    cases s <;> exact absurd hi (Multiset.notMem_zero _)

/-- Other parts of the desk can change, as long as no order is taken back. -/
theorem Sound.congr {known : OrderRef → Prop} {d d' : Desk σ} (hd : Sound known d)
    (hqueue : ∀ s, d'.book.queue s = d.book.queue s)
    (hstop : ∀ s, d'.book.stopLossQueue s = d.book.stopLossQueue s)
    (hf : d.office.orders.Follow d'.office.orders) : Sound known d' where
  ordered s := hqueue s ▸ hd.ordered s
  resting s i hi := (hd.resting s i (hqueue s ▸ hi)).follow hf
  dormant s i hi := hd.dormant s i (hstop s ▸ hi)

section

variable {known : OrderRef → Prop} {d : Desk σ} (h : Sound known d)

include h

/-- Queues stay sound in another phase. -/
theorem Sound.enter (p : Phase) : Sound known { d with book := { d.book with phase := p } } :=
  h.congr (fun s => by cases s <;> rfl) (fun s => by cases s <;> rfl) (.refl _)

/-- Queues stay sound at another last price. -/
theorem Sound.priced (p : Price) : Sound known { d with book := { d.book with lastPrice := p } } :=
  h.congr (fun s => by cases s <;> rfl) (fun s => by cases s <;> rfl) (.refl _)

/-- Queues stay sound with another ledger. -/
theorem Sound.withLedger (l : Ledger) :
    Sound known { d with book := { d.book with ledger := l } } :=
  h.congr (fun _ => Book.queue_withLedger ..) (fun _ => Book.stopLossQueue_withLedger ..) (.refl _)

end

/-- Nothing is taken back from one desk to the other: orders keep their terms, are not reopened and
lose no fill, and no trade and no activation of a stop-loss is lost. -/
structure Onward (d d' : Desk Simulated) : Prop where
  orders : d.office.orders.Follow d'.office.orders
  trades : d.office.backend.trades.toList <+: d'.office.backend.trades.toList
  activated : d.office.backend.activated.toList <+: d'.office.backend.activated.toList
  rejected : d'.office.backend.rejected = d.office.backend.rejected
  phase : d'.book.phase = d.book.phase

theorem Onward.refl (d : Desk Simulated) : Onward d d :=
  ⟨.refl _, List.prefix_rfl, List.prefix_rfl, rfl, rfl⟩

theorem Onward.trans {d d' d'' : Desk Simulated} (h : Onward d d') (h' : Onward d' d'') :
    Onward d d'' :=
  ⟨h.orders.trans h'.orders, h.trades.trans h'.trades, h.activated.trans h'.activated,
    h'.rejected.trans h.rejected, h'.phase.trans h.phase⟩

/-- A desk with the same office, and a book in the same phase. -/
theorem Onward.of_office {d d' : Desk Simulated} (h : d'.office = d.office)
    (hp : d'.book.phase = d.book.phase) : Onward d d' :=
  ⟨h ▸ .refl _, h ▸ List.prefix_rfl, h ▸ List.prefix_rfl, h ▸ rfl, hp⟩

end Desk

end Bourse
