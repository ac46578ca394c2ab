import Bourse.Proofs.Book.Process
import Bourse.Proofs.Settlement.Recorded
import Mathlib.Logic.Relation

/-!
# A book while it is matching

Between two moves every order of a book is in one of its queues. While it is matching some are in
nobody's queue: the order that comes in, those set aside in a search, stop-losses that were
activated but have not joined the resting orders. A `Stage` is a desk together with this `Hand`.

`Step` lists all that matching does to a stage, each with the conditions under which the code does
it, and with any settlement. `Turn` lists what is done between two orders, `Receive` how an order
comes in from outside, and `Collapse` what may be left when something broke off. What is to be
proved of every run of a book is proved of these.
-/

namespace Bourse

open Bourse.Action

/-- An order that is being matched, with its side and user as they were when it came in. -/
structure Newcomer where
  order : OrderRef
  side : Side
  user : UserId

/-- What is in no queue while a book is matching. -/
structure Hand where
  newcomer : Option Newcomer
  /-- What a search set aside, with the side it was taken from. -/
  aside : List (Side × Item)
  /-- The stop-losses that were activated and have not joined the resting orders yet. -/
  fired : List OrderRef
  /-- The sides whose stop-losses are still to be looked at, with the price of the trade. -/
  due : List (Side × Price)

namespace Hand

/-- Nothing in hand but an order that is being matched, if there is one. -/
def holding (n : Option Newcomer) : Hand := ⟨n, [], [], []⟩

/-- Nothing in hand. -/
def idle : Hand := holding none

/-- What a trade makes due: the stop-losses of the asks, then those of the bids. -/
def dueAfter (trade : Option Trade) : List (Side × Price) :=
  match trade with
  | some t => [(.ask, t.price), (.bid, t.price)]
  | none => []

end Hand

variable {σ : Type}

/-- A book while it is matching. -/
structure Stage (σ : Type) where
  desk : Desk (Recorded σ)
  hand : Hand
  /-- The orders that wait for the start. -/
  waiting : List OrderRef
  /-- The orders that were brought to the book, the latest first. -/
  brought : List OrderRef
  /-- The orders that the book has accepted, the latest first. -/
  accepted : List OrderRef

namespace Stage

/-- The stage with another desk and other things in hand. -/
def put (st : Stage σ) (d : Desk (Recorded σ)) (h : Hand) : Stage σ :=
  { st with desk := d, hand := h }

/-- The table of orders. -/
def orders (st : Stage σ) : Orders := st.desk.office.orders

/-- The calls of settlement so far. -/
def log (st : Stage σ) : Transcript := st.desk.office.backend.transcript

end Stage

/-! ## Calls of settlement -/

/-- The pair that the code may show to settlement: the order that comes in with the head of the
queue it meets, or the heads of both queues. -/
inductive Facing (d : Desk (Recorded σ)) (h : Hand) : (ask bid : OrderRef) → Prop
  | incoming {n : Newcomer} {i : Item} (newcomer : h.newcomer = some n)
    (isOpen : (d.order n.order).isOpen = true)
    (head : (d.book.queue n.side.opposite).headItem? = some i)
    (eligible : Desk.Eligible (some n.user) (d.order i.order)) :
    Facing d h (Desk.pair n.side n.order i.order).1 (Desk.pair n.side n.order i.order).2
  | resting {i j : Item} (newcomer : h.newcomer = none)
    (headAsk : (d.book.queue .ask).headItem? = some i)
    (isOpen : (d.order i.order).isOpen = true)
    (headBid : (d.book.queue .bid).headItem? = some j)
    (eligible : Desk.Eligible (some (d.order i.order).user) (d.order j.order)) :
    Facing d h i.order j.order

/-- Settlement is asked to fill a pair, and leaves this office. -/
structure Asked (S : Settlement σ) (st : Stage σ) (c : FillCall) (o : Office σ) : Prop where
  facing : Facing st.desk st.hand c.ask c.bid
  crosses : Bourse.crosses (st.desk.order c.ask) (st.desk.order c.bid) = true
  price : c.price = st.desk.dealPrice c.ask c.bid
  quantity : c.quantity = min (st.desk.order c.ask).unfulfilled (st.desk.order c.bid).unfulfilled
  before : c.before = st.orders
  after : c.after = o.orders
  leads : (S.fill c.ask c.bid c.price c.quantity).Leads st.desk.office.forget c.outcome o

/-! ## Steps -/

/-- The same orders in the same queues. -/
structure Beside (d d' : Desk σ) : Prop where
  office : d'.office = d.office
  queue : ∀ s, d'.book.queue s = d.book.queue s
  stopLossQueue : ∀ s, d'.book.stopLossQueue s = d.book.stopLossQueue s
  phase : d'.book.phase = d.book.phase

/-- The desk after settlement left another office, with one more call in the record. -/
def Desk.called (d : Desk (Recorded σ)) (e : Entry) (o : Office σ) : Desk (Recorded σ) :=
  { d with office := d.office.written e o }

/-- What matching does to a stage. -/
inductive Step (S : Settlement σ) : Stage σ → Stage σ → Prop
  /-- The ledger or the last price changes. -/
  | beside {st : Stage σ} {d : Desk (Recorded σ)} (h : Beside st.desk d) :
    Step S st (st.put d st.hand)
  /-- A queue is searched for its best order. -/
  | search {st : Stage σ} {d : Desk (Recorded σ)} {side : Side} {exclude : Option UserId}
    {dropped : Multiset Item} {aside : List Item} (clear : st.hand.aside = [])
    (searched : Desk.Searched side exclude st.desk d dropped aside) :
    Step S st (st.put d { st.hand with aside := aside.map (side, ·) })
  /-- A pair is filled. -/
  | fill {st : Stage σ} {c : FillCall} {o : Office σ} {out : FillOutcome} (asked : Asked S st c o)
    (answered : c.outcome = some out) (fired : st.hand.fired = []) (due : st.hand.due = []) :
    Step S st (st.put (st.desk.called (.fill c) o)
      { st.hand with due := Hand.dueAfter out.trade })
  /-- A finished order leaves its queue. -/
  | pop {st : Stage σ} {side : Side} {i : Item}
    (head : (st.desk.book.queue side).headItem? = some i) (finished : st.log.Finished i.order) :
    Step S st (st.put (st.desk.withoutHead side st.desk.book.ledger) st.hand)
  /-- What was set aside is put back. -/
  | restore {st : Stage σ} {side : Side} {items : List Item}
    (aside : st.hand.aside = items.map (side, ·)) :
    Step S st (st.put (st.desk.withItems side items) { st.hand with aside := [] })
  /-- A closed stop-loss leaves its queue. -/
  | drop {st : Stage σ} {side : Side} {i : Item}
    (head : (st.desk.book.stopLossQueue side).headItem? = some i)
    (closed : (st.desk.order i.order).closed = true) :
    Step S st (st.put (st.desk.withoutDormant side) st.hand)
  /-- A stop-loss that the trade reaches is activated. -/
  | take {st : Stage σ} {side : Side} {price : Price} {i : Item}
    (due : (side, price) ∈ st.hand.due)
    (head : (st.desk.book.stopLossQueue side).headItem? = some i)
    (closed : (st.desk.order i.order).closed = false)
    (reached : (st.desk.order i.order).isReachedBy price = true) :
    Step S st (st.put
      { st.desk.withoutDormant side with office := st.desk.office.activated i.order }
      { st.hand with fired := st.hand.fired ++ [i.order] })
  /-- The first stop-loss of a side is neither closed nor reached. -/
  | settle {st : Stage σ} {side : Side} {price : Price} {rest : List (Side × Price)}
    (due : st.hand.due = (side, price) :: rest)
    (head : ∀ i, (st.desk.book.stopLossQueue side).headItem? = some i →
      (st.desk.order i.order).closed = false ∧ (st.desk.order i.order).isReachedBy price = false) :
    Step S st (st.put st.desk { st.hand with due := rest })
  /-- An activated stop-loss is reported and joins the resting orders. -/
  | promote {st : Stage σ} {r : OrderRef} {rest : List OrderRef} {o : Office σ}
    (fired : st.hand.fired = r :: rest) (due : st.hand.due = [])
    (leads : (S.stopLossTriggered r).Leads st.desk.office.forget (some ()) o) :
    Step S st (st.put ((st.desk.called (.triggered r st.orders) o).withItems (st.desk.order r).side
      [.ofOrder r (o.orders.get r)]) { st.hand with fired := rest })
  /-- What is left of the order that came in rests. -/
  | rest {st : Stage σ} {n : Newcomer} {l : Ledger} (newcomer : st.hand.newcomer = some n) :
    Step S st (st.put (st.desk.rested n.side n.order l) { st.hand with newcomer := none })
  /-- The order that came in is finished. -/
  | leave {st : Stage σ} {n : Newcomer} (newcomer : st.hand.newcomer = some n)
    (finished : (st.desk.order n.order).isOpen = false) :
    Step S st (st.put st.desk { st.hand with newcomer := none })

/-- What is done to a book between two orders. -/
inductive Turn : Stage σ → Stage σ → Prop
  /-- The first of those who wait is taken in. -/
  | call {st : Stage σ} {r : OrderRef} {rest : List OrderRef} (waiting : st.waiting = r :: rest)
    (newcomer : st.hand.newcomer = none) :
    Turn st { st with
      hand := { st.hand with newcomer := some ⟨r, (st.desk.order r).side, (st.desk.order r).user⟩ }
      waiting := rest
      accepted := r :: st.accepted }
  /-- Some of those who wait are lost. -/
  | giveUp {st : Stage σ} {rest : List OrderRef} (sub : rest.Sublist st.waiting) :
    Turn st { st with waiting := rest }
  /-- An order is cancelled. -/
  | cancel {st : Stage σ} {r : OrderRef} :
    Turn st (st.put { st.desk with office :=
      { st.desk.office with orders := st.orders.set r (st.desk.order r).close } } st.hand)
  /-- The state of settlement changes by itself. -/
  | backend {st : Stage σ} {f : σ → σ} :
    Turn st (st.put { st.desk with office := { st.desk.office with
      backend := { st.desk.office.backend with inner := f st.desk.office.backend.inner } } }
        st.hand)
  /-- The book enters another phase. -/
  | enter {st : Stage σ} {p : Phase} :
    Turn st (st.put { st.desk with book := { st.desk.book with phase := p } } st.hand)

/-- An order comes in from outside. -/
inductive Receive (r : OrderRef) : Stage σ → Stage σ → Prop
  /-- It is refused. -/
  | refuse {st : Stage σ} : Receive r st { st with brought := r :: st.brought }
  /-- It is closed, and passed over. -/
  | pass {st : Stage σ} (closed : (st.desk.order r).closed = true) :
    Receive r st { st with brought := r :: st.brought, accepted := r :: st.accepted }
  /-- It is a stop-loss, and parked. -/
  | park {st : Stage σ} (closed : (st.desk.order r).closed = false)
    (dormant : (st.desk.order r).type = .stopLoss) :
    Receive r st { st with
      desk := st.desk.parked r, brought := r :: st.brought, accepted := r :: st.accepted }
  /-- It is taken in. -/
  | take {st : Stage σ} (active : (st.desk.order r).type ≠ .stopLoss)
    (newcomer : st.hand.newcomer = none) :
    Receive r st { st with
      hand := { st.hand with newcomer := some ⟨r, (st.desk.order r).side, (st.desk.order r).user⟩ }
      brought := r :: st.brought
      accepted := r :: st.accepted }
  /-- It waits for the start. -/
  | wait {st : Stage σ} (active : (st.desk.order r).type ≠ .stopLoss) :
    Receive r st { st with waiting := st.waiting ++ [r], brought := r :: st.brought }

/-! ## Breaking off -/

/-- What a step that breaks off leaves of the desk. -/
inductive Break (S : Settlement σ) (st : Stage σ) : Desk (Recorded σ) → Prop
  /-- The ledger fails. -/
  | beside {d : Desk (Recorded σ)} (h : Beside st.desk d) : Break S st d
  /-- Settlement fails to fill a pair. -/
  | fill {c : FillCall} {o : Office σ} (asked : Asked S st c o) (broken : c.outcome = none) :
    Break S st (st.desk.called (.fill c) o)
  /-- Settlement fails to take note of a stop-loss. -/
  | promote {r : OrderRef} {o : Office σ}
    (leads : (S.stopLossTriggered r).Leads st.desk.office.forget none o) :
    Break S st (st.desk.called (.triggered r st.orders) o)

/-- After something broke off: what was in hand is lost, and nothing is known of who waits or was
accepted. -/
inductive Collapse (S : Settlement σ) (st : Stage σ) : Stage σ → Prop
  | intro {d : Desk (Recorded σ)} (broken : Break S st d)
      (waiting brought accepted : List OrderRef) :
    Collapse S st ⟨d, .idle, waiting, brought, accepted⟩

/-! ## Paths -/

/-- Steps of matching, one after the other. -/
abbrev Steps (S : Settlement σ) : Stage σ → Stage σ → Prop := Relation.ReflTransGen (Step S)

/-- From one stage to another by steps and turns, and, if that is allowed, by collapses. -/
abbrev Path (S : Settlement σ) (mayFall : Bool) : Stage σ → Stage σ → Prop :=
  Relation.ReflTransGen fun st st' =>
    Step S st st' ∨ Turn st st' ∨ mayFall = true ∧ Collapse S st st'

variable {S : Settlement σ} {st st' : Stage σ} {mayFall : Bool}

/-- Steps are a path. -/
theorem Steps.path (h : Steps S st st') : Path S mayFall st st' :=
  Relation.ReflTransGen.mono (fun _ _ h => Or.inl h) _ _ h

/-- A turn is a path. -/
theorem Turn.path (h : Turn st st') : Path S mayFall st st' := .single (.inr (.inl h))

/-- A path without a fall is a path. -/
theorem Path.fall (h : Path S false st st') : Path S true st st' :=
  Relation.ReflTransGen.mono (fun _ _ h => Or.imp_right (Or.imp_right fun h =>
    absurd h.1 Bool.false_ne_true) h) _ _ h

/-- A property that steps and turns keep, and collapses where they are allowed, is kept by a
path. -/
theorem Path.keeps {P : Stage σ → Prop} (h : Path S mayFall st st') (hP : P st)
    (hstep : ∀ {st st'}, Step S st st' → P st → P st')
    (hturn : ∀ {st st'}, Turn st st' → P st → P st')
    (hfall : ∀ {st st'}, mayFall = true → Collapse S st st' → P st → P st') : P st' := by
  induction h with
  | refl => exact hP
  | tail _ h ih =>
    rcases h with h | h | ⟨hb, h⟩
    · exact hstep h ih
    · exact hturn h ih
    · exact hfall hb h ih

end Bourse
