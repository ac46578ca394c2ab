import Bourse.Proofs.Book.Firing
import Bourse.Proofs.Book.Room
import Bourse.Proofs.Book.Rounds

/-!
# A call that finishes nothing

Settlement may answer a call without finishing either order (`Settlement.Stalls`), with a trade or
without. Matching the incoming order ends then. By that time the search has taken items off the
queue of the other side, and a trade has changed two orders.

`Desk.Stalled` is what the desk is like when the stop-losses are looked up, the items that were set
aside being back; the ledger is followed by what is found in it (`Ledger.Lists`). What is left of
the incoming order rests (`Desk.Leaves`), and `Desk.ends_intake_of_stall` puts the three steps
together.
-/

namespace Bourse

open Bourse.Action

variable {σ : Type} {S : Settlement σ}

/-! ## What is found in the ledger -/

namespace Ledger

variable {roomy : Prop} {p q : Nat} {gone : OrderId → Prop} {f g : OrderId → Option Shown}
  {l : Ledger} {id a b : OrderId} {o : Order} {out : FillOutcome} {side : Side} {j : Array Event}

/-- Of each order the ledger shows what `f` says, or nothing if the order is one of those that may
be gone. If there is room for everything then there is room for so many shares more. -/
structure Lists (roomy : Prop) (n : Nat) (gone : OrderId → Prop) (f : OrderId → Option Shown)
    (l : Ledger) : Prop where
  find : ∀ id, l.find? id = f id ∨ l.find? id = none ∧ gone id
  room : roomy → HasRoom n l

/-- Ledgers that show the same find the same. -/
theorem find?_congr {l l' : Ledger} (h : l'.shown = l.shown) (id : OrderId) :
    l'.find? id = l.find? id := by
  unfold find?
  rw [h]

/-- Withdrawing an order that may be gone makes no difference. -/
theorem Lists.ends_withdraw (h : Lists roomy q gone f l) (hid : gone id) :
    Ends (withdraw id) ⟨l, j⟩ (fun _ t => Lists roomy q gone f t.state)
      (fun f _ => f.IsOverflow ∧ ¬ roomy) := by
  refine (ends_roomy (P := fun l' => l'.shown = without id l.shown) shown_withdraw breaks_withdraw
    fun hroomy => (h.room hroomy).ends_withdraw).imp ?_
  rintro _ t ⟨hshown, hroom⟩
  refine ⟨fun id' => ?_, hroom⟩
  rw [show t.state.find? id' = _ from find?_congr
    (l := { l with shown := without id l.shown }) hshown id', find?_without]
  split
  · next heq => exact .inr ⟨rfl, heq ▸ hid⟩
  · exact h.find id'

/-- Showing an open order of a new number. -/
theorem Lists.ends_add (h : Lists roomy q gone f l) (ho : o.isOpen = true) (hnew : f o.id = none)
    (hle : p + o.unfulfilled.toNat ≤ q) :
    Ends (add o) ⟨l, j⟩
      (fun _ t => Lists roomy p gone
        (fun id => if o.id = id then some (.ofOrder o) else f id) t.state)
      (fun f _ => f.IsOverflow ∧ ¬ roomy) := by
  have hnone : l.find? o.id = none := (h.find o.id).elim (·.trans hnew) (·.1)
  refine (ends_roomy (P := fun l' => l'.shown = added o l) (shown_add o) breaks_add
    fun hroomy => (h.room hroomy).ends_add hle).imp ?_
  rintro _ t ⟨hshown, hroom⟩
  rw [added_of_new ho hnone] at hshown
  refine ⟨fun id => ?_, hroom⟩
  rw [show t.state.find? id = _ from find?_congr (l := { l with shown := .ofOrder o :: l.shown })
    hshown id, find?_cons]
  by_cases hid : o.id = id
  · exact .inl (by rw [if_pos hid, show (Shown.ofOrder o).id = o.id from rfl, if_pos hid])
  · rw [if_neg hid, show (Shown.ofOrder o).id = o.id from rfl, if_neg hid]
    exact h.find id

/-- What is found after a trade, if there was one, was taken off an order. -/
def takenOff (id : OrderId) (trade : Option Trade) (f : OrderId → Option Shown) (id' : OrderId) :
    Option Shown :=
  if id = id' then (f id').bind (·.left? false trade) else f id'

/-- A trade takes as much off the order as it shows, and leaves the others. -/
theorem find?_takeOff {trade : Option Trade} {s : Logged Ledger} : Ends (takeOff id trade) s
    (fun _ t => ∀ id', t.state.find? id' = takenOff id trade s.state.find? id')
    (fun _ _ => True) := by
  cases trade with
  | none =>
    intro id'
    unfold takenOff
    split
    · cases s.state.find? id' <;> rfl
    · rfl
  | some t =>
    rw [takeOff, ends_bind]
    refine shown_reduce.mono ?_ fun _ _ _ => trivial
    intro _ u hu id'
    rw [find?_of_reduced hu, takenOff]
    split
    · next h => exact h ▸ rfl
    · rfl

/-- Reporting a trade, if there was one, changes nothing that is found. -/
theorem find?_recordDeal {trade : Option Trade} {s : Logged Ledger} : Ends (recordDeal trade) s
    (fun _ t => ∀ id, t.state.find? id = s.state.find? id) (fun _ _ => True) := by
  cases trade with
  | none => exact fun _ => rfl
  | some t => exact shown_recordTrade.mono (fun _ _ ht => find?_congr ht) fun _ _ _ => trivial

/-- What is found after a match that finished neither order: the trade is taken off the resting
one. -/
theorem find?_settlePair {s : Logged Ledger} (hask : out.ask = .undone) (hbid : out.bid = .undone)
    (hid : (match side with | .ask => b | .bid => a) = id) :
    Ends (settlePair a b out (some side)) s
    (fun _ t => ∀ id', t.state.find? id' = takenOff id out.trade s.state.find? id')
    (fun _ _ => True) := by
  have hside : ∀ (id : OrderId) (side : Side) (t : Logged Ledger),
    (∀ id, t.state.find? id = s.state.find? id) →
      Ends (settleSide id (out.status side).isDone out.trade) t
        (fun _ u => ∀ id', u.state.find? id' = takenOff id out.trade s.state.find? id')
        (fun _ _ => True) := by
    intro id side t ht
    have hdone : (out.status side).isDone = false := by
      cases side
      · exact congrArg _ hask
      · exact congrArg _ hbid
    simp only [settleSide, hdone, ends_bind]
    refine find?_takeOff.imp fun _ u hu id' => (hu id').trans ?_
    rw [takenOff, takenOff, ht]
  unfold settlePair
  refine find?_recordDeal.bind ?_
  intro _ t ht
  cases side with
  | ask => exact hid ▸ hside b .bid t ht
  | bid => exact hid ▸ (hside a .ask t ht).bind fun _ _ hu => hu

/-- A match that finished neither order. -/
theorem Lists.ends_settlePair (h : Lists roomy q gone f l) (hask : out.ask = .undone)
    (hbid : out.bid = .undone) (hid : (match side with | .ask => b | .bid => a) = id) :
    Ends (settlePair a b out (some side)) ⟨l, j⟩
      (fun _ t => Lists roomy q gone (takenOff id out.trade f) t.state)
      (fun f _ => f.IsOverflow ∧ ¬ roomy) := by
  refine (ends_roomy (P := fun l' => ∀ id', l'.find? id' = takenOff id out.trade l.find? id')
    (find?_settlePair hask hbid hid) breaks_settlePair
    fun hroomy => (h.room hroomy).ends_settlePair).imp ?_
  rintro _ t ⟨hfind, hroom⟩
  refine ⟨fun id' => ?_, hroom⟩
  rw [hfind, takenOff, takenOff]
  rcases h.find id' with hsame | ⟨hnone, hgone⟩
  · exact .inl (by rw [hsame])
  · refine .inr ⟨?_, hgone⟩
    rw [hnone]
    split <;> rfl

end Ledger

/-! ## Settlement without progress -/

/-- How much changed hands. -/
def FillOutcome.traded (out : FillOutcome) : Quantity := (out.trade.map (·.quantity)).getD .zero

namespace Settlement

/-- Settlement answers a call and finishes neither order. A trade, if there was one, is added to
both orders and leaves both open. -/
structure Stalls (S : Settlement σ) (c : FillCall) (out : FillOutcome)
    (o o' : Office σ) : Prop where
  answers : ∀ j, Ends (S.fill c.ask c.bid c.price c.quantity) ⟨o, j⟩
    (fun out' t => out' = out ∧ t.state = o')
    (fun _ _ => False)
  ask : out.ask = .undone
  bid : out.bid = .undone
  filled : ∀ t, out.trade = some t → ∀ r, r = c.ask ∨ r = c.bid →
    (o'.orders.get r).fulfilled.toNat = (o.orders.get r).fulfilled.toNat + t.quantity.toNat ∧
      (o'.orders.get r).isOpen = true

variable {c : FillCall} {out : FillOutcome} {o o' : Office σ}

/-- Settlement that stalls filled and closed orders only, if it is faithful. -/
theorem Stalls.retain (h : S.Stalls c out o o') (hS : S.Faithful) : o.orders.Retain o'.orders :=
  hS.fill ⟨#[], (h.answers #[]).mono (fun _ _ ht => ⟨congrArg some ht.1.symm, ht.2⟩)
    fun _ _ hf => hf.elim⟩

/-- The trade is for less than either order has left. -/
theorem Stalls.lt (h : S.Stalls c out o o') (hS : S.Faithful) {t : Trade} (ht : out.trade = some t)
    {r : OrderRef} (hr : r = c.ask ∨ r = c.bid) :
    t.quantity.toNat < (o.orders.get r).unfulfilled.toNat := by
  obtain ⟨hfilled, hopen⟩ := h.filled t ht r hr
  have hleft := (Order.isOpen_iff.1 hopen).2
  rw [Order.toNat_unfulfilled, ((h.retain hS).follow r).quantity] at hleft
  rw [Order.toNat_unfulfilled]
  omega

end Settlement

namespace Desk

variable {d d' : Desk (Recorded σ)} {s : Logged (Desk (Recorded σ))} {r resting : OrderRef}
  {i : Item} {out : FillOutcome} {o : Office σ} {side : Side} {user : UserId}
  {exclude : Option UserId} {known : OrderRef → Prop} {roomy : Prop} {n : Nat}
  {f : OrderId → Option Shown} {fired : List OrderRef}

/-- The call to fill an incoming order with a resting one, answered with an outcome and an
office. -/
def call (d : Desk (Recorded σ)) (r resting : OrderRef) (out : FillOutcome) (o : Office σ) :
    FillCall where
  ask := (pair (d.order r).side r resting).1
  bid := (pair (d.order r).side r resting).2
  price := d.dealPrice (pair (d.order r).side r resting).1 (pair (d.order r).side r resting).2
  quantity := min (d.order (pair (d.order r).side r resting).1).unfulfilled
    (d.order (pair (d.order r).side r resting).2).unfulfilled
  before := d.office.orders
  outcome := some out
  after := o.orders

/-! ## The search -/

/-- The number is that of an order in the queue of the side that is no longer open. -/
def Spent (d : Desk (Recorded σ)) (side : Side) (id : OrderId) : Prop :=
  ∃ k ∈ (d.book.queue side).bag, (d.order k.order).isOpen = false ∧ (d.order k.order).id = id

/-- Dropping closed orders withdraws none that a ledger must list. -/
theorem drops_lists (d : Desk (Recorded σ)) (side : Side) (roomy : Prop) (n : Nat)
    (f : OrderId → Option Shown) :
    Drops d side (Ledger.Lists roomy n (d.Spent side) f) (¬ roomy) :=
  fun k hk ho _ _ hl => hl.ends_withdraw ⟨k, hk, ho, rfl⟩

/-- The best of the eligible orders heads the queue after the search. -/
theorem Best.heads {d d' : Desk σ} {dropped : Multiset Item} {aside : List Item}
    {top : Option OrderRef} (h : Best side exclude d i) (hd : Sound known d)
    (hids : ((d.book.queue side).bag.map (·.id)).Nodup)
    (hsearch : Searched side exclude d d' dropped aside) (htop : Heads side exclude d' top) :
    top = some i.order ∧ (d'.book.queue side).headItem? = some i := by
  have hmem := hsearch.mem_bag_of_eligible h.mem h.eligible
  cases top with
  | none => exact absurd (show i ∈ (0 : Multiset Item) from htop ▸ hmem) (Multiset.notMem_zero _)
  | some found =>
    obtain ⟨k, hk, rfl, he⟩ := htop
    have hbest := hsearch.best hd hk he
    have hid : k.id = i.id := by
      by_contra hne
      exact rank_ne_eq hne (Std.OrientedCmp.isLE_antisymm (h.isLE k hbest.mem hbest.eligible)
        (hbest.isLE i h.mem h.eligible))
    cases Multiset.inj_on_of_nodup_map hids k hbest.mem i h.mem hid
    exact ⟨rfl, hk⟩

/-! ## The step -/

/-- Settlement was called once for the pair and finished neither order. The queue of the other side
holds what it held but closed orders, the last price is that of the trade, if there was one, and
the trade was taken off what the ledger shows of the resting order. -/
structure Stalled (roomy : Prop) (n : Nat) (side : Side) (c : FillCall) (resting : OrderId)
    (out : FillOutcome) (o : Office σ) (d d' : Desk (Recorded σ)) : Prop where
  office : d'.office = d.office.written (.fill c) o
  queue : ∃ dropped,
    (d.book.queue side.opposite).bag = dropped + (d'.book.queue side.opposite).bag ∧
    ∀ k ∈ dropped, (d.order k.order).isOpen = false
  ordered : (d'.book.queue side.opposite).Ordered (.ofResting side.opposite)
  others : d'.book.queue side = d.book.queue side
  stopLossQueue : ∀ s, d'.book.stopLossQueue s = d.book.stopLossQueue s
  lastPrice : d'.book.lastPrice = (out.trade.map (·.price)).getD d.book.lastPrice
  ledger : d'.book.ledger.Lists roomy n (d.Spent side.opposite)
    (Ledger.takenOff resting out.trade d.book.ledger.find?)

/-- Putting back what the search set aside. -/
theorem Searched.stalled {d₁ : Desk (Recorded σ)} {dropped : Multiset Item} {aside : List Item}
    {c : FillCall} {id : OrderId} {l : Ledger}
    (hsearch : Searched side.opposite exclude d d₁ dropped aside)
    (hd : Sound known d) (hl : l.Lists roomy n (d.Spent side.opposite)
      (Ledger.takenOff id out.trade d.book.ledger.find?)) :
    Stalled roomy n side c id out o d (withItems ⟨d.office.written (.fill c) o, { d₁.book with
      lastPrice := (out.trade.map (·.price)).getD d.book.lastPrice, ledger := l }⟩
        side.opposite aside) := by
  have hqueue : ∀ s, ({ d₁.book with
      lastPrice := (out.trade.map (·.price)).getD d.book.lastPrice, ledger := l } : Book).queue s =
      d₁.book.queue s := fun s => Book.queue_withLastPrice ..
  refine ⟨rfl, ⟨dropped, ?_, hsearch.dropped⟩, ?_, ?_, ?_, lastPrice_withItems .., ?_⟩
  · rw [bag_withItems, hqueue, hsearch.bag, add_assoc]
  · rw [queue_withItems, if_pos rfl, hqueue]
    exact ordered_foldl_pushItem aside (hsearch.ordered (hd.ordered side.opposite))
  · rw [queue_withItems, if_neg side.opposite_ne, hqueue]
    exact hsearch.queue_of_ne side.opposite_ne
  · intro s
    rw [stopLossQueue_withItems]
    exact (Book.stopLossQueue_withLastPrice ..).trans (hsearch.stopLossQueue s)
  · rw [ledger_withItems]
    exact hl

/-- An incoming order that is open, and the resting order that it meets first: the two cross. -/
structure Meets (d : Desk (Recorded σ)) (r : OrderRef) (i : Item) : Prop where
  isOpen : (d.order r).isOpen = true
  best : Best (d.order r).side.opposite (some (d.order r).user) d i
  crosses : crosses (d.order (pair (d.order r).side r i.order).1)
    (d.order (pair (d.order r).side r i.order).2) = true

/-- A pair of which no side is finished makes no progress. -/
theorem answer_of_undone {a b : OrderId} (hask : out.ask = .undone) (hbid : out.bid = .undone) :
    answer a b out = .error ⟨a, b, out⟩ := by
  unfold answer
  rw [hask, hbid]
  rfl

/-- Settlement is called with the pair as it was before the search, and finishes neither order. -/
theorem ends_makeTrade_of_stall {t : Logged (Desk (Recorded σ))} {dropped : Multiset Item}
    {aside : List Item}
    (hsearch : Searched (d.order r).side.opposite exclude d t.state dropped aside)
    (hl : t.state.book.ledger.Lists roomy n (d.Spent (d.order r).side.opposite)
      d.book.ledger.find?)
    (hstall : S.Stalls (d.call r i.order out o) out d.office.forget o) :
    Ends (makeTrade S.recorded (d.call r i.order out o).ask (d.call r i.order out o).bid
        (some (d.order r).side)) t
      (fun answer u => (∃ fault : MatchFault, answer = .error fault ∧ fault.trade = out.trade) ∧
        ∃ l : Ledger, l.Lists roomy n (d.Spent (d.order r).side.opposite)
            (Ledger.takenOff (d.order i.order).id out.trade d.book.ledger.find?) ∧
          u.state = ⟨d.office.written (.fill (d.call r i.order out o)) o, { t.state.book with
            lastPrice := (out.trade.map (·.price)).getD d.book.lastPrice, ledger := l }⟩)
      (fun f _ => f.IsOverflow ∧ ¬ roomy) := by
  have hfill : Ends (S.recorded.fill (d.call r i.order out o).ask (d.call r i.order out o).bid
      (t.state.dealPrice (d.call r i.order out o).ask (d.call r i.order out o).bid)
      (min (t.state.order (d.call r i.order out o).ask).unfulfilled
        (t.state.order (d.call r i.order out o).bid).unfulfilled)) ⟨t.state.office, t.journal⟩
      (fun out' u => out' = out ∧ u.state = d.office.written (.fill (d.call r i.order out o)) o)
      (fun _ _ => False) := by
    rw [Settlement.ends_fill_recorded, dealPrice, hsearch.order, hsearch.order, hsearch.lastPrice,
      hsearch.office]
    exact (hstall.answers t.journal).imp fun _ _ hu => ⟨hu.1, by rw [hu.1, hu.2]; rfl⟩
  have hresting : (match (d.order r).side with
      | .ask => (t.state.order (d.call r i.order out o).bid).id
      | .bid => (t.state.order (d.call r i.order out o).ask).id) = (d.order i.order).id := by
    rw [hsearch.order, hsearch.order, call]
    cases (d.order r).side <;> rfl
  refine (ends_makeTrade_of_fill hfill fun j => hl.ends_settlePair hstall.ask hstall.bid
    hresting).mono ?_
    fun f _ hf => ⟨hf.1, hf.2.1⟩
  rintro _ u ⟨rfl, l, hl, hu⟩
  rw [hsearch.lastPrice] at hu
  exact ⟨⟨_, answer_of_undone hstall.ask hstall.bid, rfl⟩, l, hl, hu⟩

/-- A round in which settlement finishes neither order is the last one. -/
theorem ends_matchRound_of_stall (hS : S.Faithful) (hd : Sound known s.state)
    (hparks : Parks s.state)
    (hids : ((s.state.book.queue (s.state.order r).side.opposite).bag.map (·.id)).Nodup)
    (hmeets : Meets s.state r i)
    (hstall : S.Stalls (s.state.call r i.order out o) out s.state.office.forget o)
    (hroom : roomy → s.state.book.ledger.HasRoom n) :
    Ends (matchRound S.recorded (s.state.order r).side (s.state.order r).user r) s
      (fun result t => ∃ fired d', result = ⟨!fired.isEmpty, false⟩ ∧
        Stalled roomy n (s.state.order r).side (s.state.call r i.order out o) i.id out o
          s.state d' ∧
        Fired S out.trade fired d' t.state)
      (fun f _ => f.IsOverflow ∧ ¬ roomy ∨ S.Balks) := by
  have hlists : s.state.book.ledger.Lists roomy n (s.state.Spent (s.state.order r).side.opposite)
      s.state.book.ledger.find? := ⟨fun _ => .inl rfl, hroom⟩
  have hid : (s.state.order i.order).id = i.id := (hd.resting _ i hmeets.best.mem).id
  simp only [matchRound, ends_bind, ends_current, hmeets.isOpen, Bool.not_true,
    Bool.false_eq_true, if_false]
  refine (ends_findTop (drops_lists s.state _ roomy n _) hlists).mono ?_ fun f _ hf =>
    .inl ⟨hf.1, hf.2.1⟩
  rintro ⟨top, aside⟩ t ⟨dropped, hsearch, htop, hlists⟩
  obtain ⟨rfl, hhead⟩ := hmeets.best.heads hd hids hsearch htop
  have hcross : crosses (t.state.order (pair (s.state.order r).side r i.order).1)
      (t.state.order (pair (s.state.order r).side r i.order).2) = true := by
    rw [hsearch.order, hsearch.order]
    exact hmeets.crosses
  simp only [ends_bind, ends_current, hcross, Bool.not_true, Bool.false_eq_true, if_false]
  refine (ends_makeTrade_of_stall hsearch hlists hstall).mono ?_ fun f _ hf => .inl hf
  rintro _ ⟨_, j⟩ ⟨⟨fault, rfl, htrade⟩, l, hl, rfl⟩
  rw [hid] at hl
  have hstalled := hsearch.stalled (c := s.state.call r i.order out o) (o := o) hd hl
  have hparks' := hparks.congr hstalled.stopLossQueue (hstalled.office ▸ hstall.retain hS)
  simp only [ends_bind, ends_log, ends_restore, htrade]
  refine (fires_triggerAfter hS hparks' out.trade).mono ?_ fun _ _ hf => .inr hf
  rintro _ t ⟨fired, rfl, hfired⟩
  exact ⟨fired, _, rfl, hstalled, hfired⟩

/-- Nothing of an order is taken back in the step. -/
theorem Fired.follow {d₁ : Desk (Recorded σ)} {trade : Option Trade}
    (h : Fired S trade fired d₁ d') (horders : d.office.orders.Follow d₁.office.orders) :
    d.office.orders.Follow d'.office.orders :=
  (horders.trans (Office.follow_activatedAll _ _)).trans h.orders.follow

/-! ## Taking the order in -/

/-- What is left of an order rests if it is open, with a ledger in `P` then. -/
def Leaves (P : Ledger → Prop) (side : Side) (r : OrderRef) (d d' : Desk σ) : Prop :=
  ((d.order r).isOpen = true ∧ ∃ l, P l ∧ d' = d.rested side r l) ∨
    (d.order r).isOpen = false ∧ d' = d

/-- What is left of an order rests, and is shown if it is open. -/
theorem ends_restLeft {P : Ledger → Prop} {B : Prop} {s : Logged (Desk σ)}
    (hadd : (s.state.order r).isOpen = true → ∀ j, Ends (Ledger.add (s.state.order r))
      ⟨s.state.book.ledger, j⟩ (fun _ t => P t.state) (fun f _ => f.IsOverflow ∧ B)) :
    Ends (restLeft side r) s (fun _ t => Leaves P side r s.state t.state)
    (fun f _ => f.IsOverflow ∧ B) := by
  simp only [restLeft, ends_bind, ends_current]
  split
  · next hopen =>
    exact (ends_rest (hadd hopen)).mono (fun _ _ ht => .inl ⟨hopen, ht⟩) fun _ _ hf =>
      ⟨hf.1, hf.2.1⟩
  · next hopen => exact .inr ⟨Bool.not_eq_true _ ▸ hopen, rfl⟩

namespace Leaves

variable {P : Ledger → Prop} {d d' : Desk σ} (h : Leaves P side r d d')

include h

theorem office : d'.office = d.office := by
  rcases h with ⟨-, l, -, rfl⟩ | ⟨-, rfl⟩ <;> rfl

/-- What rests leaves the orders as they are. -/
theorem order (r' : OrderRef) : d'.order r' = d.order r' := by
  unfold Desk.order
  rw [h.office]

theorem queue_of_ne {s : Side} (hs : side ≠ s) : d'.book.queue s = d.book.queue s := by
  rcases h with ⟨-, l, -, rfl⟩ | ⟨-, rfl⟩
  · rw [queue_rested, if_neg hs]
  · rfl

/-- Nothing but the order that came in comes into a queue. -/
theorem bag (s : Side) : ∃ new : Multiset Item,
    (d'.book.queue s).bag = new + (d.book.queue s).bag ∧
    ∀ k ∈ new, k.order = r := by
  rcases h with ⟨-, l, -, rfl⟩ | ⟨-, rfl⟩
  · rw [queue_rested]
    split
    · next hs =>
      refine ⟨{.ofOrder r (d.order r)}, ?_, fun k hk => (Multiset.mem_singleton.1 hk) ▸ rfl⟩
      rw [← hs, Queue.push, Queue.bag_pushItem, Multiset.singleton_add]
    · exact ⟨0, (zero_add _).symm, fun k hk => absurd hk (Multiset.notMem_zero k)⟩
  · exact ⟨0, (zero_add _).symm, fun k hk => absurd hk (Multiset.notMem_zero k)⟩

/-- What is open rests. -/
theorem bag_of_isOpen (hopen : (d.order r).isOpen = true) :
    (d'.book.queue side).bag = .ofOrder r (d.order r) ::ₘ (d.book.queue side).bag := by
  rcases h with ⟨-, l, -, rfl⟩ | ⟨hclosed, -⟩
  · rw [queue_rested, if_pos rfl, Queue.push, Queue.bag_pushItem]
  · exact absurd (hclosed.symm.trans hopen) (by decide)

theorem stopLossQueue (s : Side) : d'.book.stopLossQueue s = d.book.stopLossQueue s := by
  rcases h with ⟨-, l, -, rfl⟩ | ⟨-, rfl⟩
  · exact stopLossQueue_rested ..
  · rfl

theorem lastPrice : d'.book.lastPrice = d.book.lastPrice := by
  rcases h with ⟨-, l, -, rfl⟩ | ⟨-, rfl⟩
  · exact Book.lastPrice_withQueue ..
  · rfl

end Leaves

/-- What the ledger shows in the end: the incoming order with what is left of it, and of the
resting order what a trade left. -/
def shownAfter (d : Desk (Recorded σ)) (r : OrderRef) (resting : OrderId) (trade : Option Trade)
    (left : Order) (id : OrderId) : Option Shown :=
  if (d.order r).id = id then some (.ofOrder left)
  else Ledger.takenOff resting trade d.book.ledger.find? id

/-- Taking an order in, when settlement finishes neither order of the first pair: the call, what
its trade set off, and what is left of the order at rest. -/
structure Course (S : Settlement σ) (roomy : Prop) (r : OrderRef) (i : Item) (out : FillOutcome)
    (o : Office σ) (fired : List OrderRef) (d d₁ d₂ d' : Desk (Recorded σ)) : Prop where
  retain : d.office.orders.Retain o.orders
  stalled : Stalled roomy (d.order r).unfulfilled.toNat (d.order r).side (d.call r i.order out o)
    i.id out o d d₁
  fired : Fired S out.trade fired d₁ d₂
  leaves : Leaves (Ledger.Lists roomy 0 (d.Spent (d.order r).side.opposite)
    (d.shownAfter r i.id out.trade (d₂.order r))) (d.order r).side r d₂ d'

/-- Settlement finishes neither order of the first pair, and nothing else is matched. What is left
of the incoming order rests. -/
theorem ends_intake_of_stall (hS : S.Faithful) (hd : Sound known s.state) (hparks : Parks s.state)
    (hids : ((s.state.book.queue (s.state.order r).side.opposite).bag.map (·.id)).Nodup)
    (hmeets : Meets s.state r i)
    (hstall : S.Stalls (s.state.call r i.order out o) out s.state.office.forget o)
    (hnew : i.id ≠ (s.state.order r).id)
    (hunshown : s.state.book.ledger.find? (s.state.order r).id = none)
    (hroom : roomy → s.state.book.ledger.HasRoom (s.state.order r).unfulfilled.toNat) :
    Ends (intake S.recorded r) s
      (fun activated t => ∃ fired d₁ d₂, activated = !fired.isEmpty ∧
        Course S roomy r i out o fired s.state d₁ d₂ t.state)
      (fun f _ => f.IsOverflow ∧ ¬ roomy ∨ S.Balks) := by
  simp only [intake, ends_bind, ends_current]
  rw [processLimit, matchIncoming_succ]
  simp only [ends_bind]
  refine (ends_matchRound_of_stall hS hd hparks hids hmeets hstall hroom).imp ?_
  rintro _ ⟨d₂, j⟩ ⟨fired, d₁, rfl, hstalled, hfired⟩
  simp only [Bool.false_eq_true, if_false, ends_pure, Bool.false_or]
  have hfollow : (s.state.order r).Follows (d₂.order r) :=
    hfired.follow (hstalled.office ▸ (hstall.retain hS).follow) r
  have hnone : Ledger.takenOff i.id out.trade s.state.book.ledger.find?
      (d₂.order r).id = none := by
    rw [Ledger.takenOff, hfollow.id, if_neg hnew]
    exact hunshown
  have hle : 0 + (d₂.order r).unfulfilled.toNat ≤ (s.state.order r).unfulfilled.toNat := by
    rw [Nat.zero_add, Order.toNat_unfulfilled, Order.toNat_unfulfilled,
      hfollow.quantity]
    exact Nat.sub_le_sub_left hfollow.fulfilled _
  have hledger := hfired.ledger.symm ▸ hstalled.ledger
  refine (ends_restLeft (s := ⟨d₂, j⟩) fun hopen j => hledger.ends_add hopen hnone hle).mono ?_
    fun _ _ hf => .inl hf
  rw [hfollow.id]
  exact fun _ t ht => ⟨fired, d₁, d₂, rfl, hstall.retain hS, hstalled, hfired, ht⟩

end Desk

end Bourse
