import Bourse.Proofs.Book.Rounds
import Bourse.Proofs.Book.Upkeep

/-!
# Matching an incoming order

One round of `matchIncoming` looks for the best resting order of another user. Either the round
finds none that crosses (`Unmatched`), or it settles the pair and triggers stop-losses (`Matched`);
if it breaks off, then before or after it made the deal (`DealsBest`). A whole run is a sequence of
such rounds, `MatchRun`, and `ends_matchIncoming` shows that every call makes one: it never outruns
its limit, since a round that leaves the incoming order open takes an order off the queues.
-/

namespace Bourse.Desk

open Bourse.Action

variable {s : Logged (Desk Simulated)} {d d' d'' : Desk Simulated} {side : Side} {user : UserId}
  {r : OrderRef} {known : OrderRef → Prop} {i : Item}

/-- The order of this side and user is being matched. -/
structure Incoming (known : OrderRef → Prop) (side : Side) (user : UserId) (r : OrderRef)
    (d : Desk Simulated) : Prop where
  known : known r
  side : (d.order r).side = side
  user : (d.order r).user = user
  type : (d.order r).type ≠ .stopLoss

/-- An order goes on coming in as orders are filled and closed. -/
theorem Incoming.follow (h : Incoming known side user r d)
    (hf : d.office.orders.Follow d'.office.orders) : Incoming known side user r d' where
  known := h.known
  side := (hf r).side.trans h.side
  user := (hf r).user.trans h.user
  type := (hf r).type_ne h.type

/-- An order goes on coming in as the book goes onward. -/
theorem Incoming.onward (h : Incoming known side user r d) (hon : Onward d d') :
    Incoming known side user r d' := h.follow hon.orders

/-- An incoming order is not in the queue of the other side. -/
theorem Incoming.ne (h : Incoming known side user r d) (hd : Sound known d)
    (hi : i ∈ (d.book.queue side.opposite).bag) : r ≠ i.order := by
  intro heq
  have := (hd.resting side.opposite i hi).side
  rw [← heq] at this
  exact side.opposite_ne (this.symm.trans h.side)

/-- The ask and the bid of a match with an incoming order cross. -/
def Crosses (side : Side) (r : OrderRef) (d : Desk Simulated) (resting : OrderRef) : Bool :=
  crosses (d.order (pair side r resting).1) (d.order (pair side r resting).2)

/-- The desk after the incoming order was settled with a resting one, up to the ledger. -/
def dealtWith (d : Desk Simulated) (side : Side) (r resting : OrderRef) (l : Ledger) :
    Desk Simulated := d.dealt (pair side r resting).1 (pair side r resting).2 l

/-- A round found nothing to match the incoming order with. -/
structure Unmatched (side : Side) (user : UserId) (r : OrderRef) (d d' : Desk Simulated) :
    Prop where
  office : d'.office = d.office
  lastPrice : d'.book.lastPrice = d.book.lastPrice
  sheds : Sheds d d'
  dormant : ∀ s, d'.book.stopLossQueue s = d.book.stopLossQueue s
  onward : Onward d d'
  itemCount : d'.book.itemCount ≤ d.book.itemCount
  none : (∀ i ∈ (d.book.queue side.opposite).bag, ¬ Eligible (some user) (d.order i.order)) ∨
    ∃ i, Best side.opposite (some user) d i ∧ Crosses side r d i.order = false

/-- A round settled the incoming order with the best resting one of another user. -/
structure Matched (side : Side) (user : UserId) (r : OrderRef) (i : Item) (d d' : Desk Simulated) :
    Prop where
  best : Best side.opposite (some user) d i
  crosses : Crosses side r d i.order = true
  office : d'.office = (d.dealtWith side r i.order d.book.ledger).office
  lastPrice : d'.book.lastPrice = (d.dealtWith side r i.order d.book.ledger).book.lastPrice
  sheds : Sheds d d'
  dormant : ∀ s, d'.book.stopLossQueue s = d.book.stopLossQueue s
  onward : Onward d d'
  itemCount : d'.book.itemCount + (if (d'.order i.order).closed then 1 else 0) ≤ d.book.itemCount

/-- A round made the deal of the incoming order and the best resting one of another user, which
crossed. -/
def DealsBest (side : Side) (user : UserId) (r : OrderRef) (d d' : Desk Simulated) : Prop :=
  ∃ i, Best side.opposite (some user) d i ∧ Crosses side r d i.order = true ∧
    d.Deals (pair side r i.order).1 (pair side r i.order).2 d'

/-- If the incoming order is open after a round then the other one is closed. -/
theorem Matched.closed_of_isOpen (h : Matched side user r i d d')
    (hr : Incoming known side user r d) (hd : Sound known d) (ho : (d'.order r).isOpen = true) :
    (d'.order i.order).closed = true := by
  have hne := hr.ne hd h.best.mem
  have hopen : (d.order r).isOpen = true := (h.onward.orders r).isOpen ho
  have hclosed := (Order.isOpen_iff.1 ho).1
  unfold Desk.order at *
  rw [h.office] at hclosed ⊢
  cases side with
  | ask =>
    exact (Office.closed_dealt hne hopen h.best.eligible.1).resolve_left
      fun hcl => Bool.false_ne_true (hclosed.symm.trans hcl)
  | bid =>
    exact (Office.closed_dealt hne.symm h.best.eligible.1 hopen).resolve_right
      fun hcl => Bool.false_ne_true (hclosed.symm.trans hcl)

/-- The rounds of matching an incoming order, and whether a stop-loss was activated in them. -/
inductive MatchRun (known : OrderRef → Prop) (side : Side) (user : UserId) (r : OrderRef) :
    Desk Simulated → Bool → Desk Simulated → Prop
  /-- The incoming order is finished. -/
  | finished {d : Desk Simulated} (closed : (d.order r).isOpen = false) :
    MatchRun known side user r d false d
  /-- Nothing crosses the incoming order. -/
  | unmatched {d d' : Desk Simulated} (round : Unmatched side user r d d')
      (sound : Sound known d') : MatchRun known side user r d false d'
  /-- The incoming order is settled with a resting one, and matching goes on. -/
  | matched {d d' d'' e : Desk Simulated} {i : Item} {fired fired' : Bool}
    (isOpen : (d.order r).isOpen = true)
    (round : Matched side user r i d d') (sound : Sound known d')
    (triggered : Triggered known
      (d.deal? (pair side r i.order).1 (pair side r i.order).2) d' fired d'')
    (rest : MatchRun known side user r d'' fired' e) :
    MatchRun known side user r d (fired || fired') e

/-- A run of matching leads onward. -/
theorem MatchRun.onward {fired : Bool} (h : MatchRun known side user r d fired d') :
    Onward d d' := by
  induction h with
  | finished closed => exact .refl _
  | unmatched round sound => exact round.onward
  | matched isOpen round sound triggered rest ih =>
    exact round.onward.trans (triggered.onward.trans ih)

/-- A run of matching keeps the queues sound. -/
theorem MatchRun.sound {fired : Bool} (h : MatchRun known side user r d fired d')
    (hd : Sound known d) : Sound known d' := by
  induction h with
  | finished closed => exact hd
  | unmatched round sound => exact sound
  | matched isOpen round sound triggered rest ih => exact ih triggered.sound

section Pair

variable (side : Side) (r resting : OrderRef)

/-- The incoming order of a pair is the one on its side. -/
theorem incomingOf_pair :
    incomingOf (some side) (pair side r resting).1 (pair side r resting).2 = some r := by
  cases side <;> rfl

/-- What holds of both orders of a match, with their sides, holds of the ask and of the bid. -/
theorem forall_pair {P : Side → OrderRef → Prop} (h : P side r) (h' : P side.opposite resting) :
    P .ask (pair side r resting).1 ∧ P .bid (pair side r resting).2 := by
  cases side
  · exact ⟨h, h'⟩
  · exact ⟨h', h⟩

/-- The two orders of a pair differ if the orders do. -/
theorem pair_ne {r resting : OrderRef} (hne : r ≠ resting) :
    (pair side r resting).1 ≠ (pair side r resting).2 := by
  cases side
  · exact hne
  · exact hne.symm

/-- The resting order is called done if it is closed by then. -/
theorem isDone_dealStep (d : Desk Simulated) (l : Ledger) :
    (d.dealStep (pair side r resting).1 (pair side r resting).2).isDone side.opposite =
      ((d.dealtWith side r resting l).order resting).closed := by
  cases side <;> rfl

end Pair

/-- Dealing with a pair leaves the queues as they are. -/
theorem queue_dealtWith (d : Desk Simulated) (side : Side) (r resting : OrderRef) (l : Ledger)
    (s : Side) : (d.dealtWith side r resting l).book.queue s = d.book.queue s := queue_dealt ..

/-- The desk after the incoming order was settled with the first of the other queue: that one is
taken out if it is closed, and those set aside are put back. -/
def afterMatch (d : Desk Simulated) (side : Side) (r resting : OrderRef) (aside : List Item)
    (l : Ledger) : Desk Simulated :=
  ((d.dealtWith side r resting l).popClosed side.opposite resting).withItems side.opposite aside

/-- What follows the deal leaves the office as it is. -/
theorem office_afterMatch (d : Desk Simulated) (side : Side) (r resting : OrderRef)
    (aside : List Item) (l : Ledger) :
    (d.afterMatch side r resting aside l).office = (d.dealtWith side r resting l).office := by
  rw [afterMatch, office_withItems, office_popClosed]

/-- What follows the deal leaves the ledger as it is. -/
theorem ledger_afterMatch (d : Desk Simulated) (side : Side) (r resting : OrderRef)
    (aside : List Item) (l : Ledger) : (d.afterMatch side r resting aside l).book.ledger = l := by
  rw [afterMatch, ledger_withItems, ledger_popClosed]
  rfl

section Search

variable {dropped : Multiset Item} {aside : List Item}
  (hsearch : Searched side.opposite (some user) d d' dropped aside)

include hsearch

/-- If the search finds nothing that crosses then the order is unmatched. -/
theorem unmatched_of_search (hnone : (∀ i ∈ (d.book.queue side.opposite).bag,
      ¬ Eligible (some user) (d.order i.order)) ∨
    ∃ i, Best side.opposite (some user) d i ∧ Crosses side r d i.order = false) :
    Unmatched side user r d (d'.withItems side.opposite aside) where
  office := hsearch.office
  lastPrice := (lastPrice_withItems ..).trans hsearch.lastPrice
  sheds := hsearch.sheds
  dormant s := (stopLossQueue_withItems ..).trans (hsearch.stopLossQueue s)
  onward := hsearch.onward.trans (onward_withItems ..)
  itemCount := itemCount_withItems d' side.opposite aside ▸ hsearch.itemCount
  none := hnone

/-- A round of matching keeps the queues sound. -/
theorem sound_afterMatch (hd : Sound known d) (hne : r ≠ i.order)
    (hi : (d'.book.queue side.opposite).headItem? = some i) (l : Ledger) :
    Sound known (d'.afterMatch side r i.order aside l) := by
  have hpair := pair_ne side hne
  obtain ⟨hd', haside⟩ := hsearch.sound hd
  have hdealt : Sound known (d'.dealtWith side r i.order l) := hd'.dealt hpair
  refine (hdealt.popClosed ((queue_dealtWith ..).symm ▸ hi)).withItems ?_
  intro j hj
  rw [office_popClosed]
  exact (haside j hj).follow (onward_dealt hpair).orders

/-- If the search finds an order that crosses then the two are matched. -/
theorem matched_of_search (hd : Sound known d) (hne : r ≠ i.order)
    (hi : (d'.book.queue side.opposite).headItem? = some i)
    (he : Eligible (some user) (d'.order i.order)) (hc : Crosses side r d' i.order = true)
    (l : Ledger) :
    Matched side user r i d (d'.afterMatch side r i.order aside l) := by
  have hpair := pair_ne side hne
  have horder : d'.order = d.order := funext hsearch.order
  have hdeal : d'.dealtWith side r i.order l =
      ⟨(d.dealtWith side r i.order d.book.ledger).office,
        { d'.book with
          lastPrice := (d.dealtWith side r i.order d.book.ledger).book.lastPrice,
            ledger := l }⟩ := by
    unfold dealtWith dealt dealtPrice deal? dealPrice
    rw [horder, hsearch.office, hsearch.lastPrice]
  have hon : Onward d (d'.dealtWith side r i.order l) := hsearch.onward.trans (onward_dealt hpair)
  have hi' : ((d'.dealtWith side r i.order l).book.queue side.opposite).headItem? = some i :=
    (queue_dealt ..).symm ▸ hi
  have horder' : (d'.afterMatch side r i.order aside l).order =
      (d'.dealtWith side r i.order l).order := by
    unfold Desk.order
    rw [office_afterMatch]
  refine ⟨hsearch.best hd hi he, ?_, ?_, ?_, ?_, ?_, ?_, ?_⟩
  · unfold Crosses at *
    rwa [horder] at hc
  · rw [office_afterMatch, hdeal]
  · rw [afterMatch, lastPrice_withItems, lastPrice_popClosed, hdeal]
  · intro s
    unfold afterMatch
    by_cases hs : side.opposite = s
    · subst hs
      obtain ⟨gone, hbag, hgone⟩ := bag_popClosed hi'
      refine ⟨dropped + gone, ?_, ?_⟩
      · rw [bag_withItems, hsearch.bag, ← queue_dealtWith d' side r i.order l, hbag]
        abel
      · intro j hj
        show (((d'.dealtWith side r i.order l).popClosed _ _).order j.order).isOpen = false
        rw [order_popClosed]
        rcases Multiset.mem_add.1 hj with hj | hj
        · exact (hon.orders j.order).not_isOpen (hsearch.dropped j hj)
        · exact hgone j hj
    · refine ⟨0, ?_, fun _ hj => absurd hj (Multiset.notMem_zero _)⟩
      rw [zero_add, queue_withItems, if_neg hs, queue_popClosed_of_ne _ _ _ hs, queue_dealtWith,
        hsearch.queue_of_ne hs]
  · intro s
    rw [afterMatch, stopLossQueue_withItems, stopLossQueue_popClosed]
    exact (stopLossQueue_dealt ..).trans (hsearch.stopLossQueue s)
  · exact (hon.trans (onward_popClosed ..)).trans (onward_withItems ..)
  · have hcount := hsearch.itemCount
    have hpop := itemCount_popClosed hi'
    rw [horder', afterMatch, itemCount_withItems]
    rw [show (d'.dealtWith side r i.order l).book.itemCount = d'.book.itemCount from rfl] at hpop
    omega

end Search

section Round

variable {Inv : Option OrderRef → Office Simulated → Ledger → Prop}
  {Broken : Office Simulated → Prop} {dropped : Multiset Item} {aside : List Item}

/-- An open incoming order can be settled with an open one of the other queue. -/
theorem settles_of_incoming (up : Upkeep known Inv Broken) (hd : Sound known d)
    (hr : Incoming known side user r d) (hopen : (d.order r).isOpen = true)
    (hi : i ∈ (d.book.queue side.opposite).bag) (hio : (d.order i.order).isOpen = true)
    (hI : Inv (some r) d.office d.book.ledger) :
    ((d.order (pair side r i.order).1).isOpen = true ∧
      (d.order (pair side r i.order).2).isOpen = true) ∧
    Settles d (pair side r i.order).1 (pair side r i.order).2 (some side)
      (Inv (some r) (d.dealtWith side r i.order d.book.ledger).office)
      (Broken (d.dealtWith side r i.order d.book.ledger).office) := by
  have hrests := hd.resting side.opposite i hi
  obtain ⟨⟨hka, hsa, hoa, hta⟩, ⟨hkb, hsb, hob, htb⟩⟩ := forall_pair side r i.order
    (P := fun s x => known x ∧ (d.order x).side = s ∧ (d.order x).isOpen = true ∧
      (d.order x).type ≠ .stopLoss)
    ⟨hr.known, hr.side, hopen, hr.type⟩
    ⟨hrests.known, hrests.side, hio, hrests.type ▸ hrests.active⟩
  refine ⟨⟨hoa, hob⟩, ?_⟩
  intro j
  have hsettle := up.settle (some side) _ _
    (d.dealPrice (pair side r i.order).1 (pair side r i.order).2) d.office
    d.book.ledger j hka hkb hsa hsb hoa hob hta htb
  rw [incomingOf_pair] at hsettle
  exact hsettle hI

/-- A round that finds nothing to match puts back what it set aside, and is the last. -/
theorem ends_unmatched {α : Type} (answer : α) {t : Logged (Desk Simulated)} (j : Array Event)
    {Q : α → Logged (Desk Simulated) → Prop} {E : Failure → Logged (Desk Simulated) → Prop}
    (hsearch : Searched side.opposite (some user) d t.state dropped aside)
    (hd' : Sound known t.state)
    (haside : ∀ k ∈ aside, Rests known t.state.office.orders side.opposite k)
    (hI : Inv (some r) t.state.office t.state.book.ledger)
    (hnone : (∀ i ∈ (d.book.queue side.opposite).bag,
        ¬ Eligible (some user) (d.order i.order)) ∨
      ∃ i, Best side.opposite (some user) d i ∧ Crosses side r d i.order = false)
    (hunmatched : ∀ t, Unmatched side user r d t.state → Sound known t.state →
      Inv (some r) t.state.office t.state.book.ledger → Q answer t) :
    Ends (restore side.opposite aside >>= fun _ => pure answer) ⟨t.state, j⟩ Q E := by
  rw [ends_bind, ends_restore]
  refine hunmatched _ (unmatched_of_search hsearch hnone) (hd'.withItems haside) ?_
  rw [office_withItems, ledger_withItems]
  exact hI

/-- A round that settled a pair ends with the stop-losses that the trade reaches. -/
theorem ends_triggerMatched {α : Type} (up : Upkeep known Inv Broken) (hd : Sound known d)
    (hsearch : Searched side.opposite (some user) d d' dropped aside) (hne : r ≠ i.order)
    (hi : (d'.book.queue side.opposite).headItem? = some i)
    (he : Eligible (some user) (d'.order i.order)) (hc : Crosses side r d' i.order = true)
    {l : Ledger} {j : Array Event} (hI : Inv (some r) (d'.dealtWith side r i.order l).office l)
    {next : Bool → Action (Desk Simulated) α} {Q : α → Logged (Desk Simulated) → Prop}
    {E : Failure → Logged (Desk Simulated) → Prop}
    (hnext : ∀ e fired t, Matched side user r i d e → Sound known e →
      Triggered known (d.deal? (pair side r i.order).1 (pair side r i.order).2) e fired t.state →
      Inv (some r) t.state.office t.state.book.ledger → Ends (next fired) t Q E) :
    Ends (triggerAfter Simulated.settlement
        (d'.deal? (pair side r i.order).1 (pair side r i.order).2) >>= next)
      ⟨d'.afterMatch side r i.order aside l, j⟩ Q E := by
  have hmatch := matched_of_search hsearch hd hne hi he hc l
  have hsound := sound_afterMatch hsearch hd hne hi l
  rw [ends_bind, hsearch.deal?]
  refine (ends_triggerAfter (up.fires (some r)) hsound ?_).mono
    (fun fired t ht => hnext _ fired t hmatch hsound ht.1 ht.2) fun _ _ hf => hf.elim
  rw [office_afterMatch, ledger_afterMatch]
  exact hI

/-- One round of matching an incoming order, by the ways in which it can end. -/
theorem ends_matchRound (up : Upkeep known Inv Broken) (hd : Sound known s.state)
    (hr : Incoming known side user r s.state)
    (hI : Inv (some r) s.state.office s.state.book.ledger)
    {Q : RoundResult → Logged (Desk Simulated) → Prop}
    {E : Failure → Logged (Desk Simulated) → Prop}
    (hfinished : (s.state.order r).isOpen = false → Q ⟨false, false⟩ s)
    (hunmatched : ∀ t, Unmatched side user r s.state t.state → Sound known t.state →
      Inv (some r) t.state.office t.state.book.ledger → Q ⟨false, false⟩ t)
    (hmatched : ∀ i d fired t, (s.state.order r).isOpen = true →
      Matched side user r i s.state d → Sound known d →
      Triggered known (s.state.deal? (pair side r i.order).1 (pair side r i.order).2) d fired
        t.state →
      Inv (some r) t.state.office t.state.book.ledger → Q ⟨fired, true⟩ t)
    (hbroken : ∀ f t, BrokenOff known Broken s.state f t.state → Thinned s.state t.state →
      t.state.trades = s.state.trades ∨ DealsBest side user r s.state t.state → E f t) :
    Ends (matchRound Simulated.settlement side user r) s Q E := by
  simp only [matchRound, ends_bind, ends_current]
  split
  · next hopen => exact hfinished (by simpa using hopen)
  next hopen =>
  have hopen : (s.state.order r).isOpen = true := by simpa using hopen
  simp only [ends_bind]
  refine Ends.mono (ends_findTop (up.drops hd (some r) side.opposite) hI) ?_ ?_
  · rintro ⟨top, aside⟩ t ⟨dropped, hsearch, hheads, hI'⟩
    obtain ⟨hd', haside⟩ := hsearch.sound hd
    rw [← hsearch.office] at hI'
    cases top with
    | none =>
      exact ends_unmatched _ t.journal hsearch hd' haside hI'
        (.inl fun i hi => hsearch.not_eligible hheads hi) hunmatched
    | some resting =>
      obtain ⟨i, hi, rfl, he⟩ := hheads
      have hbest := hsearch.best hd hi he
      have hcross : Crosses side r t.state i.order = Crosses side r s.state i.order := by
        unfold Crosses
        rw [hsearch.order, hsearch.order]
      simp only [ends_bind, ends_current]
      split
      · next hc =>
        exact ends_unmatched _ t.journal hsearch hd' haside hI'
          (.inr ⟨i, hbest, hcross ▸ by simpa [Crosses] using hc⟩) hunmatched
      · next hc =>
        have hc : Crosses side r t.state i.order = true := by simpa [Crosses] using hc
        have hne := hr.ne hd hbest.mem
        have hpairne := pair_ne side hne
        obtain ⟨⟨hoa, hob⟩, hsettle⟩ := settles_of_incoming up hd' (hr.onward hsearch.onward)
          ((hsearch.order r).symm ▸ hopen) (Queue.mem_bag_of_headItem? hi) he.1 hI'
        rw [ends_bind]
        refine (ends_makeTrade hpairne hoa hob hsettle).mono ?_ ?_
        · rintro _ ⟨u, j⟩ ⟨rfl, l, hl, rfl⟩
          simp only [isDone_dealStep side r i.order t.state l]
          have hhead : ((t.state.dealtWith side r i.order l).book.queue side.opposite).headItem? =
              some i := (queue_dealtWith ..).symm ▸ hi
          refine (ends_popClosed hhead _ j Q E).2 ?_
          rw [ends_bind, ends_restore]
          exact ends_triggerMatched up hd hsearch hne hi he hc hl
            fun d fired t => hmatched i d fired t hopen
        · rintro f ⟨u, j⟩ ⟨hf, hB, p, l, rfl⟩
          refine hbroken f _ ⟨hf, hsearch.onward.trans (onward_of_dealt hpairne),
            hd'.of_dealt hpairne, hB⟩ (hsearch.thinned.trans thinned_of_dealt)
            (.inr ⟨i, hbest, hcross ▸ hc, ?_⟩)
          exact (deals_of_office rfl).of_search hsearch
  · rintro f t ⟨hf, hB, dropped, new, hsearch⟩
    exact hbroken f t ⟨hf, hsearch.onward, (hsearch.sound hd).1, hsearch.office ▸ hB⟩
      hsearch.thinned (.inl hsearch.trades)

/-- Matching an incoming order is a sequence of rounds, within a limit of two more than the orders
in the queues. -/
theorem ends_matchIncoming (up : Upkeep known Inv Broken) (limit : Nat) {activated : Bool}
    (hd : Sound known s.state) (hr : Incoming known side user r s.state)
    (hI : Inv (some r) s.state.office s.state.book.ledger)
    (hlimit : (if (s.state.order r).isOpen then s.state.book.itemCount + 2 else 1) ≤ limit) :
    Ends (matchIncoming Simulated.settlement side user r limit activated) s
      (fun answer t => ∃ fired, answer = (activated || fired) ∧
        MatchRun known side user r s.state fired t.state ∧
        Inv (some r) t.state.office t.state.book.ledger)
      (fun f t => BrokenOff known Broken s.state f t.state) := by
  induction limit generalizing s activated with
  | zero =>
    split at hlimit <;> omega
  | succ limit ih =>
    rw [matchIncoming_succ, ends_bind]
    refine ends_matchRound up hd hr hI ?_ ?_ ?_ fun _ _ hf _ _ => hf
    · intro hopen
      exact ⟨false, rfl, .finished hopen, hI⟩
    · intro t hround hsound hI'
      exact ⟨false, rfl, .unmatched hround hsound, hI'⟩
    · intro i d fired t hopen hround hsound htriggered hI'
      have hon : Onward s.state t.state := hround.onward.trans htriggered.onward
      rw [if_pos hopen] at hlimit
      have hcount := hround.itemCount
      have hcount' := htriggered.itemCount
      refine (ih htriggered.sound (hr.onward hon) hI' ?_).mono ?_ fun f u hf => hf.after hon
      · split
        · next hopen' =>
          have hclosed := hround.closed_of_isOpen hr hd
            ((htriggered.onward.orders r).isOpen hopen')
          rw [if_pos hclosed] at hcount
          omega
        · omega
      · rintro _ u ⟨fired', rfl, hrun, hI''⟩
        exact ⟨fired || fired', Bool.or_assoc .., .matched hopen hround hsound htriggered hrun,
          hI''⟩

end Round

end Bourse.Desk
