import Bourse.Proofs.Book.Rounds
import Bourse.Proofs.Book.Upkeep

/-!
# Matching resting orders with each other

A round of `reconcileSteps` takes the best open ask and the best open bid of another user
(`Desk.BestPair`). It stops when there is no such pair or when the pair does not cross, so what
crosses then is said by `Desk.Settled`: only bids of the one user who owns the best open ask can
cross an ask of somebody else, because the round never looks past that ask.
-/

namespace Bourse

/-- If an ask and a bid cross then so do the best of either side. -/
theorem crosses_of_isLE {a a' b b' : Item} {oa oa' ob ob' : Order}
    (ha : oa.type = a.type ∧ oa.price = a.price) (ha' : oa'.type = a'.type ∧ oa'.price = a'.price)
    (hb : ob.type = b.type ∧ ob.price = b.price) (hb' : ob'.type = b'.type ∧ ob'.price = b'.price)
    (hask : (rank (.ofResting .ask) a a').isLE) (hbid : (rank (.ofResting .bid) b b').isLE)
    (h : crosses oa ob = true) : crosses oa' ob' = true := by
  have hmarket : ∀ {o : Order} {i : Item}, o.type = i.type → o.isMarket = i.isMarket :=
    fun ho => congrArg OrderType.isMarket ho
  unfold crosses at *
  rw [hmarket ha.1, hmarket hb.1, ha.2, hb.2] at h
  rw [hmarket ha'.1, hmarket hb'.1, ha'.2, hb'.2]
  by_contra hn
  simp only [Bool.or_eq_true, decide_eq_true_eq, not_or, Bool.not_eq_true] at hn
  obtain ⟨⟨hna, hnb⟩, hnp⟩ := hn
  have hma : a.isMarket = false := by
    by_contra hm
    rw [isMarket_of_isLE hask (by simpa using hm)] at hna
    cases hna
  have hmb : b.isMarket = false := by
    by_contra hm
    rw [isMarket_of_isLE hbid (by simpa using hm)] at hnb
    cases hnb
  rw [hma, hmb, Bool.false_or, Bool.false_or, decide_eq_true_eq, Price.le_def] at h
  have hle := worth_le_of_isLE hask hma hna
  have hle' := worth_le_of_isLE hbid hmb hnb
  rw [Price.le_def] at hnp
  simp only [PriceDirection.ofResting, PriceDirection.worth] at hle hle'
  omega

namespace Desk

open Bourse.Action

variable {s : Logged (Desk Simulated)} {d d' d'' : Desk Simulated} {ask bid : OrderRef}
  {known : OrderRef → Prop} {i j : Item}

/-- An open ask and an open bid of different users that cross. -/
structure CrossingPair (d : Desk Simulated) (a b : Item) : Prop where
  ask : a ∈ (d.book.queue .ask).bag
  bid : b ∈ (d.book.queue .bid).bag
  askOpen : (d.order a.order).isOpen = true
  bidOpen : (d.order b.order).isOpen = true
  users : (d.order a.order).user ≠ (d.order b.order).user
  crosses : crosses (d.order a.order) (d.order b.order) = true

/-- The best open ask, and the best open bid of another user. -/
structure BestPair (d : Desk Simulated) (a b : Item) : Prop where
  ask : Best .ask none d a
  bid : Best .bid (some (d.order a.order).user) d b

/-- A best pair that crosses is a crossing pair. -/
theorem BestPair.crossingPair (h : BestPair d i j)
    (hc : Bourse.crosses (d.order i.order) (d.order j.order) = true) : CrossingPair d i j where
  ask := h.ask.mem
  bid := h.bid.mem
  askOpen := h.ask.eligible.1
  bidOpen := h.bid.eligible.1
  users := fun heq => h.bid.eligible.2 (congrArg some heq)
  crosses := hc

/-- A round made the deal of the best pair, which crossed. -/
def DealsPair (d d' : Desk Simulated) : Prop :=
  ∃ a b, BestPair d a b ∧ CrossingPair d a b ∧ d.Deals a.order b.order d'

/-- Only bids of the user who owns the best ask still cross an ask of another user. -/
def Settled (d : Desk Simulated) : Prop :=
  ∀ a b, CrossingPair d a b → ∃ r, d.book.best? .ask = some r ∧ (d.order r).isOpen = true ∧
    (d.order b.order).user = (d.order r).user

/-- The desk after a resting pair was settled: the orders of it that are closed are taken out, and
the bids set aside are put back. -/
def afterPair (d : Desk Simulated) (ask bid : OrderRef) (aside : List Item) (l : Ledger) :
    Desk Simulated :=
  (((d.dealt ask bid l).popClosed .ask ask).popClosed .bid bid).withItems .bid aside

/-- A first order that is finished is taken out, and none comes in. -/
theorem mem_of_mem_popClosed {side : Side} {k : Item} (hk : (d.book.queue side).headItem? = some k)
    {s : Side} (hi : i ∈ ((d.popClosed side k.order).book.queue s).bag) :
    i ∈ (d.book.queue s).bag := by
  by_cases hs : side = s
  · subst hs
    obtain ⟨gone, hbag, -⟩ := bag_popClosed hk
    exact hbag ▸ Multiset.mem_add.2 (.inr hi)
  · rwa [queue_popClosed_of_ne _ _ _ hs] at hi

/-- The first bid is still the first when the ask of the pair was taken out. -/
theorem headItem?_popClosed (hj : (d.book.queue .bid).headItem? = some j) (ask bid : OrderRef)
    (l : Ledger) :
    (((d.dealt ask bid l).popClosed .ask ask).book.queue .bid).headItem? = some j := by
  rw [queue_popClosed_of_ne _ _ _ (by decide), queue_dealt]
  exact hj

section

variable {d : Desk Simulated} {aside : List Item} {l : Ledger}
  (hi : (d.book.queue .ask).headItem? = some i) (hj : (d.book.queue .bid).headItem? = some j)
  (hne : i.order ≠ j.order)

include hi hj hne

/-- Queues stay sound after a round of reconciling. -/
theorem sound_afterPair (hd : Sound known d)
    (haside : ∀ k ∈ aside, Rests known d.office.orders .bid k) (l : Ledger) :
    Sound known (d.afterPair i.order j.order aside l) := by
  have hask := (hd.dealt hne (l := l)).popClosed (i := i) ((queue_dealt ..).symm ▸ hi)
  refine (hask.popClosed (headItem?_popClosed hj i.order j.order l)).withItems fun k hk => ?_
  rw [office_popClosed, office_popClosed]
  exact (haside k hk).follow (onward_dealt hne).orders

omit hne in
/-- What is queued in the end was queued or set aside before. -/
theorem mem_of_mem_afterPair {s : Side} {k : Item}
    (hk : k ∈ ((d.afterPair i.order j.order aside l).book.queue s).bag) :
    k ∈ (d.book.queue s).bag ∨ s = .bid ∧ k ∈ aside := by
  have hi' : ((d.dealt i.order j.order l).book.queue .ask).headItem? = some i :=
    (queue_dealt ..).symm ▸ hi
  have hback : ∀ {k : Item}, k ∈ ((((d.dealt i.order j.order l).popClosed .ask i.order).popClosed
      .bid j.order).book.queue s).bag → k ∈ (d.book.queue s).bag := by
    intro k hk
    have hk := mem_of_mem_popClosed hi' (mem_of_mem_popClosed (headItem?_popClosed hj _ _ l) hk)
    rwa [queue_dealt] at hk
  unfold afterPair at hk
  by_cases hs : s = .bid
  · subst hs
    rw [bag_withItems, Multiset.mem_add, Multiset.mem_coe] at hk
    exact hk.symm.imp hback fun hk => ⟨rfl, hk⟩
  · rw [queue_withItems, if_neg (Ne.symm hs)] at hk
    exact .inl (hback hk)

/-- A round takes at least one order off the queues. -/
theorem itemCount_afterPair (ha : (d.order i.order).isOpen = true)
    (hb : (d.order j.order).isOpen = true) (aside : List Item) (l : Ledger) :
    (d.afterPair i.order j.order aside l).book.itemCount < d.book.itemCount + aside.length := by
  have hi' : ((d.dealt i.order j.order l).book.queue .ask).headItem? = some i :=
    (queue_dealt ..).symm ▸ hi
  have hask := itemCount_popClosed hi'
  have hbid := itemCount_popClosed (headItem?_popClosed hj i.order j.order l)
  rw [itemCount_dealt] at hask
  rw [order_popClosed] at hbid
  rw [afterPair, itemCount_withItems]
  have hclosed : ((d.dealt i.order j.order l).order i.order).closed = true ∨
      ((d.dealt i.order j.order l).order j.order).closed = true := Office.closed_dealt hne ha hb
  rcases hclosed with hc | hc
  · rw [if_pos hc] at hask
    omega
  · rw [if_pos hc] at hbid
    omega

omit hne in
/-- Taking the finished orders of a pair out, and going on. -/
theorem ends_popPair {α : Type} {next : Action (Desk Simulated) α} {k : Array Event}
    {Q : α → Logged (Desk Simulated) → Prop} {E : Failure → Logged (Desk Simulated) → Prop} :
    Ends (if (d.dealStep i.order j.order).askDone = true then
        popResting .ask i.order >>= fun _ =>
          if (d.dealStep i.order j.order).bidDone = true then
            popResting .bid j.order >>= fun _ => next
          else next
      else if (d.dealStep i.order j.order).bidDone = true then
        popResting .bid j.order >>= fun _ => next
      else next) ⟨d.dealt i.order j.order l, k⟩ Q E ↔
    Ends next ⟨((d.dealt i.order j.order l).popClosed .ask i.order).popClosed .bid j.order, k⟩
      Q E := by
  have hi' : ((d.dealt i.order j.order l).book.queue .ask).headItem? = some i :=
    (queue_dealt ..).symm ▸ hi
  have hbid := ends_popClosed (headItem?_popClosed hj i.order j.order l) next k Q E
  rw [order_popClosed] at hbid
  exact (ends_popClosed hi' (if (d.dealStep i.order j.order).bidDone = true then
    popResting .bid j.order >>= fun _ => next else next) k Q E).trans hbid

end

/-- A round of reconciling leads onward. -/
theorem onward_afterPair (hne : ask ≠ bid) {aside : List Item} {l : Ledger} :
    Onward d (d.afterPair ask bid aside l) :=
  (((onward_dealt hne).trans (onward_popClosed ..)).trans (onward_popClosed ..)).trans
    (onward_withItems ..)

section Search

variable {dropped dropped' : Multiset Item} {aside aside' : List Item}

variable (hasks : Searched .ask none d d' dropped [])
  (hi : (d'.book.queue .ask).headItem? = some i) (he : Eligible none (d'.order i.order))
  (hbids : Searched .bid (some (d'.order i.order).user) d' d'' dropped' aside')

include hasks hi he hbids

/-- A search for bids that ends without a crossing one leaves a settled book. -/
theorem settled_of_search (hd : Sound known d)
    (hnone : ∀ j, (d''.book.queue .bid).headItem? = some j →
      crosses (d''.order i.order) (d''.order j.order) = false) :
    Settled (d''.withItems .bid aside') := by
  obtain ⟨hd', -⟩ := hasks.sound hd
  obtain ⟨hd'', haside⟩ := hbids.sound hd'
  have hqueue : (d''.withItems .bid aside').book.queue .ask = d'.book.queue .ask := by
    rw [queue_withItems, if_neg (by decide), hbids.queue_of_ne (by decide)]
  have horder : (d''.withItems .bid aside').order = d'.order := funext hbids.order
  intro a b hp
  have hpu := hp.users
  have hpc := hp.crosses
  have hpb := hp.bid
  have hpa := hp.ask
  rw [hqueue] at hpa
  rw [horder] at hpu hpc ⊢
  refine ⟨i.order, ?_, he.1, ?_⟩
  · rw [Book.best?, hqueue, Queue.head?, hi, Option.map_some]
  by_contra hne
  -- a bid of somebody else is still in the queue, so the best of these does not cross the best ask
  rw [bag_withItems, Multiset.mem_add, Multiset.mem_coe] at hpb
  have hb : b ∈ (d''.book.queue .bid).bag := by
    refine hpb.resolve_left fun hb => hne ?_
    exact (Option.some.inj (hbids.aside b hb).2).symm
  cases hj : (d''.book.queue .bid).headItem? with
  | none => exact absurd (Queue.headItem?_eq_none.1 hj ▸ hb) (Multiset.notMem_zero _)
  | some j =>
    have hra := hd'.resting .ask a hpa
    have hri := hd'.resting .ask i (Queue.mem_bag_of_headItem? hi)
    have hrb := hd''.resting .bid b hb
    have hrj := hd''.resting .bid j (Queue.mem_bag_of_headItem? hj)
    rw [← hbids.order a.order, ← hbids.order b.order] at hpc
    have hcross := crosses_of_isLE
      ⟨(congrArg Order.type (hbids.order _)).trans hra.type,
        (congrArg Order.price (hbids.order _)).trans hra.price⟩
      ⟨(congrArg Order.type (hbids.order _)).trans hri.type,
        (congrArg Order.price (hbids.order _)).trans hri.price⟩
      ⟨hrb.type, hrb.price⟩ ⟨hrj.type, hrj.price⟩ ((hd'.ordered .ask).isLE_head hi hpa)
      ((hd''.ordered .bid).isLE_head hj hb) hpc
    exact Bool.false_ne_true ((hnone j hj).symm.trans hcross)

/-- What the two searches found is the best pair. -/
theorem bestPair_of_search (hd : Sound known d) (hj : (d''.book.queue .bid).headItem? = some j)
    (hej : Eligible (some (d'.order i.order).user) (d''.order j.order)) : BestPair d i j where
  ask := hasks.best hd hi he
  bid := by
    have hbest := hbids.best (hasks.sound hd).1 hj hej
    have hqueue : d'.book.queue .bid = d.book.queue .bid := hasks.queue_of_ne (by decide)
    rw [hasks.order] at hbest
    exact ⟨hqueue ▸ hbest.mem, hasks.order j.order ▸ hbest.eligible,
      fun k hk hek => hbest.isLE k (hqueue ▸ hk) ((hasks.order k.order).symm ▸ hek)⟩

omit hi he in
/-- A round takes in what the trade activates: the searches before took in nothing. -/
theorem takesIn_of_afterPair {l : Ledger} (hi : (d''.book.queue .ask).headItem? = some i)
    (hj : (d''.book.queue .bid).headItem? = some j) {e : Desk Simulated}
    (h : TakesIn (d''.afterPair i.order j.order aside' l) e) : TakesIn d e := by
  have hthinned : Thinned d d'' := hasks.thinned.trans hbids.thinned
  refine h.after (fun s k hk => ?_) fun s k hk => ?_
  · rcases mem_of_mem_afterPair hi hj hk with hqueued | ⟨rfl, haside⟩
    · exact Multiset.mem_of_le (hthinned.queue s) hqueued
    · exact Multiset.mem_of_le (hasks.thinned.queue .bid) (hbids.mem_bag.2 (.inr (.inl haside)))
  · rw [afterPair, stopLossQueue_withItems, stopLossQueue_popClosed, stopLossQueue_popClosed,
      stopLossQueue_dealt] at hk
    exact Multiset.mem_of_le (hthinned.dormant s) hk

end Search

section Round

variable {Inv : Option OrderRef → Office Simulated → Ledger → Prop}
  {Broken : Office Simulated → Prop} {aside : List Item}

/-- Open orders of both queues can be settled with each other. -/
theorem settles_of_resting (up : Upkeep known Inv Broken) (hd : Sound known d)
    (hi : i ∈ (d.book.queue .ask).bag) (hj : j ∈ (d.book.queue .bid).bag)
    (hio : (d.order i.order).isOpen = true) (hjo : (d.order j.order).isOpen = true)
    (hI : Inv none d.office d.book.ledger) :
    i.order ≠ j.order ∧ Settles d i.order j.order none
      (Inv none (d.dealt i.order j.order d.book.ledger).office)
      (Broken (d.dealt i.order j.order d.book.ledger).office) := by
  have hri := hd.resting .ask i hi
  have hrj := hd.resting .bid j hj
  refine ⟨Orders.ne_of_side hri.side hrj.side, ?_⟩
  intro k
  exact up.settle none _ _ (d.dealPrice i.order j.order) d.office d.book.ledger k
    hri.known hrj.known
    hri.side hrj.side hio hjo (hri.type ▸ hri.active) (hrj.type ▸ hrj.active) hI

/-- A round that finds no pair that crosses puts back the bids that it set aside, and is the
last. -/
theorem ends_settled {α : Type} {dropped dropped' : Multiset Item} (answer : α) (k : Array Event)
    (hd : Sound known d) (hasks : Searched .ask none d d' dropped [])
    (hi : (d'.book.queue .ask).headItem? = some i) (he : Eligible none (d'.order i.order))
    (hbids : Searched .bid (some (d'.order i.order).user) d' d'' dropped' aside)
    (hI : Inv none d''.office d''.book.ledger)
    (hnone : ∀ j, (d''.book.queue .bid).headItem? = some j →
      crosses (d''.order i.order) (d''.order j.order) = false)
    {Q : α → Logged (Desk Simulated) → Prop} {E : Failure → Logged (Desk Simulated) → Prop}
    (hsettled : ∀ t, Onward d t.state → Sound known t.state →
      Inv none t.state.office t.state.book.ledger → t.state.trades = d.trades →
      Thinned d t.state → Settled t.state → Q answer t) :
    Ends (restore .bid aside >>= fun _ => pure answer) ⟨d'', k⟩ Q E := by
  obtain ⟨hd'', haside⟩ := hbids.sound (hasks.sound hd).1
  have hon : Onward d d'' := hasks.onward.trans hbids.onward
  have hrestored : Thinned d' (d''.withItems .bid aside) := hbids.sheds.thinned
    (fun s => (stopLossQueue_withItems ..).trans (hbids.stopLossQueue s)) hbids.thinned.activated
  rw [ends_bind, ends_restore]
  refine hsettled _ (hon.trans (onward_withItems ..)) (hd''.withItems haside) ?_
    (hbids.trades.trans hasks.trades) (hasks.thinned.trans hrestored)
    (settled_of_search hasks hi he hbids hd hnone)
  rw [office_withItems, ledger_withItems]
  exact hI

/-- A round that settled a pair goes on with the stop-losses that the trade reaches, and with fewer
orders in the queues. -/
theorem ends_triggerSettled {α : Type} (up : Upkeep known Inv Broken) (hd : Sound known d)
    (haside : ∀ k ∈ aside, Rests known d.office.orders .bid k)
    (hi : (d.book.queue .ask).headItem? = some i) (hj : (d.book.queue .bid).headItem? = some j)
    (hne : i.order ≠ j.order) (hio : (d.order i.order).isOpen = true)
    (hjo : (d.order j.order).isOpen = true) {l : Ledger} {k : Array Event}
    (hI : Inv none (d.dealt i.order j.order l).office l)
    {next : Bool → Action (Desk Simulated) α} {Q : α → Logged (Desk Simulated) → Prop}
    {E : Failure → Logged (Desk Simulated) → Prop}
    (hnext : ∀ fired t, Onward d t.state → Sound known t.state → d.Deals i.order j.order t.state →
      t.state.book.itemCount < d.book.itemCount + aside.length →
      Inv none t.state.office t.state.book.ledger →
      TakesIn (d.afterPair i.order j.order aside l) t.state → Ends (next fired) t Q E) :
    Ends (triggerAfter Simulated.settlement (d.deal? i.order j.order) >>= next)
      ⟨d.afterPair i.order j.order aside l, k⟩ Q E := by
  have hfewer := itemCount_afterPair hi hj hne hio hjo aside l
  rw [ends_bind]
  refine (ends_triggerAfter (up.fires none) (sound_afterPair hi hj hne hd haside l) ?_).mono
    ?_ fun _ _ hf => hf.elim
  · rw [afterPair, office_withItems, ledger_withItems, office_popClosed, office_popClosed,
      ledger_popClosed, ledger_popClosed]
    exact hI
  · intro fired t ht
    obtain ⟨htriggered, hI'⟩ := ht
    have hcount := htriggered.itemCount
    have hdeals : d.Deals i.order j.order (d.afterPair i.order j.order aside l) :=
      deals_of_office
        (by rw [afterPair, office_withItems, office_popClosed, office_popClosed]; rfl)
    exact hnext fired t ((onward_afterPair hne).trans htriggered.onward) htriggered.sound
      (htriggered.trades.trans hdeals) (hcount.trans_lt hfewer) hI' htriggered.takesIn

/-- One round of matching resting orders with each other: either it leaves the book settled, or it
settles the best pair and leaves fewer orders in the queues. -/
theorem ends_reconcileRound (up : Upkeep known Inv Broken) (hd : Sound known s.state)
    (hI : Inv none s.state.office s.state.book.ledger)
    {Q : RoundResult → Logged (Desk Simulated) → Prop}
    {E : Failure → Logged (Desk Simulated) → Prop}
    (hsettled : ∀ t, Onward s.state t.state → Sound known t.state →
      Inv none t.state.office t.state.book.ledger → t.state.trades = s.state.trades →
      Thinned s.state t.state → Settled t.state → Q ⟨false, false⟩ t)
    (hmatched : ∀ fired t, Onward s.state t.state → Sound known t.state →
      t.state.book.itemCount < s.state.book.itemCount →
      Inv none t.state.office t.state.book.ledger → DealsPair s.state t.state →
      TakesIn s.state t.state → Q ⟨fired, true⟩ t)
    (hbroken : ∀ f t, BrokenOff known Broken s.state f t.state → Thinned s.state t.state →
      t.state.trades = s.state.trades ∨ DealsPair s.state t.state → E f t) :
    Ends (reconcileRound Simulated.settlement) s Q E := by
  simp only [reconcileRound, ends_bind]
  refine Ends.mono (ends_findTop (up.drops hd none .ask) hI) ?_ ?_
  · rintro ⟨top, aside⟩ t ⟨dropped, hasks, htop, hI'⟩
    obtain rfl : aside = [] := hasks.aside_eq_nil
    obtain ⟨hd', -⟩ := hasks.sound hd
    rw [← hasks.office] at hI'
    cases top with
    | none =>
      refine hsettled t hasks.onward hd' hI' hasks.trades hasks.thinned ?_
      intro a b hp
      exact absurd (htop ▸ hp.ask) (Multiset.notMem_zero _)
    | some ask =>
      obtain ⟨i, hi, rfl, hei⟩ := htop
      simp only [ends_bind, ends_current]
      refine Ends.mono (ends_findTop (up.drops hd' none .bid) hI') ?_ ?_
      · rintro ⟨top, aside⟩ u ⟨dropped', hbids, htop, hI''⟩
        obtain ⟨hd'', haside⟩ := hbids.sound hd'
        have hon : Onward s.state u.state := hasks.onward.trans hbids.onward
        rw [← hbids.office] at hI''
        cases top with
        | none =>
          refine ends_settled _ u.journal hd hasks hi hei hbids hI'' ?_ hsettled
          intro k hk
          exact absurd (htop ▸ Queue.mem_bag_of_headItem? hk) (Multiset.notMem_zero _)
        | some bid =>
          obtain ⟨j, hj, rfl, hej⟩ := htop
          simp only [ends_bind, ends_current]
          split
          · next hc =>
            refine ends_settled _ u.journal hd hasks hi hei hbids hI'' ?_ hsettled
            intro k hk
            cases hj.symm.trans hk
            simpa using hc
          · next hc =>
            have hqueue : u.state.book.queue .ask = t.state.book.queue .ask :=
              hbids.queue_of_ne (by decide)
            have hi' : (u.state.book.queue .ask).headItem? = some i := hqueue ▸ hi
            have hio : (u.state.order i.order).isOpen = true := hbids.order i.order ▸ hei.1
            obtain ⟨hne, hsettle⟩ := settles_of_resting up hd'' (Queue.mem_bag_of_headItem? hi')
              (Queue.mem_bag_of_headItem? hj) hio hej.1 hI''
            have hbest := bestPair_of_search hasks hi hei hbids hd hj hej
            have hcross : Bourse.crosses (s.state.order i.order)
                (s.state.order j.order) = true := by
              rw [← hasks.order, ← hasks.order, ← hbids.order, ← hbids.order]
              simpa using hc
            have hthinned : Thinned s.state u.state := hasks.thinned.trans hbids.thinned
            have hdeals : ∀ {v}, u.state.Deals i.order j.order v → DealsPair s.state v :=
              fun h => ⟨i, j, hbest, hbest.crossingPair hcross,
                (h.of_search hbids).of_search hasks⟩
            have hcount := hasks.itemCount
            have hcount' := hbids.itemCount
            rw [List.length_nil] at hcount
            rw [ends_bind]
            refine (ends_makeTrade hne hio hej.1 hsettle).mono ?_ ?_
            · rintro _ ⟨v, k⟩ ⟨rfl, l, hl, rfl⟩
              refine (ends_popPair hi' hj).2 ?_
              rw [ends_bind, ends_restore]
              refine ends_triggerSettled up hd'' haside hi' hj hne hio hej.1 hl
                fun fired v hon' hsound hdeal hfewer hv htakes =>
                  hmatched fired v (hon.trans hon') hsound ?_ hv (hdeals hdeal)
                    (takesIn_of_afterPair hasks hbids hi' hj htakes)
              omega
            · rintro f ⟨v, k⟩ ⟨hf, hB, p, l, rfl⟩
              exact hbroken f _ ⟨hf, hon.trans (onward_of_dealt hne), hd''.of_dealt hne, hB⟩
                (hthinned.trans thinned_of_dealt) (.inr (hdeals (deals_of_office rfl)))
      · rintro f u ⟨hf, hB, dropped', new, hbids⟩
        exact hbroken f u
          ⟨hf, hasks.onward.trans hbids.onward, (hbids.sound hd').1, hbids.office ▸ hB⟩
          (hasks.thinned.trans hbids.thinned) (.inl (hbids.trades.trans hasks.trades))
  · rintro f t ⟨hf, hB, dropped, new, hasks⟩
    exact hbroken f t ⟨hf, hasks.onward, (hasks.sound hd).1, hasks.office ▸ hB⟩ hasks.thinned
      (.inl hasks.trades)

/-- Resting orders are matched with each other until the book is settled, within a limit of one
more than the orders in the queues. -/
theorem ends_reconcileSteps (up : Upkeep known Inv Broken) (limit : Nat) (hd : Sound known s.state)
    (hI : Inv none s.state.office s.state.book.ledger) (hlimit : s.state.book.itemCount < limit) :
    Ends (reconcileSteps Simulated.settlement limit) s
      (fun _ t => Onward s.state t.state ∧ Sound known t.state ∧
        Inv none t.state.office t.state.book.ledger ∧ Settled t.state)
      (fun f t => BrokenOff known Broken s.state f t.state) := by
  induction limit generalizing s with
  | zero => omega
  | succ limit ih =>
    rw [reconcileSteps_succ, ends_bind]
    refine ends_reconcileRound up hd hI ?_ ?_ fun _ _ hf _ _ => hf
    · intro t hon hsound hI' _ _ hsettled
      exact ⟨hon, hsound, hI', hsettled⟩
    · intro fired t hon hsound hfewer hI' _ _
      refine (ih hsound hI' (by omega)).mono ?_ fun f u hf => hf.after hon
      rintro _ u ⟨hon', hrest⟩
      exact ⟨hon.trans hon', hrest⟩

end Round

end Desk

end Bourse
