import Bourse.Proofs.Book.Process
import Bourse.Proofs.Book.Room
import Bourse.Proofs.Queue.Served
import Bourse.Proofs.Session.Basic

/-!
# The plain sweep

An incoming order could be matched like this: list the open orders of other users on the other side
as their queue serves them, and go through the list while the incoming order is open and the next
one crosses it (`Sweep.through`); what is left of it rests. `Desk.swept` is what this leads to.

`process` looks for the best order anew after every fill, drops closed orders and sets the user's
own aside on the way. It comes to the same (`Desk.process_eq_swept`): after a round that leaves the
incoming order open the opponents are those of before without the first (`Desk.Matched.opponents`).
A trade that reaches a dormant stop-loss is all that can make a difference.
-/

namespace Bourse

/-- What a plain sweep changes: orders and trades, and the last price. -/
structure Sweep where
  office : Office Simulated
  lastPrice : Price

namespace Sweep

variable (w : Sweep) (ask bid r : OrderRef)

/-- An order as it is now. -/
def order : Order := w.office.orders.get r

/-- The price at which an ask and a bid would trade now. -/
def price : Price := tradePrice (w.order ask) (w.order bid) w.lastPrice

/-- An ask and a bid trade what both have left, or those of users that cannot settle are closed. -/
def deal : Sweep where
  office := w.office.dealt ask bid (w.price ask bid)
  lastPrice := ((w.office.deal? ask bid (w.price ask bid)).map (·.price)).getD w.lastPrice

/-- Goes through resting orders while the incoming one is open and crosses the next. -/
def through (side : Side) (r : OrderRef) : List OrderRef → Sweep → Sweep
  | [], w => w
  | resting :: rest, w =>
    let p := Desk.pair side r resting
    if (w.order r).isOpen && crosses (w.order p.1) (w.order p.2) then
      through side r rest (w.deal p.1 p.2)
    else w

/-- The item of an incoming order that rests on its side, if it is open. -/
def resting (side : Side) (s : Side) : List Item :=
  if s = side ∧ (w.order r).isOpen then [.ofOrder r (w.order r)] else []

variable {w r} {side : Side}

/-- Nothing but the order itself comes to rest, and on its own side. -/
theorem id_of_mem_resting {s : Side} {i : Item} (h : i ∈ w.resting r side s) :
    s = side ∧ i.id = (w.order r).id := by
  unfold resting at h
  split at h
  · next hs => exact ⟨hs.1, List.mem_singleton.1 h ▸ rfl⟩
  · exact absurd h List.not_mem_nil

/-- An order comes to rest once at most. -/
theorem nodup_resting (w : Sweep) (r : OrderRef) (side s : Side) :
    ((w.resting r side s).map (·.id)).Nodup := by
  unfold resting
  split <;> simp

/-- The sweep deals with the first opponent if the order is open and they cross. -/
theorem through_cons (resting : OrderRef) (rest : List OrderRef) :
    through side r (resting :: rest) w =
      if (w.order r).isOpen && crosses (w.order (Desk.pair side r resting).1)
        (w.order (Desk.pair side r resting).2)
      then through side r rest (w.deal (Desk.pair side r resting).1 (Desk.pair side r resting).2)
      else w := rfl

/-- An order that is not open sweeps through nothing. -/
theorem through_of_not_isOpen (h : (w.order r).isOpen = false) (rest : List OrderRef) :
    through side r rest w = w := by
  cases rest with
  | nil => rfl
  | cons resting rest => rw [through_cons, h, Bool.false_and, if_neg Bool.false_ne_true]

end Sweep

/-- What processing an order leads to: orders and trades, the last price, and the open orders of
either side as their queue serves them. -/
structure Aftermath where
  sweep : Sweep
  served : Side → List Item

namespace Desk

open Bourse.Action

variable {d d' d'' : Desk Simulated} {side : Side} {user : UserId} {r : OrderRef} {i j : Item}
  {known : OrderRef → Prop} {fired : Bool}

/-- The desk as far as a plain sweep changes it. -/
def front (d : Desk Simulated) : Sweep := ⟨d.office, d.book.lastPrice⟩

/-- The open orders of other users that an incoming order meets, as their queue serves them. -/
def opponents (d : Desk Simulated) (side : Side) (user : UserId) : List Item :=
  served (.ofResting side.opposite) <| (d.book.queue side.opposite).items.toList.filter fun i =>
    (d.order i.order).isOpen ∧ (d.order i.order).user ≠ user

/-- What a desk has come to. -/
def aftermath (d : Desk Simulated) : Aftermath where
  sweep := d.front
  served s := (d.book.queue s).drain.filter fun i => (d.order i.order).isOpen

/-- What a plain sweep of an incoming order leads to. -/
def swept (d : Desk Simulated) (r : OrderRef) : Aftermath :=
  let o := d.order r
  let w := d.front.through o.side r ((d.opponents o.side o.user).map (·.order))
  { sweep := w
    served := fun s =>
      (served (.ofResting s) ((d.book.queue s).items.toList ++ w.resting r o.side s)).filter
        fun i => (w.order i.order).isOpen }

/-- The numbers of the orders in a queue are different. -/
def Distinct (d : Desk Simulated) (s : Side) : Prop := ((d.book.queue s).bag.map (·.id)).Nodup

/-- Numbers stay distinct as a queue loses orders. -/
theorem Distinct.of_sheds {s : Side} (h : d.Distinct s) (hs : Sheds d d') : d'.Distinct s := by
  obtain ⟨gone, hbag, -⟩ := hs s
  unfold Distinct at *
  rw [hbag, Multiset.map_add] at h
  exact (Multiset.nodup_add.1 h).2.1

/-! ## Opponents -/

/-- Opponents are the open orders of the other side that are not of the user. -/
theorem mem_opponents : i ∈ d.opponents side user ↔
    i ∈ (d.book.queue side.opposite).bag ∧ Eligible (some user) (d.order i.order) := by
  unfold opponents Eligible
  rw [(served_perm ..).mem_iff, List.mem_filter, decide_eq_true_iff, ne_eq, ne_eq, Option.some_inj,
    eq_comm (a := user)]
  rfl

/-- No two opponents have one number. -/
theorem nodup_opponents (hids : d.Distinct side.opposite) (user : UserId) :
    ((d.opponents side user).map (·.id)).Nodup :=
  nodup_served ((Multiset.coe_nodup.1 hids).sublist (List.filter_sublist.map _))

/-- The best of the eligible orders is the first opponent. -/
theorem Best.opponents (h : Best side.opposite (some user) d i) (hids : d.Distinct side.opposite) :
    ∃ rest, d.opponents side user = i :: rest := by
  have hmem : i ∈ d.opponents side user := mem_opponents.2 ⟨h.mem, h.eligible⟩
  have hpair : (d.opponents side user).Pairwise fun a b =>
      (rank (.ofResting side.opposite) b a).isLE := pairwise_served ..
  have hnodup := nodup_opponents hids user
  cases hl : d.opponents side user with
  | nil => exact absurd (hl ▸ hmem) List.not_mem_nil
  | cons j rest =>
    rw [hl] at hmem hpair hnodup
    rcases List.mem_cons.1 hmem with rfl | hi
    · exact ⟨rest, rfl⟩
    · have hj : j ∈ d.opponents side user := hl ▸ List.mem_cons_self
      have hle := (List.pairwise_cons.1 hpair).1 i hi
      have hge := h.isLE j (mem_opponents.1 hj).1 (mem_opponents.1 hj).2
      by_contra
      refine rank_ne_eq ?_ (Std.OrientedCmp.isLE_antisymm hle hge)
      intro hid
      exact (List.nodup_cons.1 hnodup).1 (List.mem_map.2 ⟨i, hi, hid⟩)

/-! ## Rounds -/

/-- A round deals with the pair as a plain sweep does. -/
theorem Matched.front (h : Matched side user r i d d') :
    d'.front = d.front.deal (pair side r i.order).1 (pair side r i.order).2 := by
  unfold Desk.front
  rw [h.office, h.lastPrice]
  rfl

/-- Nothing is traded where no order is matched. -/
theorem Unmatched.front (h : Unmatched side user r d d') : d'.front = d.front := by
  unfold Desk.front
  rw [h.office, h.lastPrice]

/-- Stop-losses that leave the book trade nothing. -/
theorem Quiet.front (h : Quiet d d') : d'.front = d.front := by
  unfold Desk.front
  rw [h.office, h.lastPrice]

/-- Stop-losses that leave the book were nobody's opponents. -/
theorem Quiet.opponents (h : Quiet d d') (side : Side) (user : UserId) :
    d'.opponents side user = d.opponents side user := by
  unfold Desk.opponents Desk.order
  rw [h.office, h.queue]

/-- Where only stop-losses leave the queues lose nothing. -/
theorem Quiet.sheds (h : Quiet d d') : Sheds d d' := .of_queue h.queue

/-- A round touches no order but the two that are matched. -/
theorem Matched.order_of_ne (h : Matched side user r i d d') (hne : r ≠ i.order)
    {r' : OrderRef} (hr : r' ≠ r) (hi : r' ≠ i.order) : d'.order r' = d.order r' := by
  unfold Desk.order
  rw [h.office]
  refine Office.get_dealt_of_ne (pair_ne side hne) ?_ ?_ <;> cases side <;> assumption

/-- If the incoming order is open after a round then the next opponents are the others. -/
theorem Matched.opponents (h : Matched side user r i d d') (hr : Incoming known side user r d)
    (hd : Sound known d) (hids : d.Distinct side.opposite) (ho : (d'.order r).isOpen = true) :
    d.opponents side user = i :: d'.opponents side user := by
  have hclosed := h.closed_of_isOpen hr hd ho
  have hne := hr.ne hd h.best.mem
  have hids' : d'.Distinct side.opposite := hids.of_sheds h.sheds
  obtain ⟨rest, hrest⟩ := h.best.opponents hids
  have hnodup := nodup_opponents hids user
  have hpair : (d.opponents side user).Pairwise fun a b =>
      (rank (.ofResting side.opposite) b a).isLE := pairwise_served ..
  rw [hrest, List.map_cons, List.nodup_cons] at hnodup
  rw [hrest, List.pairwise_cons] at hpair
  rw [hrest]
  refine congrArg (i :: ·) (eq_of_served ?_ hnodup.2 hpair.2 (pairwise_served ..))
  refine (List.perm_ext_iff_of_nodup (hnodup.2.of_map _) ((nodup_opponents hids' user).of_map _)).2
    ?_
  intro j
  have hmem : j ∈ d.opponents side user ↔ j = i ∨ j ∈ rest := hrest ▸ List.mem_cons
  constructor
  · intro hj
    have hji : j.id ≠ i.id := fun hid => hnodup.1 (hid ▸ List.mem_map_of_mem hj)
    obtain ⟨hbag, he⟩ := mem_opponents.1 (hmem.2 (.inr hj))
    have hjr : j.order ≠ i.order := by
      intro heq
      have hrj := hd.resting _ j hbag
      have hri := hd.resting _ i h.best.mem
      exact hji (hrj.id.symm.trans (heq ▸ hri.id))
    have horder := h.order_of_ne hne (hr.ne hd hbag).symm hjr
    rw [← horder] at he
    exact mem_opponents.2 ⟨h.sheds.mem_bag hbag he.1, he⟩
  · intro hj
    obtain ⟨hbag, he⟩ := mem_opponents.1 hj
    have hf := h.onward.orders j.order
    have hold : j ∈ d.opponents side user :=
      mem_opponents.2 ⟨h.sheds.mem_bag_of hbag, hf.isOpen he.1, hf.user ▸ he.2⟩
    refine (hmem.1 hold).resolve_left ?_
    intro heq
    rw [heq] at he
    exact absurd (hclosed.symm.trans (Order.isOpen_iff.1 he.1).1) (by decide)

/-! ## Runs -/

/-- If no stop-loss fires then the queues lose nothing that is open. -/
theorem MatchRun.sheds (h : MatchRun known side user r d fired d') (hf : fired = false) :
    Sheds d d' := by
  induction h with
  | finished closed => exact .of_queue fun _ => rfl
  | unmatched round sound => exact round.sheds
  | matched isOpen round sound triggered rest ih =>
    rw [Bool.or_eq_false_iff] at hf
    have hquiet := triggered.quiet hf.1
    exact (round.sheds.trans hquiet.sheds triggered.onward).trans (ih hf.2) rest.onward

/-- If no stop-loss fires then matching is a plain sweep over the opponents. -/
theorem MatchRun.front (h : MatchRun known side user r d fired d') (hf : fired = false)
    (hr : Incoming known side user r d) (hd : Sound known d) (hids : d.Distinct side.opposite) :
    d'.front = d.front.through side r ((d.opponents side user).map (·.order)) := by
  induction h with
  | @finished d closed =>
    have closed : (d.front.order r).isOpen = false := closed
    exact (Sweep.through_of_not_isOpen closed _).symm
  | @unmatched d d' round sound =>
    rw [round.front]
    rcases round.none with hnone | ⟨i, hbest, hcross⟩
    · have hnil : d.opponents side user = [] := List.eq_nil_iff_forall_not_mem.2 fun i hi =>
        hnone i (mem_opponents.1 hi).1 (mem_opponents.1 hi).2
      rw [hnil]
      rfl
    · obtain ⟨rest, hrest⟩ := hbest.opponents hids
      have hcross : crosses (d.front.order (pair side r i.order).1)
          (d.front.order (pair side r i.order).2) = false := hcross
      rw [hrest, List.map_cons, Sweep.through_cons, hcross, Bool.and_false,
        if_neg Bool.false_ne_true]
  | @matched d d' d'' e i fired fired' isOpen round sound triggered rest ih =>
    rw [Bool.or_eq_false_iff] at hf
    have hquiet := triggered.quiet hf.1
    have hsheds := round.sheds.trans hquiet.sheds triggered.onward
    have hrest := ih hf.2 (hr.onward (round.onward.trans triggered.onward)) triggered.sound
      (hids.of_sheds hsheds)
    have hcross : crosses (d.front.order (pair side r i.order).1)
        (d.front.order (pair side r i.order).2) = true := round.crosses
    have hopen : (d.front.order r).isOpen = true := isOpen
    obtain ⟨tail, htail⟩ := round.best.opponents hids
    rw [htail, List.map_cons, Sweep.through_cons, hcross, hopen, Bool.and_self, if_pos rfl,
      ← round.front, hrest, hquiet.front, hquiet.opponents]
    -- the rest of the list counts only if the incoming order is still open
    by_cases ho : (d'.order r).isOpen = true
    · rw [round.opponents hr hd hids ho] at htail
      rw [(List.cons.inj htail).2]
    · have ho : (d'.front.order r).isOpen = false := Bool.eq_false_iff.2 ho
      rw [Sweep.through_of_not_isOpen ho, Sweep.through_of_not_isOpen ho]

/-! ## Stop-losses -/

/-- The trades that were made from one desk to the other. -/
def newTrades (d d' : Desk Simulated) : List Trade :=
  d'.office.backend.trades.toList.drop d.office.backend.trades.size

/-- The trades go on from those made before. -/
theorem Onward.trades_eq (h : Onward d d') : d'.office.backend.trades.toList =
    d.office.backend.trades.toList ++ d.newTrades d' :=
  (List.prefix_iff_eq_append.1 h.trades).symm

/-- New trades of two stretches follow each other. -/
theorem newTrades_trans (h : Onward d d') (h' : Onward d' d'') :
    d.newTrades d'' = d.newTrades d' ++ d'.newTrades d'' := by
  have heq := (h.trans h').trades_eq
  rw [h'.trades_eq, h.trades_eq, List.append_assoc] at heq
  exact (List.append_cancel_left heq).symm

/-- The new trade of a round is the deal of the pair, if it is one. -/
theorem Matched.newTrades (h : Matched side user r i d d') :
    d.newTrades d' = (d.deal? (pair side r i.order).1 (pair side r i.order).2).toList := by
  have heq := h.onward.trades_eq
  rw [h.office] at heq
  exact (List.append_cancel_left (Office.trades_dealt.symm.trans heq)).symm

/-- What a price reaches later it reached before, if no stop-loss was put aside meanwhile. -/
theorem ReachesDormant.of_later {p : Price} (h : d'.ReachesDormant p) (hon : Onward d d')
    (hsub : ∀ s, ∀ i ∈ (d'.book.stopLossQueue s).bag, i ∈ (d.book.stopLossQueue s).bag) :
    d.ReachesDormant p := by
  obtain ⟨s, i, hi, hc, hp⟩ := h
  refine ⟨s, i, hsub s i hi, ?_, (hon.orders i.order).isReachedBy p ▸ hp⟩
  cases hc' : (d.order i.order).closed with
  | false => rfl
  | true => exact ((hon.orders i.order).closed hc').symm.trans hc

/-- If no trade of a run reaches a stop-loss that waits and is not closed then none fires. -/
theorem MatchRun.not_fired (h : MatchRun known side user r d fired d')
    (hquiet : ∀ t ∈ d.newTrades d', ¬ d.ReachesDormant t.price) : fired = false := by
  induction h with
  | finished closed => rfl
  | unmatched round sound => rfl
  | @matched d d' d'' e i fired fired' isOpen round sound triggered rest ih =>
    have htrades : d.newTrades e = d.newTrades d' ++ d'.newTrades d'' ++ d''.newTrades e := by
      rw [newTrades_trans (round.onward.trans triggered.onward) rest.onward,
        newTrades_trans round.onward triggered.onward]
    have hfired : fired = false := by
      cases hf : fired with
      | false => rfl
      | true =>
        obtain ⟨t, ht, hreach⟩ := triggered.reaches hf
        refine absurd (hreach.of_later round.onward fun s i hi => round.dormant s ▸ hi)
          (hquiet t ?_)
        rw [htrades, round.newTrades, ht]
        simp
    rw [hfired, Bool.false_or]
    refine ih ?_
    intro t ht hreach
    have hdropped := triggered.quiet hfired
    refine hquiet t (by rw [htrades]; exact List.mem_append_right _ ht)
      (hreach.of_later (round.onward.trans triggered.onward) ?_)
    intro s i hi
    obtain ⟨dropped, hbag, -⟩ := hdropped.dormant s
    rw [← round.dormant s, hbag]
    exact Multiset.mem_add.2 (.inr hi)

/-! ## Processing -/

/-- There is room in market depth for what is left of an incoming order. -/
def Roomy (d : Desk Simulated) (r : OrderRef) : Prop :=
  d.book.ledger.HasRoom (d.order r).unfulfilled.toNat

/-- The open orders of a queue are served as those of a list that holds the same of them. -/
theorem filter_drain_eq {s : Side} {items : List Item} {p : Item → Bool}
    (hd : Sound known d) (hids : d.Distinct s) (hitems : (items.map (·.id)).Nodup)
    (h : ((d.book.queue s).bag.filter fun i => p i) =
      ((items : Multiset Item).filter fun i => p i)) :
    (d.book.queue s).drain.filter p = (served (.ofResting s) items).filter p := by
  have hcoe : ((d.book.queue s).items.toList : Multiset Item) = (d.book.queue s).bag := rfl
  have hids' : ((d.book.queue s).items.toList.map (·.id)).Nodup := Multiset.coe_nodup.1 hids
  rw [Queue.drain_eq_served (hd.ordered s) hids hcoe, filter_served hids', filter_served hitems]
  refine served_eq_of_perm (Multiset.coe_eq_coe.1 ?_) (hids'.sublist (List.filter_sublist.map _))
  rw [← hcoe] at h
  simpa using h

/-- Letting an order rest if it is open. -/
theorem front_and_bag_of_rested (h : ((d.order r).isOpen = true ∧ ∃ l, d' = d.rested side r l) ∨
      ((d.order r).isOpen = false ∧ d' = d)) :
    d'.front = d.front ∧
      ∀ s, (d'.book.queue s).bag =
        (d.book.queue s).bag + (d.front.resting r side s : Multiset Item) := by
  rcases h with ⟨ho, l, rfl⟩ | ⟨ho, rfl⟩
  · refine ⟨?_, ?_⟩
    · unfold front
      exact congrArg (Sweep.mk d.office) (lastPrice_withItems ..)
    · intro s
      have ho : (d.front.order r).isOpen = true := ho
      rw [queue_rested, Sweep.resting]
      by_cases hs : side = s
      · subst hs
        rw [if_pos rfl, if_pos ⟨rfl, ho⟩, Queue.push, Queue.bag_pushItem, Multiset.coe_singleton,
          ← Multiset.singleton_add, add_comm]
        rfl
      · rw [if_neg hs, if_neg fun h => hs h.1.symm, Multiset.coe_nil, add_zero]
  · refine ⟨rfl, ?_⟩
    intro s
    have ho : (d'.front.order r).isOpen = false := ho
    rw [Sweep.resting, ho, if_neg fun h => Bool.false_ne_true h.2, Multiset.coe_nil, add_zero]

/-- Shedding loses no order that is open afterwards. -/
theorem Sheds.filter_bag (h : Sheds d d') (s : Side) :
    ((d'.book.queue s).bag.filter fun i => (d'.order i.order).isOpen) =
      (d.book.queue s).bag.filter fun i => (d'.order i.order).isOpen := by
  obtain ⟨gone, hbag, hgone⟩ := h s
  have hnone : (gone.filter fun i => (d'.order i.order).isOpen = true) = 0 :=
    Multiset.filter_eq_nil.2 fun i hi ho => Bool.false_ne_true ((hgone i hi).symm.trans ho)
  rw [hbag, Multiset.filter_add, hnone, zero_add]

/-- Plain processing leads to what a plain sweep leads to. -/
theorem Plain.aftermath (h : Plain known r d d')
    (hr : Incoming known (d.order r).side (d.order r).user r d) (hd : Sound known d)
    (hd' : Sound known d') (hids : ∀ s, d.Distinct s)
    (hfresh : ∀ i ∈ (d.book.queue (d.order r).side).bag, i.id ≠ (d.order r).id) :
    d'.aftermath = d.swept r := by
  obtain ⟨dm, hrun, hend⟩ := h
  have hsheds := hrun.sheds rfl
  have hswept : d.swept r = ⟨dm.front, fun s => (served (.ofResting s)
      ((d.book.queue s).items.toList ++ dm.front.resting r (d.order r).side s)).filter
        fun i => (dm.order i.order).isOpen⟩ := by
    dsimp only [swept]
    rw [← hrun.front rfl hr hd (hids _)]
    rfl
  obtain ⟨hfront, hbag⟩ := front_and_bag_of_rested hend
  have horder : d'.order = dm.order := congrArg Sweep.order hfront
  have hnodup : ∀ s, (((d.book.queue s).items.toList ++
      dm.front.resting r (d.order r).side s).map (·.id)).Nodup := by
    intro s
    rw [List.map_append]
    refine List.nodup_append.2 ⟨Multiset.coe_nodup.1 (hids s), Sweep.nodup_resting .., ?_⟩
    rintro _ hid _ hid' rfl
    obtain ⟨i, hi, hii⟩ := List.mem_map.1 hid
    obtain ⟨j, hj, hji⟩ := List.mem_map.1 hid'
    obtain ⟨rfl, hjr⟩ := Sweep.id_of_mem_resting hj
    exact hfresh i hi (hii.trans (hji.symm.trans (hjr.trans (hrun.onward.orders r).id)))
  have hdistinct : ∀ s, d'.Distinct s := by
    intro s
    obtain ⟨gone, hgone, -⟩ := hsheds s
    have hle : (d'.book.queue s).bag ≤
        ((d.book.queue s).items.toList ++ dm.front.resting r (d.order r).side s : List Item) := by
      rw [hbag, ← Multiset.coe_add]
      refine add_le_add ?_ le_rfl
      show _ ≤ (d.book.queue s).bag
      rw [hgone]
      exact Multiset.le_add_left _ _
    exact Multiset.nodup_of_le (Multiset.map_le_map hle) (Multiset.coe_nodup.2 (hnodup s))
  rw [hswept]
  unfold Desk.aftermath
  rw [hfront, horder]
  congr 1
  funext s
  refine filter_drain_eq hd' (hdistinct s) (hnodup s) ?_
  rw [hbag, ← Multiset.coe_add, Multiset.filter_add, Multiset.filter_add, hsheds.filter_bag]
  rfl

/-- Processing an order comes to what a plain sweep leads to, if no trade of it reaches a stop-loss
that waits and is not closed. It is broken off only if there is no room for the order in market
depth. -/
theorem process_eq_swept (d : Desk Simulated) (j : Array Event) (r : OrderRef)
    (hd : Sound (fun _ => True) d) (ht : (d.order r).type ≠ .stopLoss) (hids : ∀ s, d.Distinct s)
    (hfresh : ∀ i ∈ (d.book.queue (d.order r).side).bag, i.id ≠ (d.order r).id) :
    Ends (process Simulated.settlement r) ⟨d, j⟩
      (fun _ t => (∀ tr ∈ d.newTrades t.state, ¬ d.ReachesDormant tr.price) →
        t.state.aftermath = d.swept r)
      (fun f _ => f.IsOverflow ∧ ¬ d.Roomy r) := by
  have hin : Incoming (fun _ => True) (d.order r).side (d.order r).user r d :=
    ⟨trivial, rfl, rfl, ht⟩
  have hresult : ∀ t, Sound (fun _ => True) t → Plain (fun _ => True) r d t ∨ (∃ dm, Onward dm t ∧
      MatchRun (fun _ => True) (d.order r).side (d.order r).user r d true dm) →
      (∀ tr ∈ d.newTrades t, ¬ d.ReachesDormant tr.price) → t.aftermath = d.swept r := by
    rintro t hd' (hplain | ⟨dm, hon, hrun⟩) hquiet
    · exact hplain.aftermath hin hd hd' hids hfresh
    · have := hrun.not_fired fun tr htr => hquiet tr (by
        rw [newTrades_trans hrun.onward hon]
        exact List.mem_append_left _ htr)
      cases this
  by_cases hroom : d.Roomy r
  · refine (ends_process (s := ⟨d, j⟩) (upkeep_hasRoom _) hd trivial ht hroom).mono ?_
      fun _ _ hf => hf.broken.elim
    rintro _ t ⟨-, hd', -, h⟩
    exact hresult t.state hd' h
  · refine (ends_process (s := ⟨d, j⟩) (upkeep_true _) hd trivial ht trivial).mono ?_
      fun _ _ hf => ⟨hf.overflow, hroom⟩
    rintro _ t ⟨-, hd', -, h⟩
    exact hresult t.state hd' h

/-- The book of the two asks of `ownCross`, when the bid of the first user comes in. -/
def ownCrossDesk : Desk Simulated :=
  let l := .empty ⟨0⟩ 10
  (Session.ownCrossOpening.state.rested .ask ⟨0⟩ l).rested .ask ⟨1⟩ l

/-- The book of `ownCross` is sound. -/
theorem sound_ownCrossDesk : Sound (fun _ => True) ownCrossDesk := by
  refine ((sound_new _ _ _ _ _).rested trivial ?_ ?_ _).rested trivial ?_ ?_ _ <;> decide

/-- The bid of the first user passes over his own ask and takes the other. -/
theorem swept_of_ownCross :
    (ownCrossDesk.swept ⟨2⟩).sweep.office.backend.trades.toList.map (·.askId) = [⟨2⟩] ∧
      Ends (process Simulated.settlement ⟨2⟩) ⟨ownCrossDesk, #[]⟩
        (fun _ t => (∀ tr ∈ ownCrossDesk.newTrades t.state,
          ¬ ownCrossDesk.ReachesDormant tr.price) → t.state.aftermath = ownCrossDesk.swept ⟨2⟩)
        (fun f _ => f.IsOverflow ∧ ¬ ownCrossDesk.Roomy ⟨2⟩) := by
  refine ⟨by decide +kernel,
    process_eq_swept ownCrossDesk #[] ⟨2⟩ sound_ownCrossDesk (by decide) ?_ ?_⟩
  · intro s
    cases s <;> unfold Distinct <;> decide +kernel
  · decide +kernel

end Desk

end Bourse
