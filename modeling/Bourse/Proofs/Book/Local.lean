import Bourse.Proofs.Book.Rounds
import Bourse.Proofs.Book.Search
import Bourse.Proofs.Book.Trade
import Bourse.Proofs.Settlement.Local

/-!
# A book works on its own orders only

If all orders of a book are among some orders (`Book.Holds`) then what the book does depends on no
others: on two desks with the same book, whose offices agree on these orders, it does the same. It
answers alike and leads to the same book, and the offices stay in step (`Desk.InStep`). So it also
writes no other order and makes no trade with another one.

`Desk.Local` says so of an action on desks. There is one lemma for each function of the book.
-/

namespace Bourse

open Bourse.Action

/-! ## The ledger does not read the journal -/

namespace Levels

variable {price : Price} {q : Quantity}

/-- What is recorded of a level does not depend on the journal. -/
theorem unread_recordDiff (delta : Int64) : Unread (recordDiff price delta) :=
  unread_current.bind fun _ => (unread_ofExcept _).bind fun _ => unread_replace _

/-- What is put on a level does not depend on the journal. -/
theorem unread_add : Unread (add price q) :=
  unread_current.bind fun _ => (unread_ofExcept _).bind fun _ => (unread_replace _).bind fun _ =>
    unread_recordDiff _

/-- What is taken off a level does not depend on the journal. -/
theorem unread_remove : Unread (remove price q) := by
  refine unread_current.bind fun l => ?_
  dsimp only
  split
  · refine (unread_replace _).bind fun _ => (unread_ofExcept _).bind fun _ => ?_
    exact (unread_recordDiff _).bind fun _ => unread_pure _
  · refine (unread_replace _).bind fun _ => ?_
    split
    · refine (unread_ofExcept _).bind fun _ => ?_
      exact (unread_recordDiff _).bind fun _ => unread_pure _
    · exact unread_pure _

end Levels

/-- What a report does to market depth does not depend on the journal. -/
theorem MarketDepth.unread_receive (r : Report) : Unread (receive r) := by
  cases r with
  | add isMarket side price q =>
    show Unread (addOrder isMarket side price q)
    unfold addOrder
    split
    · exact unread_pure _
    · exact Levels.unread_add.within
  | close isMarket side price q =>
    show Unread (closeOrder isMarket side price q)
    unfold closeOrder
    split
    · exact unread_pure _
    · refine Levels.unread_remove.within.bind ?_
      rintro (_ | held)
      · exact unread_pure _
      · exact unread_current.bind fun _ => unread_log _
  | trade tick =>
    show Unread (addTrade tick)
    exact unread_change _

namespace Ledger

variable {id : OrderId} {q : Quantity}

/-- What a report does to the ledger does not depend on the journal. -/
theorem unread_report (r : Report) : Unread (report r) :=
  (unread_change _).bind fun _ => (MarketDepth.unread_receive r).within

/-- What an order shows does not depend on the journal. -/
theorem unread_add (o : Order) : Unread (add o) := by
  refine unread_current.bind fun l => ?_
  split
  · exact (unread_replace _).bind fun _ => unread_report _
  · exact unread_pure _

/-- What a trade takes off does not depend on the journal. -/
theorem unread_reduce : Unread (reduce id q) := by
  refine unread_current.bind fun l => ?_
  split
  · exact unread_pure _
  · dsimp only
    split
    · exact (unread_log _).bind fun _ => (unread_replace _).bind fun _ =>
        (unread_report _).bind fun _ => unread_pure _
    · exact (unread_replace _).bind fun _ => (unread_report _).bind fun _ => unread_pure _

/-- What a withdrawal takes off does not depend on the journal. -/
theorem unread_withdraw : Unread (withdraw id) := by
  refine unread_current.bind fun l => ?_
  split
  · exact (unread_replace _).bind fun _ => unread_report _
  · exact unread_pure _

/-- What a trade is reported as does not depend on the journal. -/
theorem unread_recordTrade (t : Trade) : Unread (recordTrade t) := unread_report _

end Ledger

/-! ## The orders of a book -/

variable {α β : Type} {mine : OrderRef → Prop} {p p' : Office Simulated}

/-- The orders in the queue are among these. -/
def Queue.Holds (mine : OrderRef → Prop) (q : Queue) : Prop := ∀ i ∈ q.bag, mine i.order

/-- The orders in the queues of the book, and those that wait for its start, are among these. -/
structure Book.Holds (mine : OrderRef → Prop) (b : Book) : Prop where
  queue : ∀ side, (b.queue side).Holds mine
  dormant : ∀ side, (b.stopLossQueue side).Holds mine
  waiting : ∀ {submissions}, b.phase = .waiting submissions → ∀ sub ∈ submissions, mine sub.order

namespace Queue

variable {q : Queue} {i : Item}

/-- A queue holds these orders still if one of them comes in. -/
theorem Holds.pushItem (h : q.Holds mine) (hi : mine i.order) : (q.pushItem i).Holds mine := by
  intro j hj
  rw [bag_pushItem, Multiset.mem_cons] at hj
  exact hj.elim (fun heq => heq ▸ hi) (h j)

/-- A queue holds these orders still if some of them come in. -/
theorem Holds.pushItems {items : List Item} (h : q.Holds mine) (hi : ∀ i ∈ items, mine i.order) :
    (items.foldl Queue.pushItem q).Holds mine := by
  intro j hj
  rw [Desk.bag_foldl_pushItem, Multiset.mem_add, Multiset.mem_coe] at hj
  exact hj.elim (hi j) (h j)

/-- A queue that loses its head holds these orders still. -/
theorem Holds.dropHead (h : q.Holds mine) : q.dropHead.Holds mine := by
  cases hh : q.headItem? with
  | none =>
    have hempty : q.dropHead.bag = 0 := by
      rw [bag_eq_zero, size_dropHead, bag_eq_zero.1 (headItem?_eq_none.1 hh)]
    intro j hj
    rw [hempty] at hj
    exact (Multiset.notMem_zero j hj).elim
  | some head =>
    intro j hj
    exact h j (bag_dropHead hh ▸ Multiset.mem_cons_of_mem hj)

/-- The head of a queue that holds these orders is one of them. -/
theorem Holds.head (h : q.Holds mine) (hh : q.headItem? = some i) : mine i.order :=
  h i (mem_bag_of_headItem? hh)

/-- Whether the head leaves the queue depends on its order alone. -/
theorem popIf_congr {take take' : OrderRef → Bool}
    (h : ∀ i, q.headItem? = some i → take' i.order = take i.order) :
    q.popIf take' = q.popIf take := by
  unfold popIf
  split
  · next i hh => rw [h i hh]
  · rfl

/-- What is taken off a queue that holds these orders is one of them. -/
theorem Holds.popIf {take : OrderRef → Bool} {rest : Queue} (h : q.Holds mine)
    (hpop : q.popIf take = (some i, rest)) : mine i.order ∧ rest.Holds mine := by
  unfold Queue.popIf at hpop
  split at hpop
  · next head hh =>
    split at hpop
    · cases hpop
      exact ⟨h.head hh, h.dropHead⟩
    · cases hpop
  · cases hpop

end Queue

namespace Book.Holds

variable {b : Book} {side : Side}

/-- A book holds these orders still if a queue of them replaces another. -/
theorem withQueue {q : Queue} (h : b.Holds mine) (hq : q.Holds mine) :
    (b.withQueue q side).Holds mine where
  queue other := by
    rw [queue_withQueue]
    split
    · exact hq
    · exact h.queue other
  dormant other := by
    rw [stopLossQueue_withQueue]
    exact h.dormant other
  waiting hphase := h.waiting ((phase_withQueue b q side).symm.trans hphase)

/-- The same of a queue of dormant stop-losses. -/
theorem withStopLossQueue {q : Queue} (h : b.Holds mine) (hq : q.Holds mine) :
    (b.withStopLossQueue q side).Holds mine where
  queue other := by
    rw [queue_withStopLossQueue]
    exact h.queue other
  dormant other := by
    rw [stopLossQueue_withStopLossQueue]
    split
    · exact hq
    · exact h.dormant other
  waiting hphase := h.waiting ((phase_withStopLossQueue b q side).symm.trans hphase)

/-- The book holds the same orders whatever its ledger and last price are. -/
theorem priced (h : b.Holds mine) (l : Ledger) (price : Price) :
    ({ b with ledger := l, lastPrice := price } : Book).Holds mine where
  queue
    | .ask => h.queue .ask
    | .bid => h.queue .bid
  dormant
    | .ask => h.dormant .ask
    | .bid => h.dormant .bid
  waiting := h.waiting

/-- A book holds these orders in another phase if only they wait in it. -/
theorem enter {phase : Phase} (h : b.Holds mine)
    (hwaiting : ∀ {submissions}, phase = .waiting submissions → ∀ sub ∈ submissions,
      mine sub.order) : ({ b with phase } : Book).Holds mine where
  queue
    | .ask => h.queue .ask
    | .bid => h.queue .bid
  dormant
    | .ask => h.dormant .ask
    | .bid => h.dormant .bid
  waiting := hwaiting

/-- A new book holds nothing. -/
theorem new (i : Instrument) (history buffer : Nat) : (Book.new i history buffer).Holds mine where
  queue side := by cases side <;> exact fun i hi => (Multiset.notMem_zero i hi).elim
  dormant side := by cases side <;> exact fun i hi => (Multiset.notMem_zero i hi).elim
  waiting hphase sub hsub := by
    cases hphase
    cases hsub

end Book.Holds

/-! ## Desks in step -/

namespace Desk

variable {P : α → Prop} {Q : β → Prop} {d d' : Desk Simulated} {side : Side} {user : UserId}
  {r ask bid : OrderRef} {exclude : Option UserId} {price : Price} {incoming : Option Side}

/-- The desks have the same book, which holds only these orders, and their offices are in step on
them. -/
structure InStep (mine : OrderRef → Prop) (p p' : Office Simulated) (d d' : Desk Simulated) :
    Prop where
  book : d'.book = d.book
  holds : d.book.Holds mine
  office : Office.InStep mine p p' d.office d'.office

/-- Desks in step have the same orders among these. -/
theorem InStep.order (h : InStep mine p p' d d') (hr : mine r) : d'.order r = d.order r :=
  h.office.orders r hr

/-- On desks in step the action does the same, and `P` holds of the answer. -/
abbrev Local (mine : OrderRef → Prop) (p p' : Office Simulated) (P : α → Prop)
    (act : Action (Desk Simulated) α) : Prop :=
  Parallel (InStep mine p p') P act

/-- Changing the book is local if the book then holds no other orders. -/
theorem local_changeBook {f : Book → Book} (hf : ∀ b : Book, b.Holds mine → (f b).Holds mine) :
    Local mine p p' (fun _ => True) (changeBook f) :=
  .change fun _ _ hd => ⟨congrArg f hd.book, hf _ hd.holds, hd.office⟩

/-- Changing a queue of resting orders is local if it then holds no other orders. -/
theorem local_changeQueue {f : Queue → Queue} (hf : ∀ q : Queue, q.Holds mine → (f q).Holds mine) :
    Local mine p p' (fun _ => True) (changeQueue side f) :=
  local_changeBook fun _ hb => hb.withQueue (hf _ (hb.queue side))

/-- Changing a queue of dormant stop-losses is local if it then holds no other orders. -/
theorem local_changeStopLossQueue {f : Queue → Queue}
    (hf : ∀ q : Queue, q.Holds mine → (f q).Holds mine) :
    Local mine p p' (fun _ => True) (changeStopLossQueue side f) :=
  local_changeBook fun _ hb => hb.withStopLossQueue (hf _ (hb.dormant side))

/-- Entering a phase is local if only these orders wait in it. -/
theorem local_enter {phase : Phase}
    (h : ∀ {submissions}, phase = .waiting submissions → ∀ sub ∈ submissions, mine sub.order) :
    Local mine p p' (fun _ => True) (enter phase) := local_changeBook fun _ hb => hb.enter h

/-- What settlement does locally is local for the book. -/
theorem local_onOffice {act : Action (Office Simulated) α} (h : Simulated.Local mine p p' act) :
    Local mine p p' (fun _ => True) (onOffice act) := fun _ _ hs =>
  paired_within ((h _ _ hs.office).mono (fun _ _ _ ht => ⟨trivial, hs.book, hs.holds, ht.2⟩)
    fun _ _ ht => ⟨hs.book, hs.holds, ht⟩)

/-- What the ledger does is local. -/
theorem local_onLedger {act : Action Ledger α} (h : Unread act) :
    Local mine p p' (fun _ => True) (onLedger act) := by
  intro s s' hs
  have hbook : ∀ l, InStep mine p p' { s.state with book := { s.state.book with ledger := l } }
      { s'.state with book := { s'.state.book with ledger := l } } := fun l =>
    ⟨by rw [hs.book], hs.holds.priced l _, hs.office⟩
  refine paired_within ((h _ _ (by rw [hs.book])).mono ?_ ?_)
  · rintro _ l _ rfl
    exact ⟨trivial, hbook _⟩
  · rintro l _ rfl
    exact hbook _

/-- Letting one of these orders rest is local. -/
theorem local_rest (hr : mine r) : Local mine p p' (fun _ => True) (rest side r) := by
  refine .current fun d d' hd => ⟨by rw [hd.order hr], ?_⟩
  exact (local_changeQueue fun q hq => hq.pushItem hr).bind fun _ _ =>
    local_onLedger (Ledger.unread_add _)

/-- Parking one of these orders is local. -/
theorem local_parkStopLoss (hr : mine r) : Local mine p p' (fun _ => True) (parkStopLoss r) := by
  refine .current fun d d' hd => ⟨by rw [hd.order hr, hd.book], ?_⟩
  exact (local_changeStopLossQueue fun q hq => hq.pushItem hr).bind fun _ _ => .log

/-! ## Matching -/

/-- What a search found is among these orders. -/
structure Finds (mine : OrderRef → Prop) (found : Option OrderRef × List Item) : Prop where
  top : ∀ r, found.1 = some r → mine r
  aside : ∀ i ∈ found.2, mine i.order

/-- The search finds one of these orders, and sets only such aside. -/
theorem local_topMatching {n : Nat} {aside : List Item} (haside : ∀ i ∈ aside, mine i.order) :
    Local mine p p' (Finds mine) (topMatching side exclude n aside) := by
  induction n generalizing aside with
  | zero => exact .pure ⟨nofun, haside⟩
  | succ n ih =>
    refine .current fun d d' hd => ?_
    rw [hd.book]
    cases hh : (d.book.queue side).headItem? with
    | none => exact ⟨rfl, .pure ⟨nofun, haside⟩⟩
    | some head =>
      have hhead : mine head.order := (hd.holds.queue side).head hh
      refine ⟨by simp only [hd.order hhead], ?_⟩
      dsimp only
      have hdrop : Local mine p p' (fun _ => True) (changeQueue side (·.dropHead)) :=
        local_changeQueue fun q hq => hq.dropHead
      split
      · exact hdrop.bind fun _ _ => (local_onLedger Ledger.unread_withdraw).bind fun _ _ =>
          Parallel.log.bind fun _ _ => ih haside
      · split
        · refine hdrop.bind fun _ _ => ih fun i hi => ?_
          rcases List.mem_append.1 hi with hi | hi
          · exact haside i hi
          · exact List.mem_singleton.1 hi ▸ hhead
        · refine .pure ⟨fun r hr => ?_, haside⟩
          cases hr
          exact hhead

/-- The search over a whole queue finds one of these orders. -/
theorem local_findTop : Local mine p p' (Finds mine) (findTop side exclude) :=
  .current fun d d' hd => ⟨by rw [hd.book], local_topMatching nofun⟩

/-- Putting back what was set aside is local. -/
theorem local_restore {aside : List Item} (haside : ∀ i ∈ aside, mine i.order) :
    Local mine p p' (fun _ => True) (restore side aside) :=
  local_changeQueue fun _ hq => hq.pushItems haside

/-- Taking a finished order off its queue is local. -/
theorem local_popResting (hr : mine r) : Local mine p p' (fun _ => True) (popResting side r) := by
  refine .current fun d d' hd => ⟨by simp only [hd.book, hd.order hr], ?_⟩
  exact .ite (local_changeQueue fun q hq => hq.dropHead) .log

/-- Bringing the depth of one side in line is local. -/
theorem local_settleShown (id : OrderId) (out : FillOutcome) :
    Local mine p p' (fun _ => True) (settleShown incoming side id out) := by
  have hdone : Local mine p p' (fun _ => True) (if (out.status side).isDone then
      onLedger (Ledger.withdraw id) else pure ()) := by
    split
    · exact local_onLedger Ledger.unread_withdraw
    · exact .pure trivial
  unfold settleShown settleDepth
  split
  · cases out.trade with
    | none => exact hdone
    | some t => exact (local_onLedger Ledger.unread_reduce).bind fun _ _ => hdone
  · exact .pure trivial

/-- A match step on two of these orders is local. -/
theorem local_makeTrade (ha : mine ask) (hb : mine bid) :
    Local mine p p' (fun _ => True) (makeTrade Simulated.settlement ask bid incoming) := by
  rw [makeTrade_eq]
  refine .current fun d d' hd => ⟨by simp only [dealPrice, hd.book, hd.order ha, hd.order hb], ?_⟩
  refine (local_onOffice (Simulated.parallel_settle ha hb)).bind fun out _ => ?_
  have hrecord : Local mine p p' (fun _ => True)
      (recordDeal d.book.instrument (d.order ask).id (d.order bid).id out.trade) := by
    cases out.trade with
    | none => exact .pure trivial
    | some t =>
      exact Parallel.log.bind fun _ _ =>
        (local_onLedger (Ledger.unread_recordTrade t)).bind fun _ _ =>
        local_changeBook fun b hb => hb.priced b.ledger t.price
  exact hrecord.bind fun _ _ => (local_settleShown _ _).bind fun _ _ =>
    (local_settleShown _ _).bind fun _ _ => .pure trivial

/-- The stop-losses that a price reaches are among these orders. -/
theorem local_takeReached {n : Nat} :
    Local mine p p' (fun rs => ∀ r ∈ rs, mine r) (takeReached side price n) := by
  induction n with
  | zero => exact .pure nofun
  | succ n ih =>
    refine .current fun d d' hd => ?_
    have hpop : ((d'.book.stopLossQueue side).popIf fun r =>
        (d'.order r).closed || (d'.order r).isReachedBy price) =
        (d.book.stopLossQueue side).popIf fun r =>
          (d.order r).closed || (d.order r).isReachedBy price := by
      rw [hd.book]
      refine Queue.popIf_congr fun i hi => ?_
      rw [hd.order ((hd.holds.dormant side).head hi)]
    dsimp only
    rw [hpop]
    rcases hfound : (d.book.stopLossQueue side).popIf fun r =>
      (d.order r).closed || (d.order r).isReachedBy price with ⟨_ | item, q⟩
    · exact ⟨rfl, .pure nofun⟩
    · obtain ⟨hitem, hq⟩ := (hd.holds.dormant side).popIf hfound
      refine ⟨by simp only [hd.order hitem, hd.book], ?_⟩
      refine (local_changeStopLossQueue fun _ _ => hq).bind fun _ _ => ?_
      split
      · exact Parallel.log.bind fun _ _ => ih
      · refine (local_onOffice (Simulated.parallel_modify hitem fun _ =>
          Order.follows_activateStopLoss)).bind fun _ _ => ih.bind fun rs hrs =>
            .pure fun r hr => ?_
        exact (List.mem_cons.1 hr).elim (fun heq => heq ▸ hitem) (hrs r)

/-- An activated stop-loss joins the resting orders locally. -/
theorem local_promote (hr : mine r) :
    Local mine p p' (fun _ => True) (promote Simulated.settlement price r) := by
  refine .current fun d d' hd => ⟨by simp only [hd.book, hd.order hr], ?_⟩
  refine Parallel.log.bind fun _ _ => (local_onOffice (Simulated.parallel_noteStopLoss hr)).bind
    fun _ _ => .current fun e e' he => ⟨by rw [he.order hr], ?_⟩
  exact local_changeQueue fun q hq => hq.pushItem hr

/-- What a trade triggers is local. -/
theorem local_triggerAfter (trade : Option Trade) :
    Local mine p p' (fun _ => True) (triggerAfter Simulated.settlement trade) := by
  cases trade with
  | none => exact .pure trivial
  | some t =>
    refine .current fun d d' hd => ⟨by rw [hd.book], local_takeReached.bind fun asks hasks => ?_⟩
    refine .current fun e e' he => ⟨by rw [he.book], local_takeReached.bind fun bids hbids => ?_⟩
    refine (Parallel.forM fun r hr => local_promote ?_).bind fun _ _ => .pure trivial
    exact (List.mem_append.1 hr).elim (hasks r) (hbids r)

/-- The end of a round with a match. -/
theorem local_endRound {aside : List Item} (haside : ∀ i ∈ aside, mine i.order)
    (trade : Option Trade) (goesOn : Bool) :
    Local mine p p' (fun _ => True) (restore side aside >>= fun _ =>
      triggerAfter Simulated.settlement trade >>= fun fired =>
        pure (⟨fired, goesOn⟩ : RoundResult)) :=
  (local_restore haside).bind fun _ _ => (local_triggerAfter _).bind fun _ _ => .pure trivial

/-- A round of matching one of these orders is local. -/
theorem local_matchRound (hr : mine r) :
    Local mine p p' (fun _ => True) (matchRound Simulated.settlement side user r) := by
  refine .current fun d d' hd =>
    ⟨by rw [hd.order hr], .ite (.pure trivial) (local_findTop.bind ?_)⟩
  rintro ⟨_ | resting, aside⟩ hfound
  · exact (local_restore hfound.aside).bind fun _ _ => .pure trivial
  have hresting : mine resting := hfound.top _ rfl
  have hpair : mine (pair side r resting).1 ∧ mine (pair side r resting).2 := by
    cases side
    · exact ⟨hr, hresting⟩
    · exact ⟨hresting, hr⟩
  unfold pair at hpair
  refine .current fun e e' he => ⟨by simp only [he.book, he.order hpair.1, he.order hpair.2], ?_⟩
  refine .ite ((local_restore hfound.aside).bind fun _ _ => .pure trivial)
    ((local_makeTrade hpair.1 hpair.2).bind ?_)
  rintro (fault | step) -
  · exact Parallel.log.bind fun _ _ => local_endRound hfound.aside _ _
  · dsimp only
    split
    · exact (local_popResting hresting).bind fun _ _ => local_endRound hfound.aside _ _
    · exact local_endRound hfound.aside _ _

/-- A round of reconciling is local. -/
theorem local_reconcileRound :
    Local mine p p' (fun _ => True) (reconcileRound Simulated.settlement) := by
  refine local_findTop.bind ?_
  rintro ⟨_ | ask, _⟩ hasks
  · exact .pure trivial
  have ha : mine ask := hasks.top _ rfl
  refine .current fun d d' hd => ⟨by simp only [hd.order ha], local_findTop.bind ?_⟩
  rintro ⟨_ | bid, aside⟩ hbids
  · exact (local_restore hbids.aside).bind fun _ _ => .pure trivial
  have hb : mine bid := hbids.top _ rfl
  refine .current fun e e' he => ⟨by simp only [he.book, he.order ha, he.order hb], ?_⟩
  refine .ite ((local_restore hbids.aside).bind fun _ _ => .pure trivial)
    ((local_makeTrade ha hb).bind ?_)
  rintro (fault | step) -
  · exact Parallel.log.bind fun _ _ => local_endRound hbids.aside _ _
  have hlast : Local mine p p' (fun _ => True) (if step.bidDone = true then
      popResting .bid bid >>= fun _ => restore .bid aside >>= fun _ =>
        triggerAfter Simulated.settlement step.trade >>= fun fired =>
          pure (⟨fired, true⟩ : RoundResult)
      else restore .bid aside >>= fun _ =>
        triggerAfter Simulated.settlement step.trade >>= fun fired => pure ⟨fired, true⟩) := by
    split
    · exact (local_popResting hb).bind fun _ _ => local_endRound hbids.aside _ _
    · exact local_endRound hbids.aside _ _
  dsimp only
  split
  · exact (local_popResting ha).bind fun _ _ => hlast
  · exact hlast

/-- Matching one of these orders is local. -/
theorem local_matchIncoming (hr : mine r) (limit : Nat) (activated : Bool) :
    Local mine p p' (fun _ => True)
      (matchIncoming Simulated.settlement side user r limit activated) := by
  induction limit generalizing activated with
  | zero => exact .fail
  | succ limit ih =>
    rw [matchIncoming_succ]
    exact (local_matchRound hr).bind fun _ _ => .ite (ih _) (.pure trivial)

/-- Reconciling is local, round by round. -/
theorem local_reconcileSteps (limit : Nat) :
    Local mine p p' (fun _ => True) (reconcileSteps Simulated.settlement limit) := by
  induction limit with
  | zero => exact .fail
  | succ limit ih =>
    rw [reconcileSteps_succ]
    exact local_reconcileRound.bind fun _ _ => .ite ih (.pure trivial)

/-- Reconciling the whole book is local. -/
theorem local_reconcile : Local mine p p' (fun _ => True) (reconcile Simulated.settlement) :=
  .current fun d d' hd => ⟨by rw [hd.book], local_reconcileSteps _⟩

/-- Processing one of these orders is local. -/
theorem local_process (hr : mine r) :
    Local mine p p' (fun _ => True) (process Simulated.settlement r) := by
  rw [process_eq]
  refine .current fun d d' hd =>
    ⟨by simp only [processLimit, Simulated.settlement, hd.book, hd.order hr], ?_⟩
  refine (local_matchIncoming hr _ _).bind fun activated _ => Parallel.bind (P := fun _ => True) ?_
    fun _ _ => .ite local_reconcile (.pure trivial)
  exact .current fun e e' he => ⟨by rw [he.order hr], .ite (local_rest hr) (.pure trivial)⟩

/-! ## Calls -/

/-- Matching one of these orders, or crashing over it, is local. -/
theorem local_runTask (hr : mine r) :
    Local mine p p' (fun _ => True) (runTask Simulated.settlement r) := by
  refine (local_process hr).attempt.bind ?_
  rintro (cause | ⟨⟩) -
  · exact local_enter nofun
  · exact .pure trivial

/-- Matching the submissions that waited is local if they are of these orders. -/
theorem local_takeSubmissions {submissions : List Submission}
    (h : ∀ sub ∈ submissions, mine sub.order) :
    Local mine p p' (fun _ => True) (takeSubmissions Simulated.settlement submissions) := by
  induction submissions with
  | nil => exact .pure trivial
  | cons sub rest ih =>
    rw [takeSubmissions_cons]
    have hsub : mine sub.order := h sub List.mem_cons_self
    have hrest := ih fun sub hsub => h sub (List.mem_cons_of_mem _ hsub)
    refine .current fun d d' hd => ⟨by simp only [stoppedError, hd.book], ?_⟩
    refine Parallel.bind (P := fun _ => True) ?_ fun _ _ => hrest.bind fun _ _ => .pure trivial
    refine .current fun e e' he => ⟨by simp only [announce, he.book, he.order hsub], ?_⟩
    refine .ite (Parallel.bind (P := fun _ => True) ?_ fun _ _ => local_runTask hsub)
      (.pure trivial)
    exact .ite .log (.pure trivial)

/-- The side of one of these orders is checked locally. -/
theorem local_checkSide (hr : mine r) : Local mine p p' (fun _ => True) (checkSide side r) :=
  .current fun d d' hd => ⟨by rw [hd.order hr], .pure trivial⟩

/-- Handing in one of these orders is local. -/
theorem local_submit (hr : mine r) :
    Local mine p p' (fun _ => True) (submit Simulated.settlement side r) := by
  refine (local_checkSide hr).bind ?_
  rintro (_ | error) -
  · refine .current fun d d' hd => ⟨by simp only [stoppedError, hd.book, hd.order hr], ?_⟩
    dsimp only
    split
    · exact Parallel.log.bind fun _ _ => .pure trivial
    split
    · exact (local_parkStopLoss hr).bind fun _ _ => .pure trivial
    cases hphase : d.book.phase with
    | waiting submissions =>
      refine (local_enter ?_).bind fun _ _ => .pure trivial
      rintro _ ⟨⟩ sub hsub
      rcases List.mem_append.1 hsub with hsub | hsub
      · exact hd.holds.waiting hphase sub hsub
      · exact List.mem_singleton.1 hsub ▸ hr
    | running => exact (local_runTask hr).bind fun _ _ => .pure trivial
    | crashed cause => exact .pure trivial
    | stopped => exact .pure trivial
  · exact .pure trivial

/-- Withdrawing one of these orders is local. -/
theorem local_withdraw (hr : mine r) : Local mine p p' (fun _ => True) (withdraw side r) := by
  refine (local_checkSide hr).bind ?_
  rintro (_ | error) -
  · refine .current fun d d' hd => ⟨by simp only [hd.book, hd.order hr], ?_⟩
    exact (local_onLedger Ledger.unread_withdraw).bind fun _ _ => Parallel.log.bind fun _ _ =>
      .pure trivial
  · exact .pure trivial

/-- Loading one of these orders is local. -/
theorem local_load (hr : mine r) : Local mine p p' (fun _ => True) (load side r) := by
  refine (local_checkSide hr).bind ?_
  rintro (_ | error) -
  · refine .current fun d d' hd => ⟨by simp only [hd.book, hd.order hr], ?_⟩
    refine .ite (Parallel.log.bind fun _ _ => .pure trivial)
      (Parallel.bind (P := fun _ => True) ?_ fun _ _ => .pure trivial)
    exact .current fun e e' he =>
      ⟨by simp only [he.order hr], .ite (local_parkStopLoss hr) (local_rest hr)⟩
  · exact .pure trivial

/-- Replaying trades is local. -/
theorem local_loadTrades (trades : List Trade) :
    Local mine p p' (fun _ => True) (loadTrades trades) := by
  refine .current fun d d' hd => ⟨by rw [hd.book], Parallel.log.bind fun _ _ => ?_⟩
  refine (Parallel.forM fun t _ => local_onLedger (Ledger.unread_recordTrade t)).bind fun _ _ => ?_
  cases (trades.mergeSort fun a b => a.createdAt ≤ b.createdAt).getLast? with
  | none => exact .pure trivial
  | some latest => exact local_changeBook fun b hb => hb.priced b.ledger latest.price

/-- Starting the book is local. -/
theorem local_start : Local mine p p' (fun _ => True) (start Simulated.settlement) := by
  refine .current fun d d' hd => ⟨by simp only [hd.book], ?_⟩
  cases hphase : d.book.phase with
  | waiting submissions =>
    have htake : Local mine p p'
        (fun _ => True) (takeSubmissions Simulated.settlement submissions) :=
      local_takeSubmissions (hd.holds.waiting hphase)
    refine (local_enter nofun).bind fun _ _ => local_reconcile.attempt.bind ?_
    rintro (cause | ⟨⟩) -
    · exact htake.bind fun _ _ => .pure trivial
    · exact (local_enter nofun).bind fun _ _ => Parallel.log.bind fun _ _ => htake.bind fun _ _ =>
        .pure trivial
  | running => exact .pure trivial
  | crashed cause => exact .pure trivial
  | stopped => exact .pure trivial

end Desk

end Bourse
