import Bourse.Proofs.Book.Process
import Bourse.Proofs.Session.Basic
import Bourse.Proofs.Settlement.Truthful

/-!
# Matching ends

No limit is ever what ends a loop of a book, whatever a truthful settlement does (`matching_ends`).
The inner loops take an order off a queue with every step. Of the rounds of the outer loops, one
that is followed by another took an order off the queues for good, or finished the incoming order.

What is put into a queue was in hand before: orders that were set aside, stop-losses that were
taken off their queue, what is left of the incoming order. So the orders queued are counted
together with those in hand, and both with the calls to fill (`Desk.Costs`).
-/

namespace Bourse.Desk

open Bourse.Action

variable {σ α β γ : Type} {S : Settlement σ} {calls : σ → Nat} {s : Logged (Desk σ)}
  {d d' d'' : Desk σ} {side : Side} {user : UserId} {exclude : Option UserId}
  {r ask bid : OrderRef}
  {price : Price} {aside : List Item} {incoming : Option Side} {c c' held held' held'' n m : Nat}
  {round : Action (Desk σ) RoundResult} {Q : RoundResult → Logged (Desk σ) → Prop}
  {E : Failure → Logged (Desk σ) → Prop}

/-! ## Loops without a limit -/

/-- The rounds come to an end by themselves: at most so many follow each other. -/
def EndsWithin (round : Action (Desk σ) RoundResult) : Nat → Logged (Desk σ) → Prop
  | 0, _ => False
  | n + 1, s => Ends round s (fun result t => result.goesOn = true → EndsWithin round n t)
      fun _ _ => True

/-- A loop of rounds that come to an end does not depend on its limit, if that is high enough. -/
theorem EndsWithin.limit_eq (h : EndsWithin round n s) (loop : Nat → γ → Action (Desk σ) β)
    (again : γ → RoundResult → γ) (last : γ → RoundResult → β)
    (hloop : ∀ k x, loop (k + 1) x = (do
      let result ← round
      if result.goesOn then loop k (again x result) else return last x result))
    {k k' : Nat} (hk : n ≤ k) (hk' : n ≤ k') (x : γ) : loop k x s = loop k' x s := by
  induction n generalizing s k k' x with
  | zero => exact h.elim
  | succ n ih =>
    obtain ⟨k, rfl⟩ :=
      Nat.exists_eq_succ_of_ne_zero (Nat.ne_of_gt (Nat.lt_of_lt_of_le n.succ_pos hk))
    obtain ⟨k', rfl⟩ :=
      Nat.exists_eq_succ_of_ne_zero (Nat.ne_of_gt (Nat.lt_of_lt_of_le n.succ_pos hk'))
    rw [hloop, hloop]
    refine Ends.bind_congr (Ends.mono h ?_ fun _ _ _ => trivial)
    intro result t ht
    cases hgo : result.goesOn with
    | false => rfl
    | true => exact ih (ht hgo) (Nat.le_of_succ_le_succ hk) (Nat.le_of_succ_le_succ hk') _

/-- Any two limits that suffice for matching an order lead to the same. -/
theorem EndsWithin.matchIncoming_eq (h : EndsWithin (matchRound S side user r) n s) {k k' : Nat}
    (hk : n ≤ k) (hk' : n ≤ k') (activated : Bool) :
    matchIncoming S side user r k activated s = matchIncoming S side user r k' activated s :=
  h.limit_eq (matchIncoming S side user r) (fun b result => b || result.fired)
    (fun b result => b || result.fired) (fun _ _ => matchIncoming_succ ..) hk hk' activated

/-- Any two limits that suffice for reconciling lead to the same. -/
theorem EndsWithin.reconcileSteps_eq (h : EndsWithin (reconcileRound S) n s) {k k' : Nat}
    (hk : n ≤ k) (hk' : n ≤ k') : reconcileSteps S k s = reconcileSteps S k' s :=
  h.limit_eq (fun k (_ : Unit) => reconcileSteps S k) (fun _ _ => ()) (fun _ _ => ())
    (fun _ _ => reconcileSteps_succ ..) hk hk' ()

/-- Every step of a search takes an order off its queue, so a search ends when there is none
left. -/
theorem topMatching_succ (hn : (s.state.book.queue side).size ≤ n) (aside : List Item) :
    topMatching side exclude (n + 1) aside s = topMatching side exclude n aside s := by
  induction n generalizing s aside with
  | zero =>
    have hnone := Queue.headItem?_eq_none.2 (Queue.bag_eq_zero.2 (Nat.le_zero.1 hn))
    refine ends_eq_ok.1 ?_
    simp only [topMatching, ends_bind, ends_current, hnone]
    exact ⟨rfl, rfl⟩
  | succ n ih =>
    have hnext : ∀ (l : Ledger) (j : Array Event) (aside : List Item),
        topMatching side exclude (n + 1) aside ⟨s.state.withoutHead side l, j⟩ =
          topMatching side exclude n aside ⟨s.state.withoutHead side l, j⟩ := by
      intro l j aside
      refine ih ?_ aside
      rw [queue_withoutHead, Queue.size_dropHead]
      omega
    rw [topMatching.eq_2, topMatching.eq_2 side exclude aside n]
    refine Ends.bind_congr (ends_current.2 ?_)
    cases (s.state.book.queue side).headItem? with
    | none => rfl
    | some head =>
      simp only
      split
      · refine Ends.bind_congr (ends_changeQueue.2 ?_)
        refine Ends.bind_congr (ends_onLedger.2 ((Ends.any _ _).mono ?_ fun _ _ _ => trivial))
        intro _ l _
        refine Ends.bind_congr (ends_log.2 ?_)
        exact hnext l.state _ aside
      · split
        · refine Ends.bind_congr (ends_changeQueue.2 ?_)
          rw [← withoutHead_ledger]
          exact hnext s.state.book.ledger _ _
        · rfl

/-- Every step takes a stop-loss off its queue. -/
theorem takeReached_succ (hn : (s.state.book.stopLossQueue side).size ≤ n) :
    takeReached side price (n + 1) s = takeReached side price n s := by
  induction n generalizing s with
  | zero =>
    have hnone := Queue.headItem?_eq_none.2 (Queue.bag_eq_zero.2 (Nat.le_zero.1 hn))
    refine ends_eq_ok.1 ?_
    simp only [takeReached, ends_bind, ends_current, Queue.popIf, hnone]
    exact ⟨rfl, rfl⟩
  | succ n ih =>
    have hnext : ∀ (o : Office σ) (j : Array Event),
        takeReached side price (n + 1) ⟨{ s.state.withoutDormant side with office := o }, j⟩ =
          takeReached side price n ⟨{ s.state.withoutDormant side with office := o }, j⟩ := by
      intro o j
      refine ih ?_
      show ((s.state.withoutDormant side).book.stopLossQueue side).size ≤ n
      rw [stopLossQueue_withoutDormant, Queue.size_dropHead]
      omega
    rw [takeReached.eq_2, takeReached.eq_2 side price n]
    refine Ends.bind_congr (ends_current.2 ?_)
    simp only [Queue.popIf]
    cases (s.state.book.stopLossQueue side).headItem? with
    | none => rfl
    | some item =>
      simp only
      split
      · refine Ends.bind_congr (ends_changeStopLossQueue.2 ?_)
        simp only
        split
        · exact Ends.bind_congr (ends_log.2 (hnext s.state.office _))
        · refine Ends.bind_congr (ends_onOffice.2 ?_)
          simp only [Office.onOrders, ends_within, ends_change]
          exact bind_apply_congr (hnext _ _) _
      · rfl

/-! ## What a step costs -/

/-- From one desk to the other at most `c` calls to fill were made, and no order was opened again.
With `held` orders in hand at first and `held'` in the end, no order came up. -/
structure Costs (calls : σ → Nat) (c held held' : Nat) (d d' : Desk σ) : Prop where
  calls : calls d'.office.backend ≤ calls d.office.backend + c
  items : d'.book.itemCount + held' ≤ d.book.itemCount + held
  shut : d.office.orders.StayShut d'.office.orders

namespace Costs

theorem trans (h : Costs calls c held held' d d') (h' : Costs calls c' held' held'' d' d'') :
    Costs calls (c + c') held held'' d d'' where
  calls := by
    have := h.calls
    have := h'.calls
    omega
  items := h'.items.trans h.items
  shut := h.shut.trans h'.shut

/-- Nothing was done but to the queues. -/
theorem of_office (ho : d'.office = d.office)
    (hi : d'.book.itemCount + held' ≤ d.book.itemCount + held) :
    Costs calls 0 held held' d d' :=
  ⟨ho ▸ le_rfl, hi, ho ▸ .refl _⟩

theorem refl (calls : σ → Nat) (held : Nat) (d : Desk σ) : Costs calls 0 held held d d :=
  .of_office rfl le_rfl

/-- What costs less costs no more. -/
theorem weaken (h : Costs calls c held held' d d') (hc : c ≤ c') (hheld : held'' ≤ held') :
    Costs calls c' held held'' d d' where
  calls := by
    have := h.calls
    omega
  items := by
    have := h.items
    omega
  shut := h.shut

/-- More orders may be in hand all the while. -/
theorem hold (h : Costs calls c held held' d d') (k : Nat) :
    Costs calls c (held + k) (held' + k) d d' where
  calls := h.calls
  items := by
    have := h.items
    omega
  shut := h.shut

end Costs

/-- Looking for an order asks settlement nothing, and holds what it sets aside. -/
theorem costs_findTop : Ends (findTop side exclude) s
    (fun found t => Costs calls 0 0 found.2.length s.state t.state ∧
      (∃ dropped, Searched side exclude s.state t.state dropped found.2) ∧
      Heads side exclude t.state found.1)
    (fun _ t => calls t.state.office.backend ≤ calls s.state.office.backend) := by
  have hdrop : Drops s.state side (fun _ => True) True := fun _ _ _ _ _ _ =>
    Ledger.breaks_withdraw.mono (fun _ _ _ => trivial) fun _ _ hf => ⟨hf, trivial⟩
  refine (ends_findTop hdrop trivial).mono ?_ ?_
  · rintro found t ⟨dropped, hsearch, hheads, -⟩
    exact ⟨.of_office hsearch.office hsearch.itemCount, ⟨dropped, hsearch⟩, hheads⟩
  · rintro f t ⟨-, -, dropped, new, hsearch⟩
    rw [hsearch.office]

/-- Putting back what was set aside releases it. -/
theorem costs_restore (aside : List Item) :
    Costs calls 0 aside.length 0 d (d.withItems side aside) :=
  .of_office rfl (itemCount_withItems d side aside).le

/-- A match step is one call to fill. What its answer calls finished is not open, and something
is. -/
theorem costs_makeTrade (hS : S.Truthful) (hc : S.Counts calls) (held : Nat) :
    Ends (makeTrade S ask bid incoming) s
      (fun answer t => Costs calls 1 held held s.state t.state ∧
        (∀ side, t.state.book.queue side = s.state.book.queue side) ∧
        ∀ step, answer = .ok step → (step.askDone = true ∨ step.bidDone = true) ∧
          (step.askDone = true → (t.state.order ask).isOpen = false) ∧
          (step.bidDone = true → (t.state.order bid).isOpen = false))
      (fun _ t => calls t.state.office.backend ≤ calls s.state.office.backend + 1) := by
  rw [makeTrade_eq]
  simp only [ends_bind, ends_current, ends_onOffice]
  refine (ends_leads _ _).mono ?_ fun _ _ hl => hc.fill hl
  intro out o hl
  have hcalls : calls o.state.backend ≤ calls s.state.office.backend + 1 := hc.fill hl
  have hledger : ∀ j, Ends (Ledger.settlePair (s.state.order ask).id (s.state.order bid).id out
      incoming) ⟨s.state.book.ledger, j⟩ (fun _ _ => True) fun f _ => f.IsOverflow := fun _ =>
    Ledger.breaks_settlePair
  simp only [Ledger.settlePair, ends_bind] at hledger
  refine ends_recordDeal fun j _ => (hledger j).mono ?_ fun _ _ _ => hcalls
  intro _ t ht
  rw [ends_settleShown]
  refine ht.mono ?_ fun _ _ _ => hcalls
  intro _ t ht
  rw [ends_settleShown]
  refine ht.mono ?_ fun _ _ _ => hcalls
  intro _ t _
  refine ⟨⟨hcalls, le_rfl, hS.fill hl⟩, fun _ => Book.queue_withLastPrice .., ?_⟩
  intro step hstep
  unfold answer at hstep
  split at hstep
  · next hdone =>
    cases hstep
    exact ⟨Bool.or_eq_true _ _ ▸ hdone, hS.done hl⟩
  · cases hstep

/-- Activating stop-losses asks settlement nothing, and holds what it takes. -/
theorem costs_takeReached (calls : σ → Nat) (n : Nat) : Ends (takeReached side price n) s
    (fun taken t => Costs calls 0 0 taken.length s.state t.state) (fun _ _ => False) := by
  induction n generalizing s with
  | zero => exact .refl ..
  | succ n ih =>
    simp only [takeReached, ends_bind, ends_current, Queue.popIf]
    cases hi : (s.state.book.stopLossQueue side).headItem? with
    | none => exact .refl ..
    | some item =>
      have hcount := itemCount_withoutDormant hi
      have hdrop : Costs calls 0 0 0 s.state (s.state.withoutDormant side) :=
        .of_office rfl (by omega)
      by_cases hpop : ((s.state.order item.order).closed ||
          (s.state.order item.order).isReachedBy price) = true
      · simp only [hpop, if_true, ends_bind, ends_changeStopLossQueue]
        split
        · rw [ends_bind, ends_log]
          exact (ih (s := ⟨s.state.withoutDormant side, _⟩)).imp fun _ _ ht => hdrop.trans ht
        · simp only [ends_bind, ends_onOffice, Office.onOrders, ends_within,
            ends_change, ends_pure]
          refine (ih (s := ⟨{ s.state.withoutDormant side with
            office := s.state.office.activated item.order }, _⟩)).imp fun taken t ht => ?_
          have hfollow :
              s.state.office.orders.Follow (s.state.office.activated item.order).orders :=
            Orders.follow_modify Order.follows_activateStopLoss
          refine ⟨ht.calls, ?_, hfollow.stayShut.trans ht.shut⟩
          have hitems : t.state.book.itemCount + taken.length ≤
            (s.state.withoutDormant side).book.itemCount + 0 := ht.items
          rw [List.length_cons]
          omega
      · simp only [hpop, Bool.false_eq_true, if_false]
        exact .refl calls 0 s.state

/-- An activated stop-loss that joins the queues is released, and settlement is not asked for a
fill. -/
theorem costs_promote (hS : S.Truthful) (hc : S.Counts calls) : Ends (promote S price r) s
    (fun _ t => Costs calls 0 1 0 s.state t.state)
    (fun _ t => calls t.state.office.backend ≤ calls s.state.office.backend) := by
  simp only [promote, ends_bind, ends_current, ends_log, ends_onOffice]
  refine (ends_leads _ _).mono ?_ fun _ _ hl => hc.stopLossTriggered hl
  intro _ o hl
  rw [ends_changeQueue]
  refine ⟨hc.stopLossTriggered hl, ?_, hS.stopLossTriggered hl⟩
  exact (itemCount_withItems { s.state with office := o.state } (s.state.order r).side
    [.ofOrder r (o.state.orders.get r)]).le

/-- Activated stop-losses that join the queues are released, one after the other. -/
theorem costs_promoteAll (hS : S.Truthful) (hc : S.Counts calls) (taken : List OrderRef) :
    Ends (taken.forM (promote S price)) s
      (fun _ t => Costs calls 0 taken.length 0 s.state t.state)
      (fun _ t => calls t.state.office.backend ≤ calls s.state.office.backend) := by
  refine (Ends.forM (P := fun rest t => Costs calls 0 taken.length rest.length s.state t.state)
    ?_ (.refl ..))
  intro r rest t ht
  refine (costs_promote hS hc).mono (fun _ u hu => ?_) fun _ u hu => hu.trans ht.calls
  have hu := hu.hold rest.length
  rw [Nat.add_comm 1, Nat.zero_add] at hu
  exact ht.trans hu

/-- What a trade triggers asks for no fill, and leaves as many items. -/
theorem costs_triggerAfter (hS : S.Truthful) (hc : S.Counts calls) (trade : Option Trade) :
    Ends (triggerAfter S trade) s (fun _ t => Costs calls 0 0 0 s.state t.state)
      (fun _ t => calls t.state.office.backend ≤ calls s.state.office.backend) := by
  cases trade with
  | none => exact .refl ..
  | some trade =>
    simp only [triggerAfter, triggerStopLosses, ends_bind, ends_current]
    refine (costs_takeReached calls _).mono ?_ fun _ _ hf => hf.elim
    intro asks t ht
    refine (costs_takeReached calls _).mono ?_ fun _ _ hf => hf.elim
    intro bids u hu
    have hu := hu.hold asks.length
    rw [Nat.zero_add, Nat.add_comm, ← List.length_append] at hu
    have hboth := ht.trans hu
    refine (costs_promoteAll hS hc (asks ++ bids)).mono ?_ fun _ v hv => hv.trans hboth.calls
    exact fun _ v hv => hboth.trans hv

/-- The end of a round: what was set aside is put back, and what the trade reaches joins in. -/
theorem costs_endRound (hS : S.Truthful) (hc : S.Counts calls) (aside : List Item)
    (trade : Option Trade) (goesOn : Bool) (held : Nat) :
    Ends (restore side aside >>= fun _ => triggerAfter S trade >>= fun fired =>
        pure (⟨fired, goesOn⟩ : RoundResult)) s
      (fun result t => result.goesOn = goesOn ∧
        Costs calls 0 (aside.length + held) held s.state t.state)
      (fun _ t => calls t.state.office.backend ≤ calls s.state.office.backend) := by
  simp only [ends_bind, ends_restore]
  refine (costs_triggerAfter hS hc trade).mono (fun _ t ht => ⟨rfl, ?_⟩) fun _ _ ht => ht
  exact (((costs_restore aside).trans ht).hold held).weaken le_rfl (Nat.le_add_left held 0)

/-! ## Rounds -/

/-- An order that is not open is not matched. -/
theorem ends_matchRound_of_not (h : (s.state.order r).isOpen = false) :
    Ends (matchRound S side user r) s (fun result t => result = ⟨false, false⟩ ∧ t = s)
      (fun _ _ => False) := by
  simp only [matchRound, ends_bind, ends_current, h, Bool.not_false, if_true]
  exact ⟨rfl, rfl⟩

/-- A finished order may be taken off the top of its queue before a round ends. -/
theorem costs_popIf (calls : σ → Nat) (held : Nat) {done : Bool}
    {next : Action (Desk σ) RoundResult} {i : Item}
    (hi : (s.state.book.queue side).headItem? = some i)
    (hnext : ∀ t, (∀ other, side ≠ other → t.state.book.queue other = s.state.book.queue other) →
      Costs calls 0 held (held + done.toNat) s.state t.state → Ends next t Q E) :
    Ends (if done = true then popResting side i.order >>= fun _ => next else next) s Q E := by
  refine ends_popIf hi ?_ ?_
  · rintro rfl
    refine hnext ⟨_, _⟩ (fun other hne => queue_withoutHead_of_ne _ _ _ hne) (.of_office rfl ?_)
    have := itemCount_withoutHead hi s.state.book.ledger
    simp only [Bool.toNat_true]
    omega
  · rintro rfl
    exact hnext s (fun _ _ => rfl) (.refl ..)

/-- A round of matching an incoming order. If another follows then this one finished the order, or
took one off the queues for good. -/
theorem costs_matchRound (hS : S.Truthful) (hc : S.Counts calls) :
    Ends (matchRound S side user r) s
      (fun result t => Costs calls 1 0 0 s.state t.state ∧
        (result.goesOn = true → (t.state.order r).isOpen = true →
          Costs calls 1 0 1 s.state t.state))
      (fun _ t => calls t.state.office.backend ≤ calls s.state.office.backend + 1) := by
  simp only [matchRound, ends_bind, ends_current]
  split
  · exact ⟨(Costs.refl ..).weaken (Nat.zero_le _) le_rfl, fun hgo => Bool.noConfusion hgo⟩
  simp only [ends_bind]
  refine costs_findTop.mono ?_ fun _ _ h => h.trans (Nat.le_succ _)
  rintro ⟨top, aside⟩ t ⟨ht, -, hheads⟩
  have hback : Costs calls 1 0 0 s.state (t.state.withItems side.opposite aside) :=
    (ht.trans (costs_restore aside)).weaken (Nat.zero_le _) le_rfl
  cases top with
  | none => exact ⟨hback, fun hgo => Bool.noConfusion hgo⟩
  | some resting =>
    obtain ⟨i, hi, rfl, -⟩ := hheads
    simp only [ends_bind, ends_current]
    split
    · exact ⟨hback, fun hgo => Bool.noConfusion hgo⟩
    rw [ends_bind]
    refine (costs_makeTrade hS hc aside.length).mono ?_ fun _ u hu =>
      hu.trans (Nat.add_le_add_right ht.calls 1)
    rintro (fault | step) u ⟨hu, hqueue, hstep⟩
    · have hu := ht.trans hu
      rw [ends_bind, ends_log]
      refine (costs_endRound hS hc aside fault.trade false 0).mono ?_ fun _ _ hv =>
        hv.trans hu.calls
      exact fun result v hv => ⟨hu.trans hv.2, fun hgo => Bool.noConfusion (hv.1.symm.trans hgo)⟩
    · refine costs_popIf calls aside.length (hqueue side.opposite ▸ hi) ?_
      intro v _ hpop
      have hv := (ht.trans hu).trans hpop
      refine (costs_endRound hS hc aside step.trade true
        (step.isDone side.opposite).toNat).mono ?_ fun _ _ hw => hw.trans hv.calls
      intro result w hend
      have hw := hv.trans hend.2
      refine ⟨hw.weaken le_rfl (Nat.zero_le _), fun _ hopen => hw.weaken le_rfl ?_⟩
      -- if the incoming order is still open then the other one was called finished
      obtain ⟨hprogress, hdone⟩ := hstep step rfl
      have hshut : (u.state.order r).isOpen ≠ false := fun hr =>
        Bool.noConfusion (hopen.symm.trans (hend.2.shut r (hpop.shut r hr)))
      have hother : step.isDone side.opposite = true := by
        cases side with
        | ask => exact hprogress.resolve_left fun h => hshut (hdone.1 h)
        | bid => exact hprogress.resolve_right fun h => hshut (hdone.2 h)
      exact hother ▸ le_rfl

/-- A round of matching resting orders with each other. If another follows then this one took an
order off the queues for good. -/
theorem costs_reconcileRound (hS : S.Truthful) (hc : S.Counts calls) :
    Ends (reconcileRound S) s
      (fun result t => Costs calls 1 0 result.goesOn.toNat s.state t.state)
      (fun _ t => calls t.state.office.backend ≤ calls s.state.office.backend + 1) := by
  simp only [reconcileRound, ends_bind]
  refine costs_findTop.mono ?_ fun _ _ h => h.trans (Nat.le_succ _)
  rintro ⟨top, skipped⟩ t ⟨ht, ⟨dropped, hasks⟩, hheads⟩
  obtain rfl : skipped = [] := hasks.aside_eq_nil
  cases top with
  | none => exact ht.weaken (Nat.zero_le _) le_rfl
  | some ask =>
    obtain ⟨i, hi, rfl, -⟩ := hheads
    simp only [ends_bind, ends_current]
    refine costs_findTop.mono ?_ fun _ _ h => h.trans (ht.calls.trans (Nat.le_succ _))
    rintro ⟨top, aside⟩ u ⟨hu, ⟨dropped', hbids⟩, hheads⟩
    have hu := ht.trans hu
    have hback : Costs calls 1 0 0 s.state (u.state.withItems .bid aside) :=
      (hu.trans (costs_restore aside)).weaken (Nat.zero_le _) le_rfl
    cases top with
    | none => exact hback
    | some bid =>
      obtain ⟨k, hk, rfl, -⟩ := hheads
      simp only [ends_bind, ends_current]
      split
      · exact hback
      have hi' : (u.state.book.queue .ask).headItem? = some i := by
        rw [hbids.queue_of_ne (by decide)]
        exact hi
      rw [ends_bind]
      refine (costs_makeTrade hS hc aside.length).mono ?_ fun _ v hv =>
        hv.trans (Nat.add_le_add_right hu.calls 1)
      rintro (fault | step) v ⟨hv, hqueue, hstep⟩
      · have hv := hu.trans hv
        rw [ends_bind, ends_log]
        refine (costs_endRound hS hc aside fault.trade false 0).mono ?_ fun _ _ hw =>
          hw.trans hv.calls
        exact fun result w hw => hw.1 ▸ hv.trans hw.2
      · refine costs_popIf calls aside.length (hqueue .ask ▸ hi') ?_
        intro w hrest hpop
        have hk' : (w.state.book.queue .bid).headItem? = some k := by
          rw [hrest .bid (by decide), hqueue]
          exact hk
        refine costs_popIf calls (aside.length + step.askDone.toNat) hk' ?_
        intro x _ hpop'
        have hx := ((hu.trans hv).trans hpop).trans hpop'
        rw [Nat.add_assoc aside.length] at hx
        refine (costs_endRound hS hc aside step.trade true
          (step.askDone.toNat + step.bidDone.toNat)).mono ?_ fun _ _ hy => hy.trans hx.calls
        intro result y hy
        refine (hx.trans hy.2).weaken le_rfl ?_
        rw [hy.1]
        rcases (hstep step rfl).1 with h | h <;> rw [h] <;> simp

/-- The rounds of matching an incoming order come to an end: all but the last two take an order off
the queues. -/
theorem endsWithin_matchRound (hS : S.Truthful)
    (hn : (if (s.state.order r).isOpen then s.state.book.itemCount + 2 else 1) ≤ n) :
    EndsWithin (matchRound S side user r) n s := by
  induction n generalizing s with
  | zero => split at hn <;> omega
  | succ n ih =>
    cases hopen : (s.state.order r).isOpen with
    | false =>
      refine (ends_matchRound_of_not hopen).mono ?_ fun _ _ _ => trivial
      rintro result t ⟨rfl, -⟩
      nofun
    | true =>
      refine (costs_matchRound hS S.counts_nothing).mono ?_ fun _ _ _ => trivial
      rintro result t ⟨ht, hfewer⟩ hgo
      refine ih ?_
      rw [hopen, if_pos rfl] at hn
      split
      · next hopen' =>
        have := (hfewer hgo hopen').items
        omega
      · omega

/-- Reconciling ends by itself within as many rounds as there are items, and one. -/
theorem endsWithin_reconcileRound (hS : S.Truthful) (hn : s.state.book.itemCount < n) :
    EndsWithin (reconcileRound S) n s := by
  induction n generalizing s with
  | zero => omega
  | succ n ih =>
    refine (costs_reconcileRound hS S.counts_nothing).mono ?_ fun _ _ _ => trivial
    intro result t ht hgo
    have hitems := ht.items
    rw [hgo, Bool.toNat_true] at hitems
    exact ih (by omega)

/-! ## Calls to fill -/

/-- An order that is not open is not matched, whatever the limit. -/
theorem ends_matchIncoming_of_not (h : (s.state.order r).isOpen = false) (limit : Nat)
    (activated : Bool) :
    Ends (matchIncoming S side user r limit activated) s (fun _ t => t = s)
    (fun _ t => t = s) := by
  cases limit with
  | zero => exact rfl
  | succ limit =>
    rw [matchIncoming_succ, ends_bind]
    refine (ends_matchRound_of_not h).mono ?_ fun _ _ hf => hf.elim
    rintro result t ⟨rfl, rfl⟩
    exact rfl

/-- The calls that matching an incoming order makes: one for each order that it takes off the
queues, and one more. -/
theorem calls_matchIncoming (hS : S.Truthful) (hc : S.Counts calls) (limit : Nat)
    (activated : Bool) :
    Ends (matchIncoming S side user r limit activated) s
      (fun _ t => calls t.state.office.backend + t.state.book.itemCount ≤
          calls s.state.office.backend + s.state.book.itemCount + 1 ∧
        t.state.book.itemCount ≤ s.state.book.itemCount)
      (fun _ t => calls t.state.office.backend ≤
        calls s.state.office.backend + s.state.book.itemCount + 1) := by
  induction limit generalizing s activated with
  | zero => exact Nat.le_add_right_of_le (Nat.le_add_right _ _)
  | succ limit ih =>
    rw [matchIncoming_succ, ends_bind]
    refine (costs_matchRound hS hc).mono ?_ fun _ t ht => by omega
    rintro result t ⟨ht, hfewer⟩
    have hcalls := ht.calls
    have hitems := ht.items
    split
    · next hgo =>
      cases hopen : (t.state.order r).isOpen with
      | false =>
        refine (ends_matchIncoming_of_not hopen limit _).mono ?_ ?_
        all_goals
          rintro _ u rfl
          omega
      | true =>
        have hfewer := (hfewer hgo hopen).items
        refine (ih _).mono (fun _ u hu => ?_) fun _ u hu => ?_
        all_goals omega
    · rw [ends_pure]
      omega

/-- Reconciling asks for at most one fill more than there are items. -/
theorem calls_reconcileSteps (hS : S.Truthful) (hc : S.Counts calls) (limit : Nat) :
    Ends (reconcileSteps S limit) s
      (fun _ t => calls t.state.office.backend ≤
        calls s.state.office.backend + s.state.book.itemCount + 1)
      (fun _ t => calls t.state.office.backend ≤
        calls s.state.office.backend + s.state.book.itemCount + 1) := by
  induction limit generalizing s with
  | zero => exact Nat.le_add_right_of_le (Nat.le_add_right _ _)
  | succ limit ih =>
    rw [reconcileSteps_succ, ends_bind]
    refine (costs_reconcileRound hS hc).mono ?_ fun _ t ht => by omega
    intro result t ht
    have hcalls := ht.calls
    have hitems := ht.items
    split
    · next hgo =>
      rw [hgo, Bool.toNat_true] at hitems
      refine ih.mono (fun _ u hu => ?_) fun _ u hu => ?_
      all_goals omega
    · rw [ends_pure]
      omega

/-- An order that rests is one item more at most, and settlement is not asked. -/
theorem calls_restLeft : Ends (restLeft side r) s
    (fun _ t => t.state.office = s.state.office ∧
      t.state.book.itemCount ≤ s.state.book.itemCount + 1)
    (fun _ t => t.state.office = s.state.office) := by
  simp only [restLeft, ends_bind, ends_current]
  split
  · have hadd : ∀ j, Ends (Ledger.add (s.state.order r)) ⟨s.state.book.ledger, j⟩
        (fun _ _ => True) (fun f _ => f.IsOverflow ∧ True) := fun _ =>
      Ledger.breaks_add.mono (fun _ _ h => h) fun _ _ hf => ⟨hf, trivial⟩
    refine (ends_rest (P := fun _ => True) hadd).mono ?_ ?_
    · rintro _ t ⟨l, -, ht⟩
      rw [ht]
      exact ⟨rfl, (itemCount_withItems s.state side [.ofOrder r (s.state.order r)]).le⟩
    · rintro f t ⟨-, -, l, ht⟩
      rw [ht]
      rfl
  · exact ⟨rfl, Nat.le_succ _⟩

/-- Processing with limits of its own for the two loops. -/
def processWithin (S : Settlement σ) (limit limit' : Nat) (r : OrderRef) :
    Action (Desk σ) Unit := do
  let d ← Action.current
  let activated ← matchIncoming S (d.order r).side (d.order r).user r limit false
  restLeft (d.order r).side r
  if activated then reconcileSteps S limit'

/-- Processing an order asks for at most three fills more than there are items. -/
theorem calls_processWithin (hS : S.Truthful) (hc : S.Counts calls) (limit limit' : Nat) :
    Ends (processWithin S limit limit' r) s
      (fun _ t => calls t.state.office.backend ≤
        calls s.state.office.backend + s.state.book.itemCount + 3)
      (fun _ t => calls t.state.office.backend ≤
        calls s.state.office.backend + s.state.book.itemCount + 3) := by
  simp only [processWithin, ends_bind, ends_current]
  refine (calls_matchIncoming hS hc limit false).mono ?_ fun _ t ht => by omega
  rintro activated t ⟨ht, hitems⟩
  refine calls_restLeft.mono ?_ fun _ u hu => by rw [hu]; omega
  rintro _ u ⟨hu, hitems'⟩
  split
  · refine (calls_reconcileSteps hS hc limit').mono (fun _ v hv => ?_) fun _ v hv => ?_
    all_goals
      rw [hu] at hv
      omega
  · rw [ends_pure, hu]
    omega

/-- Matching ends before the limits that processing sets, so higher ones make no difference. -/
theorem processWithin_eq (hS : S.Truthful) {limit limit' : Nat}
    (hl : s.state.book.itemCount + 2 ≤ limit) (hl' : s.state.book.itemCount + 2 ≤ limit') :
    processWithin S limit limit' r s = process S r s := by
  rw [process_eq, processWithin]
  refine Ends.bind_congr (ends_current.2 ?_)
  have hmatch : EndsWithin
      (matchRound S (s.state.order r).side (s.state.order r).user r)
      (s.state.book.itemCount + 2) s :=
    endsWithin_matchRound hS (by split <;> omega)
  have hlimit : s.state.book.itemCount + 2 ≤ processLimit S s.state := by
    unfold processLimit
    omega
  refine (bind_apply_congr (hmatch.matchIncoming_eq hl hlimit false) _).trans (Ends.bind_congr ?_)
  refine (calls_matchIncoming hS S.counts_nothing _ _).mono ?_ fun _ _ _ => trivial
  rintro activated t ⟨-, ht⟩
  refine Ends.bind_congr (calls_restLeft.mono ?_ fun _ _ _ => trivial)
  rintro _ u ⟨-, hu⟩
  cases activated with
  | false => rfl
  | true =>
    have hsteps : EndsWithin (reconcileRound S) (u.state.book.itemCount + 1) u :=
      endsWithin_reconcileRound hS (Nat.lt_succ_self _)
    exact hsteps.reconcileSteps_eq (by omega) le_rfl

/-! ## The end of matching -/

/-- A desk where the calls of settlement are recorded from here on. -/
def recording (d : Desk σ) : Desk (Recorded σ) :=
  ⟨⟨d.office.orders, ⟨d.office.backend, []⟩⟩, d.book⟩

/-- However long the loops of the book are let run from this state, they come to an end by
themselves, and with the limits that the book sets they do the same. -/
structure MatchingEnds (S : Settlement σ) (s : Logged (Desk σ)) : Prop where
  /-- Matching any order takes so many rounds at most. -/
  matching : ∀ side user r,
    EndsWithin (matchRound S side user r) (s.state.book.itemCount + 2) s
  /-- Reconciling takes so many rounds at most. -/
  reconciling : EndsWithin (reconcileRound S) (s.state.book.itemCount + 1) s
  /-- A search comes to an end within a round. -/
  searching : ∀ side exclude n, (s.state.book.queue side).size ≤ n →
    topMatching side exclude n [] s = findTop side exclude s
  /-- So does the collection of the stop-losses that a trade reaches. -/
  triggering : ∀ side price n, s.state.book.stopLossCount side ≤ n →
    takeReached side price n s = takeReached side price (s.state.book.stopLossCount side) s
  process : ∀ r limit limit', s.state.book.itemCount + 2 ≤ limit →
    s.state.book.itemCount + 2 ≤ limit' → processWithin S limit limit' r s = process S r s
  reconcile : ∀ limit, s.state.book.itemCount + 1 ≤ limit →
    reconcileSteps S limit s = reconcile S s
  /-- Processing an order makes at most so many calls to fill, also if it is broken off. -/
  calls : ∀ r, Ends (Desk.process S.recorded r) ⟨s.state.recording, s.journal⟩
    (fun _ t => t.state.office.backend.transcript.fills.length ≤ s.state.book.itemCount + 3)
    (fun _ t => t.state.office.backend.transcript.fills.length ≤ s.state.book.itemCount + 3)

/-- Matching ends, from any state of a book and with any truthful settlement. -/
theorem matching_ends (hS : S.Truthful) (s : Logged (Desk σ)) : MatchingEnds S s where
  matching _ _ _ := endsWithin_matchRound hS (by split <;> omega)
  reconciling := endsWithin_reconcileRound hS (Nat.lt_succ_self _)
  searching side exclude n hn := by
    induction n, hn using Nat.le_induction with
    | base => rfl
    | succ n hn ih => exact (topMatching_succ hn []).trans ih
  triggering side price n hn := by
    induction n, hn using Nat.le_induction with
    | base => rfl
    | succ n hn ih => exact (takeReached_succ hn).trans ih
  process _ _ _ hl hl' := processWithin_eq hS hl hl'
  reconcile limit hl := by
    have h : EndsWithin (reconcileRound S) (s.state.book.itemCount + 1) s :=
      endsWithin_reconcileRound hS (Nat.lt_succ_self _)
    exact h.reconcileSteps_eq hl le_rfl
  calls r := by
    have hlimits : processWithin S.recorded (s.state.book.itemCount + 2)
        (s.state.book.itemCount + 2) r ⟨s.state.recording, s.journal⟩ =
        Desk.process S.recorded r ⟨s.state.recording, s.journal⟩ :=
      processWithin_eq hS.recorded le_rfl le_rfl
    unfold Ends
    rw [← hlimits]
    have h := calls_processWithin (s := ⟨s.state.recording, s.journal⟩) (r := r) hS.recorded
      S.counts_recorded (s.state.book.itemCount + 2) (s.state.book.itemCount + 2)
    refine Ends.mono h (fun _ t ht => ?_) fun _ t ht => ?_
    all_goals
      refine ht.trans (Nat.add_le_add_right ?_ 3)
      exact (Nat.zero_add _).le

/-- Simulated settlement tells the truth, so matching ends where the asks of `ownCross` rest. -/
theorem matching_ends_on_ownCross :
    let s := (Session.ownCrossOpening.run [.load .ask ⟨0⟩, .load .ask ⟨1⟩]).desk
    s.state.book.itemCount = 2 ∧ Simulated.settlement.Truthful ∧
      MatchingEnds Simulated.settlement s := by
  intro s
  exact ⟨by decide +kernel, Simulated.truthful, matching_ends Simulated.truthful s⟩

end Bourse.Desk
