import Bourse.Proofs.Floor.Basic
import Bourse.Proofs.Floor.Stage

/-!
# Matching goes by steps

Whatever settlement answers, the code that matches does to a book what `Step` lists, and where it
breaks off it leaves what `Break` lists. There is one lemma for each function of the matching code.
It says which steps lead to the desk that the function ends with, and what is then in hand.
-/

namespace Bourse

open Bourse.Action

variable {σ α : Type} {S : Settlement σ} {st : Stage σ} {j : Array Event}

/-! ## What changes no queue -/

namespace Beside

variable {d d' d'' : Desk σ}

theorem refl (d : Desk σ) : Beside d d := ⟨rfl, fun _ => rfl, fun _ => rfl, rfl⟩

theorem trans (h : Beside d d') (h' : Beside d' d'') : Beside d d'' where
  office := h'.office.trans h.office
  queue s := (h'.queue s).trans (h.queue s)
  stopLossQueue s := (h'.stopLossQueue s).trans (h.stopLossQueue s)
  phase := h'.phase.trans h.phase

/-- Another last price, and another ledger. -/
theorem priced (d : Desk σ) (p : Price) (l : Ledger) :
    Beside d { d with book := { d.book with lastPrice := p, ledger := l } } :=
  ⟨rfl, fun s => Book.queue_withLastPrice d.book s p l,
    fun s => Book.stopLossQueue_withLastPrice d.book s p l, rfl⟩

end Beside

namespace Desk

open Stage

variable {s : Logged (Desk σ)} {ask bid r : OrderRef} {side : Side} {exclude : Option UserId}
  {price : Price}

/-- What the ledger does leaves all orders in their queues. -/
theorem beside_onLedger (act : Action Ledger α) :
    Ends (onLedger act) s (fun _ t => Beside s.state t.state)
    (fun _ t => Beside s.state t.state) := by
  rw [ends_onLedger]
  refine (Ends.any act _).mono ?_ ?_
  · exact fun _ t _ => .priced s.state s.state.book.lastPrice t.state
  · exact fun _ t _ => .priced s.state s.state.book.lastPrice t.state

/-- Recording a trade leaves all orders in their queues. -/
theorem beside_recordDeal (i : InstrumentId) (a b : OrderId) (trade : Option Trade) :
    Ends (recordDeal i a b trade) s (fun _ t => Beside s.state t.state)
      (fun _ t => Beside s.state t.state) := by
  refine ends_recordDeal fun k _ => (Ends.any (Ledger.recordDeal trade) _).mono ?_ ?_
  · exact fun _ t _ => .priced s.state _ t.state
  · exact fun _ t _ => .priced s.state s.state.book.lastPrice t.state

/-- Bringing the depth of one side in line leaves all orders in their queues. -/
theorem beside_settleShown (incoming : Option Side) (side : Side) (id : OrderId)
    (out : FillOutcome) :
    Ends (settleShown incoming side id out) s (fun _ t => Beside s.state t.state)
      (fun _ t => Beside s.state t.state) := by
  rw [ends_settleShown]
  refine (Ends.any (Ledger.settleShown incoming side id out) _).mono ?_ ?_
  · exact fun _ t _ => .priced s.state s.state.book.lastPrice t.state
  · exact fun _ t _ => .priced s.state s.state.book.lastPrice t.state

/-- Replaying trades leaves all orders in their queues. -/
theorem beside_loadTrades (trades : List Trade) :
    Ends (loadTrades trades) s (fun _ t => Beside s.state t.state)
      (fun _ t => Beside s.state t.state) := by
  simp only [loadTrades, replayTrades, ends_bind, ends_current, ends_log]
  refine Ends.mono (Ends.forM (P := fun _ t => Beside s.state t.state)
    (E := fun _ t => Beside s.state t.state) ?_ (Beside.refl _)) ?_ fun _ _ hf => hf
  · intro tr rest t ht
    exact (beside_onLedger _).mono (fun _ u hu => ht.trans hu) fun _ u hu => ht.trans hu
  · intro _ t ht
    split
    · exact ht.trans (.priced t.state _ t.state.book.ledger)
    · exact ht

/-- A withdrawal leaves all orders in their queues. -/
theorem beside_withdraw : Ends (withdraw side r) s (fun _ t => Beside s.state t.state)
    (fun _ t => Beside s.state t.state) := by
  simp only [Desk.withdraw, checkSide, ends_bind, ends_current, ends_pure]
  split
  · exact .refl _
  · simp only [ends_bind, ends_current]
    exact (beside_onLedger _).mono (fun _ t ht => ht) fun _ t ht => ht

end Desk

/-! ## Breaking off after steps -/

namespace Stage

/-- Some steps on, something breaks off and leaves this desk. -/
def Broke (S : Settlement σ) (st : Stage σ) (d : Desk (Recorded σ)) : Prop :=
  ∃ d' h, Steps S st (st.put d' h) ∧ Break S (st.put d' h) d

/-- What breaks off after some steps breaks off some steps on. -/
theorem Broke.after {d d' : Desk (Recorded σ)} {h : Hand} (hsteps : Steps S st (st.put d h))
    (hbroke : (st.put d h).Broke S d') : st.Broke S d' := by
  obtain ⟨d'', h', hsteps', hbreak⟩ := hbroke
  exact ⟨d'', h', hsteps.trans hsteps', hbreak⟩

/-- Where something breaks off, a path that may fall leads on. -/
theorem Broke.path {d : Desk (Recorded σ)} (hbroke : st.Broke S d)
    (waiting brought accepted : List OrderRef) :
    Path S true st ⟨d, .idle, waiting, brought, accepted⟩ := by
  obtain ⟨d', h, hsteps, hbreak⟩ := hbroke
  exact hsteps.path.tail (.inr (.inr ⟨rfl, .intro hbreak waiting brought accepted⟩))

end Stage

/-! ## One match step -/

namespace Desk

open Stage

variable {ask bid r : OrderRef} {side : Side} {exclude : Option UserId} {price : Price}

/-- A search is a sequence of steps that drop closed orders and set others aside. -/
theorem steps_findTop (st : Stage σ) (side : Side) (exclude : Option UserId)
    (hclear : st.hand.aside = []) :
    Ends (findTop side exclude) ⟨st.desk, j⟩
      (fun found t => (∃ dropped, Searched side exclude st.desk t.state dropped found.2) ∧
        Heads side exclude t.state found.1 ∧
        Steps S st (st.put t.state { st.hand with aside := found.2.map (side, ·) }))
      (fun _ t => st.Broke S t.state) := by
  have hdrop : Drops st.desk side (fun _ => True) True := fun _ _ _ _ _ _ =>
    Ledger.breaks_withdraw.mono (fun _ _ _ => trivial) fun _ _ hf => ⟨hf, trivial⟩
  have hfind : Ends (findTop side exclude) ⟨st.desk, j⟩ _ _ := ends_findTop hdrop trivial
  refine hfind.mono ?_ ?_
  · rintro found t ⟨dropped, hsearch, hheads, -⟩
    exact ⟨⟨dropped, hsearch⟩, hheads, .single (.search hclear hsearch)⟩
  · rintro f t ⟨-, -, dropped, new, hsearch⟩
    exact ⟨t.state, _, .single (.search hclear hsearch), .beside (.refl _)⟩

/-- A facing pair is filled, and the book follows: what the answer calls finished is so in the
record, and a trade makes stop-losses due. -/
theorem steps_makeTrade (st : Stage σ) (incoming : Option Side)
    (hfacing : Facing st.desk st.hand ask bid)
    (hcross : crosses (st.desk.order ask) (st.desk.order bid) = true)
    (hfired : st.hand.fired = []) (hdue : st.hand.due = []) :
    Ends (makeTrade S.recorded ask bid incoming) ⟨st.desk, j⟩
      (fun answer t => ∃ out, answer = Desk.answer (st.desk.order ask).id
        (st.desk.order bid).id out ∧
        (out.ask.isDone = true → t.state.office.backend.transcript.Finished ask) ∧
        (out.bid.isDone = true → t.state.office.backend.transcript.Finished bid) ∧
        Steps S st (st.put t.state { st.hand with due := Hand.dueAfter out.trade }))
      (fun _ t => st.Broke S t.state) := by
  rw [makeTrade_eq]
  simp only [ends_bind, ends_current, ends_onOffice, Settlement.ends_fill_recorded]
  refine (ends_leads _ _).mono ?_ ?_
  · intro out t hleads
    have hasked : Asked S st ⟨ask, bid, st.desk.dealPrice ask bid, _, st.orders, some out,
        t.state.orders⟩ t.state := ⟨hfacing, hcross, rfl, rfl, rfl, rfl, hleads⟩
    have hfill := Step.fill hasked rfl hfired hdue
    -- the ledger and the last price follow the answer
    have hbeside : ∀ u : Logged (Desk (Recorded σ)),
        Beside (st.desk.called (.fill ⟨ask, bid, st.desk.dealPrice ask bid, _, st.orders, some out,
          t.state.orders⟩) t.state) u.state →
        Steps S st (st.put u.state { st.hand with due := Hand.dueAfter out.trade }) :=
      fun u hu => .tail (.single hfill) (.beside hu)
    have hbroke : ∀ u : Logged (Desk (Recorded σ)),
        Beside (st.desk.called (.fill ⟨ask, bid, st.desk.dealPrice ask bid, _, st.orders, some out,
          t.state.orders⟩) t.state) u.state → st.Broke S u.state :=
      fun u hu => ⟨_, _, .single hfill, .beside hu⟩
    refine (beside_recordDeal _ _ _ _).mono ?_ fun _ u hu => hbroke u hu
    intro _ u hu
    refine (beside_settleShown _ _ _ _).mono ?_ fun _ v hv => hbroke v (hu.trans hv)
    intro _ v hv
    refine (beside_settleShown _ _ _ _).mono ?_ fun _ w hw => hbroke w ((hu.trans hv).trans hw)
    intro _ w hw
    have hw : Beside _ w.state := (hu.trans hv).trans hw
    refine ⟨out, rfl, ?_, ?_, hbeside w hw⟩
    · intro hdone
      rw [hw.office]
      exact ⟨_, List.mem_append_right _ (List.mem_singleton_self _), out, rfl, .inl ⟨rfl, hdone⟩⟩
    · intro hdone
      rw [hw.office]
      exact ⟨_, List.mem_append_right _ (List.mem_singleton_self _), out, rfl, .inr ⟨rfl, hdone⟩⟩
  · intro f t hleads
    exact ⟨st.desk, st.hand, .refl, .fill ⟨hfacing, hcross, rfl, rfl, rfl, rfl, hleads⟩ rfl⟩

/-- A finished order leaves its queue if it is on top. -/
theorem steps_popResting (st : Stage σ) (side : Side) (hfinished : st.log.Finished r) :
    Ends (popResting side r) ⟨st.desk, j⟩ (fun _ t => t.state.office = st.desk.office ∧
      Steps S st (st.put t.state st.hand)) (fun _ _ => False) := by
  simp only [popResting, ends_bind, ends_current]
  split
  · next hhead =>
    obtain ⟨i, hi, rfl⟩ : ∃ i, (st.desk.book.queue side).headItem? = some i ∧ i.order = r := by
      simpa [Queue.head?] using hhead
    rw [ends_changeQueue]
    have hpop : Step S st _ := .pop hi hfinished
    rw [withoutHead_ledger] at hpop
    exact ⟨rfl, .single hpop⟩
  · exact ⟨rfl, .refl⟩

/-- An order leaves its queue if it is finished, and what follows goes on from there. -/
theorem steps_popIf (st : Stage σ) {done : Bool} {next : Action (Desk (Recorded σ)) α}
    {Q : α → Logged (Desk (Recorded σ)) → Prop} {E : Failure → Logged (Desk (Recorded σ)) → Prop}
    (hfinished : done = true → st.log.Finished r)
    (hnext : ∀ t : Logged (Desk (Recorded σ)), t.state.office = st.desk.office →
      Steps S st (st.put t.state st.hand) → Ends next t Q E) :
    Ends (if done = true then popResting side r >>= fun _ => next else next) ⟨st.desk, j⟩ Q E := by
  split
  · next hdone =>
    rw [ends_bind]
    refine (steps_popResting (S := S) st side (hfinished hdone)).mono ?_ fun _ _ hf => hf.elim
    exact fun _ t ht => hnext t ht.1 ht.2
  · exact hnext ⟨st.desk, j⟩ rfl .refl

/-! ## Stop-losses -/

/-- The stop-losses of a side that a price reaches are activated, up to the first that is neither
closed nor reached. -/
theorem steps_takeReached (st : Stage σ) (n : Nat) (hdue : (side, price) ∈ st.hand.due)
    (hn : (st.desk.book.stopLossQueue side).size ≤ n) :
    Ends (takeReached side price n) ⟨st.desk, j⟩
      (fun rs t => Steps S st (st.put t.state { st.hand with fired := st.hand.fired ++ rs }) ∧
        ∀ i, (t.state.book.stopLossQueue side).headItem? = some i →
          (t.state.order i.order).closed = false ∧
          (t.state.order i.order).isReachedBy price = false)
      (fun _ _ => False) := by
  have hnil : ∀ h : Hand, { h with fired := h.fired ++ [] } = h := fun h => by rw [List.append_nil]
  induction n generalizing st j with
  | zero =>
    refine ⟨by rw [hnil]; exact .refl, ?_⟩
    intro i hi
    exact absurd (Queue.size_pos_of_headItem? hi) (Nat.not_lt.2 hn)
  | succ n ih =>
    simp only [takeReached, ends_bind, ends_current, Queue.popIf]
    have hsize : ((st.desk.withoutDormant side).book.stopLossQueue side).size ≤ n := by
      rw [stopLossQueue_withoutDormant, Queue.size_dropHead]
      omega
    cases hhead : (st.desk.book.stopLossQueue side).headItem? with
    | none =>
      refine ⟨by rw [hnil]; exact .refl, fun i hi => ?_⟩
      cases hhead.symm.trans hi
    | some head =>
      by_cases hpop : ((st.desk.order head.order).closed ||
          (st.desk.order head.order).isReachedBy price) = true
      · simp only [hpop, if_true, ends_bind, ends_changeStopLossQueue]
        split
        · next hc =>
          rw [ends_bind, ends_log]
          have hdrop : Step S st (st.put (st.desk.withoutDormant side) st.hand) := .drop hhead hc
          refine (ih (st.put (st.desk.withoutDormant side) st.hand) hdue hsize).imp ?_
          exact fun rs t ht => ⟨.head hdrop ht.1, ht.2⟩
        · next hc =>
          have hc : (st.desk.order head.order).closed = false := by simpa using hc
          rw [hc, Bool.false_or] at hpop
          have htake : Step S st _ := .take hdue hhead hc hpop
          simp only [ends_bind, ends_onOffice, Office.onOrders, ends_within,
            ends_change, ends_pure]
          refine (ih (st.put { st.desk.withoutDormant side with
            office := st.desk.office.activated head.order }
            { st.hand with fired := st.hand.fired ++ [head.order] }) hdue hsize).imp ?_
          rintro rs t ⟨hsteps, hnext⟩
          refine ⟨.head htake ?_, hnext⟩
          rw [List.append_cons st.hand.fired head.order rs]
          exact hsteps
      · simp only [hpop, Bool.false_eq_true, if_false]
        refine ⟨by rw [hnil]; exact .refl, ?_⟩
        intro i hi
        cases hhead.symm.trans hi
        simpa using hpop

/-- An activated stop-loss is reported and joins the resting orders. -/
theorem steps_promote {rest : List OrderRef} (st : Stage σ) (price : Price)
    (hfired : st.hand.fired = r :: rest) (hdue : st.hand.due = []) :
    Ends (promote S.recorded price r) ⟨st.desk, j⟩
      (fun _ t => Steps S st (st.put t.state { st.hand with fired := rest }))
      (fun _ t => st.Broke S t.state) := by
  simp only [promote, ends_bind, ends_current, ends_log, ends_onOffice,
    Settlement.ends_stopLossTriggered_recorded]
  refine (ends_leads _ _).mono ?_ ?_
  · exact fun _ t hleads => .single (.promote hfired hdue hleads)
  · exact fun f t hleads => ⟨st.desk, st.hand, .refl, .promote hleads⟩

/-- The stop-losses that were activated join the resting orders step by step. -/
theorem steps_promoteAll (st : Stage σ) (price : Price) (rs : List OrderRef)
    (hfired : st.hand.fired = rs) (hdue : st.hand.due = []) :
    Ends (rs.forM (promote S.recorded price)) ⟨st.desk, j⟩
      (fun _ t => Steps S st (st.put t.state { st.hand with fired := [] }))
      (fun _ t => st.Broke S t.state) := by
  induction rs generalizing st j with
  | nil =>
    have hsame : { st.hand with fired := [] } = st.hand := by rw [← hfired]
    show Steps S st (st.put st.desk { st.hand with fired := [] })
    rw [hsame]
    exact .refl
  | cons r rest ih =>
    refine (steps_promote st price hfired hdue).bind ?_
    intro _ t hsteps
    refine (ih (st.put t.state { st.hand with fired := rest }) rfl hdue).mono ?_ ?_
    · exact fun _ u hu => hsteps.trans hu
    · exact fun _ u hu => hu.after hsteps

/-- The stop-losses that a trade makes due are activated and join the resting orders. -/
theorem steps_triggerStopLosses (st : Stage σ) {trade : Trade} (hfired : st.hand.fired = [])
    (hdue : st.hand.due = Hand.dueAfter (some trade)) :
    Ends (triggerStopLosses S.recorded trade.price) ⟨st.desk, j⟩
      (fun _ t => Steps S st (st.put t.state { st.hand with due := [] }))
      (fun _ t => st.Broke S t.state) := by
  simp only [triggerStopLosses, ends_bind, ends_current]
  refine (steps_takeReached (S := S) st _ (hdue ▸ List.mem_cons_self) le_rfl).mono ?_
    fun _ _ hf => hf.elim
  rintro asks t ⟨hasks, hhead⟩
  have hasks := hasks.tail (.settle hdue hhead)
  refine (steps_takeReached (S := S) (st.put t.state
    ⟨st.hand.newcomer, st.hand.aside, st.hand.fired ++ asks, [(.bid, trade.price)]⟩) _
    List.mem_cons_self le_rfl).mono ?_ fun _ _ hf => hf.elim
  rintro bids u ⟨hbids, hhead⟩
  have hbids := hasks.trans (hbids.tail (.settle rfl hhead))
  refine (steps_promoteAll (S := S) (st.put u.state
    ⟨st.hand.newcomer, st.hand.aside, (st.hand.fired ++ asks) ++ bids, []⟩) trade.price
    (asks ++ bids) ?_ rfl).mono ?_ fun _ v hv => hv.after hbids
  · show (st.hand.fired ++ asks) ++ bids = asks ++ bids
    rw [hfired, List.nil_append]
  · intro _ v hv
    have hv := hbids.trans hv
    rwa [← hfired] at hv

/-- What a trade triggers is a sequence of steps that leaves nothing due. -/
theorem steps_triggerAfter (st : Stage σ) {trade : Option Trade} (hfired : st.hand.fired = [])
    (hdue : st.hand.due = Hand.dueAfter trade) :
    Ends (triggerAfter S.recorded trade) ⟨st.desk, j⟩
      (fun _ t => Steps S st (st.put t.state { st.hand with due := [] }))
      (fun _ t => st.Broke S t.state) := by
  cases trade with
  | none =>
    have hsame : { st.hand with due := [] } = st.hand := by rw [← show st.hand.due = [] from hdue]
    show Steps S st (st.put st.desk { st.hand with due := [] })
    rw [hsame]
    exact .refl
  | some t => exact steps_triggerStopLosses st hfired hdue

/-! ## Rounds -/

/-- The end of a round: what was set aside is put back, and what the trade reaches joins in. -/
theorem steps_endRound (st : Stage σ) {aside : List Item} {trade : Option Trade}
    (haside : st.hand.aside = aside.map (side, ·)) (hfired : st.hand.fired = [])
    (hdue : st.hand.due = Hand.dueAfter trade) (goesOn : Bool) :
    Ends (restore side aside >>= fun _ => triggerAfter S.recorded trade >>= fun fired =>
        pure (⟨fired, goesOn⟩ : RoundResult)) ⟨st.desk, j⟩
      (fun _ t => Steps S st (st.put t.state { st.hand with aside := [], due := [] }))
      (fun _ t => st.Broke S t.state) := by
  simp only [ends_bind, ends_restore]
  have hrestore :
      Steps S st (st.put (st.desk.withItems side aside) { st.hand with aside := [] }) :=
    .single (.restore haside)
  refine (steps_triggerAfter (st.put (st.desk.withItems side aside) { st.hand with aside := [] })
    hfired hdue).mono ?_ ?_
  · exact fun _ t ht => hrestore.trans ht
  · exact fun _ t ht => ht.after hrestore

/-- A round of matching an incoming order. -/
theorem steps_matchRound (st : Stage σ) (d : Desk (Recorded σ)) (n : Newcomer) :
    Ends (matchRound S.recorded n.side n.user n.order) ⟨d, j⟩
      (fun _ t => Steps S (st.put d (.holding (some n))) (st.put t.state (.holding (some n))))
      (fun _ t => (st.put d (.holding (some n))).Broke S t.state) := by
  simp only [matchRound, ends_bind, ends_current]
  split
  · exact .refl
  next hopen =>
  have hopen : (d.order n.order).isOpen = true := by simpa using hopen
  simp only [ends_bind]
  refine (steps_findTop (st.put d (.holding (some n))) n.side.opposite (some n.user) rfl).imp ?_
  rintro ⟨top, aside⟩ t ⟨⟨dropped, hsearch⟩, hheads, hsteps⟩
  have hrestored := hsteps.tail (.restore rfl)
  cases top with
  | none => exact hrestored
  | some resting =>
    obtain ⟨i, hi, rfl, he⟩ := hheads
    simp only [ends_bind, ends_current]
    split
    · exact hrestored
    next hc =>
    have hc : crosses (t.state.order (pair n.side n.order i.order).1)
        (t.state.order (pair n.side n.order i.order).2) = true := by simpa using hc
    have hfacing : Facing t.state ⟨some n, aside.map (n.side.opposite, ·), [], []⟩ _ _ :=
      .incoming rfl (hsearch.order n.order ▸ hopen) hi he
    rw [ends_bind]
    refine (steps_makeTrade (st.put t.state ⟨some n, aside.map (n.side.opposite, ·), [], []⟩)
      (some n.side) hfacing hc rfl rfl).mono ?_ fun _ _ hf => hf.after hsteps
    rintro _ u ⟨out, rfl, hask, hbid, hfill⟩
    have hfilled := hsteps.trans hfill
    -- the end of the round, from wherever it is entered
    have hend : ∀ (v : Logged (Desk (Recorded σ))) (goesOn : Bool),
        Steps S (st.put d (.holding (some n)))
          (st.put v.state ⟨some n, aside.map (n.side.opposite, ·), [], Hand.dueAfter out.trade⟩) →
        Ends (restore n.side.opposite aside >>= fun _ => triggerAfter S.recorded out.trade >>=
            fun fired => pure (⟨fired, goesOn⟩ : RoundResult)) v
          (fun _ w => Steps S (st.put d (.holding (some n))) (st.put w.state (.holding (some n))))
          (fun _ w => (st.put d (.holding (some n))).Broke S w.state) := by
      intro v goesOn hv
      refine (steps_endRound (st.put v.state ⟨some n, aside.map (n.side.opposite, ·), [],
        Hand.dueAfter out.trade⟩) rfl rfl rfl goesOn).mono ?_ fun _ _ hf => hf.after hv
      exact fun _ w hw => hv.trans hw
    by_cases hsome : (out.ask.isDone || out.bid.isDone) = true
    · simp only [answer, hsome, if_true]
      refine steps_popIf (S := S) (st.put u.state ⟨some n, aside.map (n.side.opposite, ·), [],
        Hand.dueAfter out.trade⟩) ?_ fun v _ hv => hend v true (hfilled.trans hv)
      obtain ⟨r, side, user⟩ := n
      cases side
      · exact hbid
      · exact hask
    · simp only [answer, hsome, Bool.false_eq_true, if_false]
      rw [ends_bind, ends_log]
      exact hend _ false hfilled

/-- A round of matching resting orders with each other. -/
theorem steps_reconcileRound (st : Stage σ) (d : Desk (Recorded σ)) :
    Ends (reconcileRound S.recorded) ⟨d, j⟩
      (fun _ t => Steps S (st.put d .idle) (st.put t.state .idle))
      (fun _ t => (st.put d .idle).Broke S t.state) := by
  simp only [reconcileRound, ends_bind]
  refine (steps_findTop (st.put d .idle) .ask none rfl).imp ?_
  rintro ⟨top, skipped⟩ t ⟨⟨dropped, hasks⟩, hheads, hsteps⟩
  obtain rfl : skipped = [] := hasks.aside_eq_nil
  cases top with
  | none => exact hsteps
  | some ask =>
    obtain ⟨i, hi, rfl, hei⟩ := hheads
    simp only [ends_bind, ends_current]
    refine (steps_findTop (st.put t.state .idle) .bid
      (some (t.state.order i.order).user) rfl).mono ?_
      fun _ _ hf => hf.after hsteps
    rintro ⟨top, aside⟩ u ⟨⟨dropped', hbids⟩, hheads, hsteps'⟩
    have hsteps := hsteps.trans hsteps'
    have hrestored := hsteps.tail (.restore rfl)
    cases top with
    | none => exact hrestored
    | some bid =>
      obtain ⟨k, hk, rfl, hek⟩ := hheads
      simp only [ends_bind, ends_current]
      split
      · exact hrestored
      next hc =>
      have hc : crosses (u.state.order i.order) (u.state.order k.order) = true := by simpa using hc
      have hqueue : u.state.book.queue .ask = t.state.book.queue .ask :=
        hbids.queue_of_ne (by decide)
      have hfacing : Facing u.state ⟨none, aside.map (.bid, ·), [], []⟩ i.order k.order :=
        .resting rfl (hqueue ▸ hi) (hbids.order i.order ▸ hei.1) hk (hbids.order i.order ▸ hek)
      rw [ends_bind]
      refine (steps_makeTrade (st.put u.state ⟨none, aside.map (.bid, ·), [], []⟩) none
        hfacing hc rfl rfl).mono ?_ fun _ _ hf => hf.after hsteps
      rintro _ v ⟨out, rfl, hask, hbid, hfill⟩
      have hfilled := hsteps.trans hfill
      -- the end of the round, from wherever it is entered
      have hend : ∀ (v : Logged (Desk (Recorded σ))) (goesOn : Bool),
          Steps S (st.put d .idle)
            (st.put v.state ⟨none, aside.map (.bid, ·), [], Hand.dueAfter out.trade⟩) →
          Ends (restore .bid aside >>= fun _ => triggerAfter S.recorded out.trade >>=
              fun fired => pure (⟨fired, goesOn⟩ : RoundResult)) v
            (fun _ w => Steps S (st.put d .idle) (st.put w.state .idle))
            (fun _ w => (st.put d .idle).Broke S w.state) := by
        intro v goesOn hv
        refine (steps_endRound (st.put v.state ⟨none, aside.map (.bid, ·), [],
          Hand.dueAfter out.trade⟩) rfl rfl rfl goesOn).mono ?_ fun _ _ hf => hf.after hv
        exact fun _ w hw => hv.trans hw
      by_cases hsome : (out.ask.isDone || out.bid.isDone) = true
      · simp only [answer, hsome, if_true]
        refine steps_popIf (S := S) (st.put v.state ⟨none, aside.map (.bid, ·), [],
          Hand.dueAfter out.trade⟩) hask ?_
        intro w hw hasked
        refine steps_popIf (S := S) (st.put w.state ⟨none, aside.map (.bid, ·), [],
          Hand.dueAfter out.trade⟩) (fun hdone => ?_) fun x _ hx =>
          hend x true ((hfilled.trans hasked).trans hx)
        show w.state.office.backend.transcript.Finished k.order
        rw [hw]
        exact hbid hdone
      · simp only [answer, hsome, Bool.false_eq_true, if_false]
        rw [ends_bind, ends_log]
        exact hend _ false hfilled

/-! ## Processing -/

/-- Matching an order is a sequence of steps, by induction on the limit. -/
theorem steps_matchIncoming (st : Stage σ) (d : Desk (Recorded σ)) (n : Newcomer) (limit : Nat)
    (activated : Bool) :
    Ends (matchIncoming S.recorded n.side n.user n.order limit activated) ⟨d, j⟩
      (fun _ t => Steps S (st.put d (.holding (some n))) (st.put t.state (.holding (some n))))
      (fun _ t => (st.put d (.holding (some n))).Broke S t.state) := by
  induction limit generalizing d j activated with
  | zero => exact ⟨d, _, .refl, .beside (.refl _)⟩
  | succ limit ih =>
    rw [matchIncoming_succ]
    refine (steps_matchRound st d n).bind ?_
    intro result t hsteps
    split
    · refine (ih t.state _).mono ?_ ?_
      · exact fun _ u hu => hsteps.trans hu
      · exact fun _ u hu => hu.after hsteps
    · exact hsteps

/-- Reconciling is a sequence of steps. -/
theorem steps_reconcile (st : Stage σ) (d : Desk (Recorded σ)) :
    Ends (reconcile S.recorded) ⟨d, j⟩
      (fun _ t => Steps S (st.put d .idle) (st.put t.state .idle))
      (fun _ t => (st.put d .idle).Broke S t.state) := by
  simp only [reconcile, ends_bind, ends_current]
  generalize d.book.itemCount + 1 = limit
  induction limit generalizing d j with
  | zero => exact ⟨d, _, .refl, .beside (.refl _)⟩
  | succ limit ih =>
    rw [reconcileSteps_succ]
    refine (steps_reconcileRound st d).bind ?_
    intro result t hsteps
    split
    · refine (ih t.state).mono ?_ ?_
      · exact fun _ u hu => hsteps.trans hu
      · exact fun _ u hu => hu.after hsteps
    · exact hsteps

/-- An order that came in rests, whether it is open or not. -/
theorem steps_rest (st : Stage σ) (d : Desk (Recorded σ)) (n : Newcomer) :
    Ends (rest n.side n.order) ⟨d, j⟩
      (fun _ t => Steps S (st.put d (.holding (some n))) (st.put t.state .idle) ∧
        t.state.book.phase = d.book.phase)
      (fun _ t => (st.put d (.holding (some n))).Broke S t.state ∧
        t.state.book.phase = d.book.phase) := by
  have hphase : ∀ l, (d.rested n.side n.order l).book.phase = d.book.phase := fun l =>
    phase_withItems d n.side _
  have hrest : Ends (rest n.side n.order) ⟨d, j⟩ _ _ :=
    ends_rest (P := fun _ => True) (B := True) fun _ =>
      Ledger.breaks_add.mono (fun _ _ _ => trivial) fun _ _ hf => ⟨hf, trivial⟩
  refine hrest.mono ?_ ?_
  · rintro _ ⟨t, k⟩ ⟨l, -, rfl⟩
    exact ⟨.single (.rest rfl), hphase l⟩
  · rintro f ⟨t, k⟩ ⟨-, -, l, rfl⟩
    exact ⟨⟨_, .idle, .single (.rest (l := l) rfl), .beside (.refl _)⟩, hphase l⟩

/-- The newcomer that an order is when it comes in now. -/
def newcomer (d : Desk σ) (r : OrderRef) : Newcomer := ⟨r, (d.order r).side, (d.order r).user⟩

/-- Processing an order is a sequence of steps, at the end of which nobody holds it. -/
theorem steps_process (st : Stage σ) (d : Desk (Recorded σ)) (r : OrderRef) :
    Ends (process S.recorded r) ⟨d, j⟩
      (fun _ t => Steps S (st.put d (.holding (some (d.newcomer r)))) (st.put t.state .idle))
      (fun _ t => (st.put d (.holding (some (d.newcomer r)))).Broke S t.state) := by
  rw [process_eq]
  simp only [ends_bind, ends_current]
  refine (steps_matchIncoming st d (d.newcomer r) _ false).imp ?_
  intro activated t hsteps
  have hleft : Ends (restLeft (d.order r).side r) t
      (fun _ u => Steps S (st.put d (.holding (some (d.newcomer r)))) (st.put u.state .idle))
      (fun _ u => (st.put d (.holding (some (d.newcomer r)))).Broke S u.state) := by
    simp only [restLeft, ends_bind, ends_current]
    split
    · refine (steps_rest (S := S) st t.state (d.newcomer r)).mono ?_ ?_
      · exact fun _ u hu => hsteps.trans hu.1
      · exact fun _ u hu => hu.1.after hsteps
    · next hopen =>
      have hopen : (t.state.order r).isOpen = false := by simpa using hopen
      exact hsteps.tail (.leave rfl hopen)
  refine hleft.imp ?_
  intro _ u hu
  split
  · refine (steps_reconcile st u.state).mono ?_ ?_
    · exact fun _ v hv => hu.trans hv
    · exact fun _ v hv => hv.after hu
  · exact hu

/-- Matching an order goes by steps, or the book has crashed. -/
theorem steps_runTask (st : Stage σ) (d : Desk (Recorded σ)) (r : OrderRef) :
    Ends (runTask S.recorded r) ⟨d, j⟩
      (fun _ t => Steps S (st.put d (.holding (some (d.newcomer r)))) (st.put t.state .idle) ∨
        t.state.book.phase.isCrashed = true ∧ ∀ waiting brought accepted,
          Path S true (st.put d (.holding (some (d.newcomer r))))
            ⟨t.state, .idle, waiting, brought, accepted⟩)
      (fun _ _ => False) := by
  simp only [runTask, ends_bind, ends_attempt]
  refine (steps_process st d r).mono ?_ ?_
  · exact fun _ t ht => .inl ht
  · intro f t hf
    exact .inr ⟨rfl, fun waiting brought accepted =>
      (hf.path waiting brought accepted).trans (Turn.enter (p := .crashed f)).path⟩

end Desk

/-- Matching leaves the phase of the book to its caller. -/
theorem Step.phase {st st' : Stage σ} (h : Step S st st') :
    st'.desk.book.phase = st.desk.book.phase := by
  cases h with
  | beside h => exact h.phase
  | search clear searched => exact searched.phase
  | fill asked answered fired due => rfl
  | pop head finished => exact Desk.phase_withoutHead ..
  | restore aside => exact Desk.phase_withItems ..
  | drop head closed => exact Book.phase_withStopLossQueue ..
  | take due head closed reached => exact Book.phase_withStopLossQueue ..
  | settle due head => rfl
  | promote fired due leads => exact Desk.phase_withItems ..
  | rest newcomer => exact Desk.phase_withItems ..
  | leave newcomer finished => rfl

theorem Steps.phase {st st' : Stage σ} (h : Steps S st st') :
    st'.desk.book.phase = st.desk.book.phase := by
  induction h with
  | refl => rfl
  | tail _ h ih => exact h.phase.trans ih

end Bourse
