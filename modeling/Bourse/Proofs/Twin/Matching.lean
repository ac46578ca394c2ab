import Bourse.Proofs.Twin.Search

/-!
# Matching on desks that match the same

Matching goes on side by side on twin desks: the same trades are made and the same stop-losses
activated, and the desks are twins again. There is one lemma for each function of the matching
code. Stop-losses that are gone are dropped by the first desk alone
(`Desk.Twin.paired_takeReached`).
-/

namespace Bourse

open Bourse.Action

namespace Desk

variable {lax : Bool} {aside aside' : Multiset Item} {hand hand' : Multiset OrderId}
  {items : List Item} {s s' : Logged (Desk Simulated)} {d d' : Desk Simulated} {side : Side}
  {r : OrderRef}

/-! ## One match step -/

/-- A match step leaves the queues as they are. -/
theorem queue_makeTrade {ask bid : OrderRef} {incoming : Option Side}
    (s : Logged (Desk Simulated)) : Ends (makeTrade Simulated.settlement ask bid incoming) s
      (fun _ t => ∀ side, t.state.book.queue side = s.state.book.queue side)
      (fun _ _ => True) := by
  rw [makeTrade_eq]
  simp only [ends_bind, ends_current, ends_onOffice]
  refine (Ends.any _ _).mono ?_ fun _ _ _ => trivial
  intro out t _
  refine (beside_recordDeal _ _ _ _).mono ?_ fun _ _ _ => trivial
  intro _ u hu
  refine (beside_settleShown _ _ _ _).mono ?_ fun _ _ _ => trivial
  intro _ v hv
  refine (beside_settleShown _ _ _ _).mono ?_ fun _ _ _ => trivial
  exact fun _ w hw side => ((hw.queue side).trans (hv.queue side)).trans (hu.queue side)

namespace Twin

/-- Bringing the depth of an order in line with an outcome. -/
theorem paired_settleDepth (h : Twin lax aside hand s.state s'.state) (id : OrderId)
    (status : FillStatus) (trade : Option Trade) :
    Paired (settleDepth id status trade) (settleDepth id status trade) s s'
      (fun _ => Twin lax aside hand) (Twin lax 0 hand) := by
  have hdone : ∀ t t' : Logged (Desk Simulated), Twin lax aside hand t.state t'.state →
      Paired (if status.isDone then onLedger (Ledger.withdraw id) else pure ())
        (if status.isDone then onLedger (Ledger.withdraw id) else pure ()) t t'
        (fun _ => Twin lax aside hand) (Twin lax 0 hand) := by
    intro t t' ht
    split
    · exact (ht.paired_withdraw id).mono (fun _ _ _ hu => hu.1) fun _ _ hu => hu
    · exact paired_pure ht
  cases trade with
  | none => exact hdone s s' h
  | some t =>
    refine (h.paired_onLedger (fun _ _ => Ledger.paired_reduce) Ledger.hides_reduce).bind ?_
    exact fun _ t t' ht => hdone t t' ht.1

/-- Bringing the depth of one side in line does the same to twins. -/
theorem paired_settleShown (h : Twin lax aside hand s.state s'.state) (incoming : Option Side)
    (side : Side) (id : OrderId) (out : FillOutcome) :
    Paired (settleShown incoming side id out) (settleShown incoming side id out) s s'
      (fun _ => Twin lax aside hand) (Twin lax 0 hand) := by
  unfold settleShown
  split
  · exact h.paired_settleDepth id _ _
  · exact paired_pure h

/-- Recording a trade does the same to twins. -/
theorem paired_recordDeal (h : Twin lax aside hand s.state s'.state) (i : InstrumentId)
    (a b : OrderId) (trade : Option Trade) :
    Paired (recordDeal i a b trade) (recordDeal i a b trade) s s' (fun _ => Twin lax aside hand)
      (Twin lax 0 hand) := by
  cases trade with
  | none => exact paired_pure h
  | some tr =>
    simp only [recordDeal]
    refine paired_log_bind fun t t' ht ht' => ?_
    have h : Twin lax aside hand t.state t'.state := ht ▸ ht' ▸ h
    refine (h.paired_onLedger (fun _ _ => Ledger.paired_recordTrade)
      Ledger.hides_recordTrade).bind ?_
    rintro _ u u' ⟨hu, -⟩
    exact paired_change (hu.priced tr.price)

/-- A pair is settled on both desks, with the same outcome. -/
theorem paired_makeTrade (h : Twin lax aside hand s.state s'.state) (ask bid : OrderRef)
    (incoming : Option Side) :
    Paired (makeTrade Simulated.settlement ask bid incoming)
      (makeTrade Simulated.settlement ask bid incoming) s s'
      (fun _ t t' => Twin lax aside hand t t' ∧
        ∀ side, t.book.queue side = s.state.book.queue side ∧
          t'.book.queue side = s'.state.book.queue side) (Twin lax 0 hand) := by
  have htrade : Paired (makeTrade Simulated.settlement ask bid incoming)
      (makeTrade Simulated.settlement ask bid incoming) s s' (fun _ => Twin lax aside hand)
      (Twin lax 0 hand) := by
    rw [makeTrade_eq]
    refine paired_current ?_
    simp only [dealPrice, h.order, h.lastPrice, h.instrument]
    refine Paired.bind (h.paired_onOffice (Simulated.unread_settle _ _ _ _)
      ((Simulated.retains_settle _ _ _ _ _).mono (fun _ _ ho => ho.follow) fun _ _ ho =>
        ho.follow)) ?_
    rintro out t t' ⟨ht, -⟩
    refine (ht.paired_recordDeal _ _ _ _).bind fun _ u u' hu => ?_
    refine (hu.paired_settleShown _ _ _ _).bind fun _ v v' hv => ?_
    exact (hv.paired_settleShown _ _ _ _).bind fun _ w w' hw => paired_pure hw
  have hleft := htrade.andLeft (E := fun _ => True)
    (P := fun _ t => ∀ side, t.book.queue side = s.state.book.queue side) (queue_makeTrade s)
  have hboth := hleft.andRight (E := fun _ => True)
    (P := fun _ t => ∀ side, t.book.queue side = s'.state.book.queue side) (queue_makeTrade s')
  exact hboth.mono (fun _ _ _ ⟨⟨ht, hq⟩, hq'⟩ => ⟨ht, fun side => ⟨hq side, hq' side⟩⟩)
    fun _ _ hb => hb.1.1

end Twin

/-! ## Stop-losses -/

/-- In an empty queue no stop-loss is reached. -/
theorem takeReached_of_empty {price : Price} {n : Nat}
    (h : (s.state.book.stopLossQueue side).headItem? = none) :
    takeReached side price n s = .ok [] s := by
  refine ends_eq_ok.1 ?_
  cases n with
  | zero => exact ⟨rfl, rfl⟩
  | succ n =>
    simp only [takeReached, ends_bind, ends_current, Queue.popIf, h]
    exact ⟨rfl, rfl⟩

/-- Without its head a queue of dormant stop-losses is within one step less. -/
theorem size_stopLossQueue_dropHead {b : Book} {n : Nat}
    (h : (b.stopLossQueue side).size ≤ n + 1) :
    ((b.withStopLossQueue (b.stopLossQueue side).dropHead side).stopLossQueue side).size ≤ n := by
  rw [Book.stopLossQueue_withStopLossQueue, if_pos rfl, Queue.size_dropHead]
  omega

namespace Twin

/-- The stop-losses of a side that a price reaches are taken on both desks, the same in the same
order. They are in hand then. -/
theorem paired_takeReached {price : Price} {n n' : Nat} (h : Twin lax aside hand s.state s'.state)
    (hn : (s.state.book.stopLossQueue side).size ≤ n)
    (hn' : (s'.state.book.stopLossQueue side).size ≤ n') :
    Paired (takeReached side price n) (takeReached side price n') s s'
      (fun rs t t' => ∃ taken : List Item, rs = taken.map (·.order) ∧
        Twin lax (aside + taken) hand t t') (Twin lax 0 hand) := by
  have hnone : ∀ {aside d d'}, Twin lax aside hand d d' →
      ∃ taken : List Item, [] = taken.map (·.order) ∧ Twin lax (aside + taken) hand d d' :=
    fun h => ⟨[], rfl, by rwa [Multiset.coe_nil, add_zero]⟩
  induction n generalizing n' aside s s' with
  | zero =>
    have hempty := Queue.headItem?_of_size (Nat.le_zero.1 hn)
    exact paired_of_ok (takeReached_of_empty hempty)
      (takeReached_of_empty ((h.dormant side).headItem?_eq_none hempty)) (hnone h)
  | succ n ih =>
    cases hh : (s.state.book.stopLossQueue side).headItem? with
    | none =>
      exact paired_of_ok (takeReached_of_empty hh)
        (takeReached_of_empty ((h.dormant side).headItem?_eq_none hh)) (hnone h)
    | some head =>
    have hsize := size_stopLossQueue_dropHead hn
    rcases h.dormantHead_cases hh with ⟨hh', hdrop⟩ | ⟨hgone, hdrop⟩
    · -- both queues have the head
      obtain ⟨n', rfl⟩ := Nat.exists_eq_add_one.2 ((Queue.size_pos_of_headItem? hh').trans_le hn')
      have hsize' := size_stopLossQueue_dropHead hn'
      simp only [takeReached]
      refine paired_current ?_
      simp only [Queue.popIf, hh, hh', h.order]
      by_cases hpop : ((s.state.order head.order).closed ||
          (s.state.order head.order).isReachedBy price) = true
      · simp only [hpop, if_true]
        split
        · refine Paired.bind (R := fun _ t t' => Twin lax aside hand t t' ∧
            (t.book.stopLossQueue side).size ≤ n ∧ (t'.book.stopLossQueue side).size ≤ n')
            (paired_changeStopLossQueue ⟨hdrop _ (.inl rfl), hsize, hsize'⟩) ?_
          rintro _ t t' ⟨ht, hsize, hsize'⟩
          exact paired_log_bind fun u u' hu hu' => ih (hu ▸ hu' ▸ ht) (hu ▸ hsize) (hu' ▸ hsize')
        · refine Paired.bind (R := fun _ t t' => Twin lax (aside + {head}) hand t t' ∧
            (t.book.stopLossQueue side).size ≤ n ∧ (t'.book.stopLossQueue side).size ≤ n')
            (paired_changeStopLossQueue ⟨hdrop _ (.inr rfl), hsize, hsize'⟩) ?_
          rintro _ t t' ⟨ht, hsize, hsize'⟩
          refine Paired.bind (ht.paired_onOffice (unread_change _).within
            (Orders.follow_modify Order.follows_activateStopLoss)) ?_
          rintro _ u u' ⟨hu, hbook, hbook'⟩
          refine (ih hu (hbook ▸ hsize) (hbook' ▸ hsize')).bind ?_
          rintro _ v v' ⟨taken, rfl, hv⟩
          refine paired_pure ⟨head :: taken, rfl, ?_⟩
          rwa [← Multiset.cons_coe, ← Multiset.singleton_add, ← add_assoc]
      · simp only [hpop, Bool.false_eq_true, if_false]
        exact paired_pure (hnone h)
    · -- the head of the first queue is gone
      have hclosed := hgone.2.1
      simp only [takeReached]
      refine Paired.left ?_
      simp only [ends_current, Queue.popIf, hh, hclosed, Bool.true_or, if_true]
      refine Paired.left ?_
      rw [ends_changeStopLossQueue]
      refine Paired.left ?_
      rw [ends_log]
      exact ih hdrop hsize hn'

/-- An order comes into the queues of resting orders of a side. Its number was taken before. -/
theorem push (h : Twin lax aside hand d d') (side : Side) (r : OrderRef) (haside : aside' ≤ aside)
    (hnumber : (d.order r).id ::ₘ (aside'.map (·.id) + hand') ≤ aside.map (·.id) + hand) :
    Twin lax aside' hand'
      { d with book := d.book.withQueue ((d.book.queue side).push r (d.order r)) side }
      { d' with book := d'.book.withQueue ((d'.book.queue side).push r (d.order r)) side } := by
  refine h.withQueue ((h.queue side).pushItem _) ?_ (Queue.numbers_push hnumber _ _)
  intro j hj
  rcases Queue.mem_push haside _ _ hj with hj | rfl
  · exact .inl hj
  · exact .inr rfl

/-- A stop-loss that was taken joins the resting orders. -/
theorem paired_promote {price : Price} {i : Item}
    (h : Twin lax (aside + {i}) hand s.state s'.state) :
    Paired (promote Simulated.settlement price i.order)
    (promote Simulated.settlement price i.order)
      s s' (fun _ => Twin lax aside hand) (Twin lax 0 hand) := by
  simp only [promote]
  refine paired_current (paired_log_bind fun t t' ht ht' => ?_)
  have h : Twin lax (aside + {i}) hand t.state t'.state := ht ▸ ht' ▸ h
  rw [← ht, ← ht', h.order]
  refine Paired.bind (h.paired_onOffice (Simulated.unread_noteStopLoss _)
    ((Simulated.retains_noteStopLoss _ _).mono (fun _ _ ho => ho.follow) fun _ _ ho =>
      ho.follow)) ?_
  rintro _ u u' ⟨hu, -⟩
  refine paired_current ?_
  rw [hu.order]
  refine paired_changeQueue (hu.push _ _ (Multiset.le_add_right _ _) (le_of_eq ?_))
  rw [hu.ids i
    (Multiset.mem_add.2 (.inr (Multiset.mem_add.2 (.inr (Multiset.mem_singleton_self i))))),
    Multiset.map_add, Multiset.map_singleton, ← Multiset.singleton_add]
  abel

/-- Activated stop-losses join the resting orders of both desks. -/
theorem paired_promoteAll {price : Price} {taken : List Item}
    (h : Twin lax (aside + taken) hand s.state s'.state) :
    Paired ((taken.map (·.order)).forM (promote Simulated.settlement price))
      ((taken.map (·.order)).forM (promote Simulated.settlement price)) s s'
      (fun _ => Twin lax aside hand) (Twin lax 0 hand) := by
  induction taken generalizing s s' with
  | nil => exact paired_pure (by rwa [Multiset.coe_nil, add_zero] at h)
  | cons i rest ih =>
    rw [← Multiset.cons_coe, ← Multiset.singleton_add, add_comm ({i} : Multiset Item),
      ← add_assoc] at h
    show Paired (promote Simulated.settlement price i.order >>= fun _ => _)
      (promote Simulated.settlement price i.order >>= fun _ => _) s s' _ _
    exact h.paired_promote.bind fun _ t t' ht => ih ht

/-- The same stop-losses are activated on both desks. -/
theorem paired_triggerStopLosses {price : Price} (h : Twin lax 0 hand s.state s'.state) :
    Paired (triggerStopLosses Simulated.settlement price)
      (triggerStopLosses Simulated.settlement price) s s' (fun _ => Twin lax 0 hand)
      (Twin lax 0 hand) := by
  simp only [triggerStopLosses]
  refine paired_current ((h.paired_takeReached le_rfl le_rfl).bind ?_)
  rintro _ t t' ⟨asks, rfl, ht⟩
  refine paired_current ((ht.paired_takeReached le_rfl le_rfl).bind ?_)
  rintro _ u u' ⟨bids, rfl, hu⟩
  rw [add_assoc, Multiset.coe_add] at hu
  rw [← List.map_append]
  exact hu.paired_promoteAll.bind fun _ v v' hv => paired_pure hv

/-- What a trade triggers does the same to twins. -/
theorem paired_triggerAfter {trade : Option Trade} (h : Twin lax 0 hand s.state s'.state) :
    Paired (triggerAfter Simulated.settlement trade) (triggerAfter Simulated.settlement trade) s s'
      (fun _ => Twin lax 0 hand) (Twin lax 0 hand) := by
  cases trade with
  | none => exact paired_pure h
  | some t => exact h.paired_triggerStopLosses

/-! ## Rounds -/

/-- A round that ends without a match puts back what was set aside. -/
theorem paired_quitRound (h : Twin lax items hand s.state s'.state) (result : RoundResult) :
    Paired (restore side items >>= fun _ => pure result)
    (restore side items >>= fun _ => pure result)
      s s' (fun _ => Twin lax 0 hand) (Twin lax 0 hand) :=
  h.paired_restore.bind fun _ _ _ ht => paired_pure ht

/-- The end of a round with a match, from where the finished orders are gone. -/
theorem paired_endRound (h : Twin lax items hand s.state s'.state) (trade : Option Trade)
    (goesOn : Bool) :
    Paired (restore side items >>= fun _ =>
        triggerAfter Simulated.settlement trade >>= fun fired =>
        pure (⟨fired, goesOn⟩ : RoundResult))
      (restore side items >>= fun _ => triggerAfter Simulated.settlement trade >>= fun fired =>
        pure (⟨fired, goesOn⟩ : RoundResult)) s s' (fun _ => Twin lax 0 hand) (Twin lax 0 hand) :=
  h.paired_restore.bind fun _ _ _ ht => ht.paired_triggerAfter.bind fun _ _ _ hu => paired_pure hu

/-- A round of matching an incoming order is the same on both desks. -/
theorem paired_matchRound {user : UserId} (h : Twin lax 0 hand s.state s'.state) :
    Paired (matchRound Simulated.settlement side user r)
    (matchRound Simulated.settlement side user r)
      s s' (fun _ => Twin lax 0 hand) (Twin lax 0 hand) := by
  simp only [matchRound]
  refine paired_current ?_
  rw [h.order]
  split
  · exact paired_pure h
  refine h.paired_findTop.bind ?_
  rintro ⟨top, items⟩ t t' hfound
  cases top with
  | none => exact hfound.twin.paired_quitRound _
  | some resting =>
    refine paired_current ?_
    simp only [hfound.twin.order]
    split
    · exact hfound.twin.paired_quitRound _
    refine (hfound.twin.paired_makeTrade _ _ _).bind ?_
    rintro result u u' ⟨hu, hqueue⟩
    cases result with
    | error fault =>
      refine paired_log_bind fun v v' hv hv' => ?_
      exact Twin.paired_endRound (hv ▸ hv' ▸ hu) _ _
    | ok step =>
      have hhead := (hfound.head resting rfl).congr (hqueue side.opposite).1
        (hqueue side.opposite).2
      exact hu.paired_popIf hhead fun v v' hv _ => hv.paired_endRound _ _

/-- A round of matching resting orders with each other is the same on both desks. -/
theorem paired_reconcileRound (h : Twin lax 0 hand s.state s'.state) :
    Paired (reconcileRound Simulated.settlement) (reconcileRound Simulated.settlement) s s'
      (fun _ => Twin lax 0 hand) (Twin lax 0 hand) := by
  simp only [reconcileRound]
  refine h.paired_findTop.bind ?_
  rintro ⟨topAsk, skipped⟩ t t' hasks
  have ht : Twin lax 0 hand t.state t'.state := hasks.twin.lose
  cases topAsk with
  | none => exact paired_pure ht
  | some ask =>
  simp only
  refine paired_current ?_
  rw [ht.order]
  refine ht.paired_findTop.bind ?_
  rintro ⟨topBid, items⟩ u u' hbids
  cases topBid with
  | none => exact hbids.twin.paired_quitRound _
  | some bid =>
  refine paired_current ?_
  simp only [hbids.twin.order]
  split
  · exact hbids.twin.paired_quitRound _
  refine (hbids.twin.paired_makeTrade _ _ _).bind ?_
  rintro result v v' ⟨hv, hqueue⟩
  cases result with
  | error fault =>
    refine paired_log_bind fun w w' hw hw' => ?_
    exact Twin.paired_endRound (hw ▸ hw' ▸ hv) _ _
  | ok step =>
    obtain ⟨_, hsearch⟩ := hbids.searched
    obtain ⟨_, hsearch'⟩ := hbids.searched'
    have hask : SameHead .ask ask v.state v'.state := (hasks.head ask rfl).congr
      ((hqueue .ask).1.trans (hsearch.queue_of_ne (by decide)))
      ((hqueue .ask).2.trans (hsearch'.queue_of_ne (by decide)))
    have hbid : SameHead .bid bid v.state v'.state :=
      (hbids.head bid rfl).congr (hqueue .bid).1 (hqueue .bid).2
    refine hv.paired_popIf hask fun w w' hw hother => ?_
    have hbid := hbid.congr (hother .bid (by decide)).1 (hother .bid (by decide)).2
    exact hw.paired_popIf hbid fun x x' hx _ => hx.paired_endRound _ _

/-! ## Loops -/

/-- With the same limit both desks go through the same rounds. -/
theorem paired_matchIncoming {user : UserId} {limit : Nat} {activated : Bool}
    (h : Twin lax 0 hand s.state s'.state) :
    Paired (matchIncoming Simulated.settlement side user r limit activated)
      (matchIncoming Simulated.settlement side user r limit activated) s s'
      (fun _ => Twin lax 0 hand) (Twin lax 0 hand) := by
  induction limit generalizing s s' activated with
  | zero => exact paired_fail h
  | succ limit ih =>
    rw [matchIncoming_succ]
    refine h.paired_matchRound.bind ?_
    intro result t t' ht
    split
    · exact ih ht
    · exact paired_pure ht

/-- Reconciling does the same to twins, by induction on the limit. -/
theorem paired_reconcileSteps {limit : Nat} (h : Twin lax 0 hand s.state s'.state) :
    Paired (reconcileSteps Simulated.settlement limit)
    (reconcileSteps Simulated.settlement limit) s s'
      (fun _ => Twin lax 0 hand) (Twin lax 0 hand) := by
  induction limit generalizing s s' with
  | zero => exact paired_fail h
  | succ limit ih =>
    rw [reconcileSteps_succ]
    refine h.paired_reconcileRound.bind ?_
    intro result t t' ht
    split
    · exact ih ht
    · exact paired_pure ht

/-- The second book holds no more than the first. -/
theorem itemCount_le (h : Twin lax aside hand d d') : d'.book.itemCount ≤ d.book.itemCount := by
  have hqueue : ∀ {gone direction} {q q' : Queue}, q.Twin gone direction q' →
      q'.size ≤ q.size := by
    intro gone direction q q' hq
    obtain ⟨extra, hbag, -⟩ := hq.bag
    rw [← Queue.card_bag, ← Queue.card_bag, hbag, Multiset.card_add]
    omega
  unfold Book.itemCount
  exact Nat.add_le_add (Nat.add_le_add (Nat.add_le_add (hqueue (h.queue .ask))
    (hqueue (h.queue .bid))) (hqueue (h.dormant .ask))) (hqueue (h.dormant .bid))

/-- Resting orders are matched with each other, the same on both desks. -/
theorem paired_reconcile (h : Twin lax 0 hand s.state s'.state)
    (hd' : Sound (fun _ => True) s'.state) :
    Paired (reconcile Simulated.settlement) (reconcile Simulated.settlement) s s'
      (fun _ => Twin lax 0 hand) (Twin lax 0 hand) := by
  refine paired_current (h.paired_reconcileSteps.congr rfl ?_)
  obtain ⟨more, hmore⟩ := Nat.exists_eq_add_of_le (Nat.add_le_add_right h.itemCount_le 1)
  rw [hmore]
  refine (reconcileSteps_add _ ?_ more).symm
  refine (ends_reconcileSteps (upkeep_true _) _ hd' trivial (Nat.lt_succ_self _)).mono
    (fun _ _ _ => trivial) ?_
  intro f t hf
  exact hf.overflow.ne_stepLimit

/-! ## Processing -/

/-- An order rests on both desks, and is shown if it is open. -/
theorem paired_rest (h : Twin lax 0 ((s.state.order r).id ::ₘ hand) s.state s'.state) :
    Paired (rest side r) (rest side r) s s' (fun _ => Twin lax 0 hand) (Twin lax 0 hand) := by
  simp only [rest]
  refine paired_current ?_
  rw [h.order]
  refine Paired.bind (R := fun _ t t' => Twin lax 0 hand t t' ∧ t.order = s.state.order ∧
    Item.ofOrder r (s.state.order r) ∈ (t.book.queue side).bag) ?_ ?_
  · refine paired_changeQueue ⟨h.push side r le_rfl (Multiset.add_cons ..).ge, rfl, ?_⟩
    rw [Book.queue_withQueue, if_pos rfl, Queue.push, Queue.bag_pushItem]
    exact Multiset.mem_cons_self _ _
  rintro _ t t' ⟨ht, horder, hnew⟩
  have hnew : Item.ofOrder r (s.state.order r) ∈ t.state.book.stock :=
    Book.mem_stock.2 ⟨side, .inl hnew⟩
  have hdistinct := ht.distinct
  rw [add_zero] at hdistinct
  -- what is gone is another order, or this one, which is not shown then
  have hhides : ∀ l, Ledger.HidesBut (s.state.order r) t.state.book.ledger l →
      ∀ i ∈ t.state.book.stock, (t.state.order i.order).closed = true →
        t.state.book.ledger.find? i.id = none → l.find? i.id = none := by
    intro l hl i hi hclosed
    refine hl i.id fun hid => ?_
    obtain rfl : i = .ofOrder r (s.state.order r) := Multiset.inj_on_of_nodup_map
      (Multiset.nodup_of_le (Multiset.le_add_right _ _) hdistinct) _ hi _ hnew hid
    have hclosed : (t.state.order r).closed = true := hclosed
    rw [Order.isOpen, ← horder, hclosed]
    rfl
  have hadd : Paired (Ledger.add (s.state.order r)) (Ledger.add (s.state.order r))
      ⟨t.state.book.ledger, t.journal⟩ ⟨t'.state.book.ledger, t'.journal⟩ (fun _ => Ledger.Alike)
      Ledger.Alike := Ledger.paired_add ht.ledger
  have hboth := hadd.andLeft (P := fun _ => Ledger.HidesBut (s.state.order r) t.state.book.ledger)
    (E := Ledger.HidesBut (s.state.order r) t.state.book.ledger) Ledger.hides_add
  refine paired_within (hboth.mono ?_ ?_)
  · rintro _ l l' ⟨hl, hshown⟩
    exact ht.withLedger hl (hhides l hshown)
  · rintro l l' ⟨hl, hshown⟩
    exact ht.withLedger hl (hhides l hshown)

/-- What is left of an order rests on both desks. -/
theorem paired_restLeft (h : Twin lax 0 ((s.state.order r).id ::ₘ hand) s.state s'.state) :
    Paired (restLeft side r) (restLeft side r) s s' (fun _ => Twin lax 0 hand)
    (Twin lax 0 hand) := by
  simp only [restLeft]
  refine paired_current ?_
  rw [h.order]
  split
  · exact h.paired_rest
  · exact paired_pure (h.weaken (Multiset.le_cons_self _ _) le_rfl)

end Twin

/-- A book stays sound when what is left of an order rests. -/
theorem sound_restLeft (hd : Sound (fun _ => True) s.state) (hside : (s.state.order r).side = side)
    (ht : (s.state.order r).type ≠ .stopLoss) :
    Ends (restLeft side r) s (fun _ t => Sound (fun _ => True) t.state) (fun _ _ => True) := by
  simp only [restLeft, ends_bind, ends_current]
  split
  · refine (ends_rest (P := fun _ => True) (B := True) fun _ =>
      Ledger.breaks_add.mono (fun _ _ _ => trivial) fun _ _ hf => ⟨hf, trivial⟩).mono ?_
      fun _ _ _ => trivial
    rintro _ ⟨t, j⟩ ⟨l, -, rfl⟩
    exact hd.rested trivial hside ht l
  · exact hd

namespace Twin

/-- An incoming order is matched on both desks, on each within its own limit. -/
theorem paired_matchWithin {user : UserId} {activated : Bool}
    (h : Twin lax 0 hand s.state s'.state) (hd' : Sound (fun _ => True) s'.state)
    (hin : Incoming (fun _ => True) side user r s'.state) :
    Paired (matchIncoming Simulated.settlement side user r
      (processLimit Simulated.settlement s.state) activated)
      (matchIncoming Simulated.settlement side user r (processLimit Simulated.settlement s'.state)
        activated) s s'
      (fun _ t t' => Twin lax 0 hand t t' ∧ Sound (fun _ => True) t' ∧ Onward s'.state t')
      (Twin lax 0 hand) := by
  have hrounds : Ends (matchIncoming Simulated.settlement side user r
      (processLimit Simulated.settlement s'.state) activated) s' _ _ :=
    ends_matchIncoming (upkeep_true _) _ hd' hin trivial
      (by unfold processLimit; split <;> simp only [Simulated.settlement] <;> omega)
  -- the second desk does the same within the limit of the first
  obtain ⟨more, hmore⟩ : ∃ more, processLimit Simulated.settlement s.state =
      processLimit Simulated.settlement s'.state + more :=
    Nat.exists_eq_add_of_le (Nat.add_le_add_right h.itemCount_le 2)
  have hsame := matchIncoming_add Simulated.settlement side user r
    (hrounds.mono (fun _ _ _ => trivial) fun _ _ hf => hf.overflow.ne_stepLimit) more
  refine ((h.paired_matchIncoming.congr rfl (hsame.symm.trans (by rw [hmore]))).andRight
    (P := fun _ t => Sound (fun _ => True) t ∧ Onward s'.state t) (E := fun _ => True)
    (hrounds.mono ?_ fun _ _ _ => trivial)).mono (fun _ _ _ ht => ht) fun _ _ ht => ht.1
  rintro _ t ⟨fired, -, hrun, -⟩
  exact ⟨hrun.sound hd', hrun.onward⟩

/-- An order is processed on both desks. -/
theorem paired_process (h : Twin lax 0 ((s.state.order r).id ::ₘ hand) s.state s'.state)
    (hd' : Sound (fun _ => True) s'.state) (htype : (s'.state.order r).type ≠ .stopLoss) :
    Paired (process Simulated.settlement r) (process Simulated.settlement r) s s'
      (fun _ => Twin lax 0 hand) (Twin lax 0 hand) := by
  rw [process_eq]
  refine paired_current ?_
  rw [← h.order]
  have hin : Incoming (fun _ => True) (s'.state.order r).side (s'.state.order r).user r s'.state :=
    ⟨trivial, rfl, rfl, htype⟩
  have hgive : ∀ {t t' : Desk Simulated}, Twin lax 0 ((s.state.order r).id ::ₘ hand) t t' →
      Twin lax 0 hand t t' := fun ht => ht.weaken (Multiset.le_cons_self _ _) le_rfl
  refine Paired.bind ((h.paired_matchWithin hd' hin).mono (fun _ _ _ ht => ht) fun _ _ => hgive) ?_
  rintro activated t t' ⟨ht, hsound, hon⟩
  have hid : (s.state.order r).id = (t.state.order r).id := by
    rw [← h.order, ← ht.order]
    exact (hon.orders r).id.symm
  have hrest : Paired (restLeft (s'.state.order r).side r)
    (restLeft (s'.state.order r).side r) t t'
      (fun _ => Twin lax 0 hand) (Twin lax 0 hand) := (hid ▸ ht).paired_restLeft
  have hleft := hrest.andRight (P := fun _ => Sound (fun _ => True)) (E := fun _ => True)
    (sound_restLeft hsound (hin.onward hon).side (hin.onward hon).type)
  refine Paired.bind (hleft.mono (fun _ _ _ hu => hu) fun _ _ hu => hu.1) ?_
  rintro _ u u' ⟨hu, hsound⟩
  split
  · exact hu.paired_reconcile hsound
  · exact paired_pure hu

end Twin

end Desk

end Bourse
