import Bourse.Proofs.Book.Meanwhile
import Bourse.Proofs.Clean.Desk

/-!
# Matching with careful settlement

With a careful settlement a desk in order stays in order, and nothing that matching does to it
fails. There is one lemma for each function of the matching code. They also count the orders in the
queues: a round after which another follows finished the incoming order or took one off the queues,
so neither loop outruns its limit.
-/

namespace Bourse.Desk

open Bourse.Action

variable {σ α : Type} {S : Settlement σ} {others : Others σ} {os : Orders}
  {rs accepted : List OrderRef} {inc : Option OrderRef} {s : Logged (Desk σ)} {side : Side}
  {user : UserId} {r ask bid : OrderRef} {price : Price} {i : Item}

/-! ## Waiting for settlement -/

/-- The desk with another ledger. -/
def showing (d : Desk σ) (l : Ledger) : Desk σ := { d with book := { d.book with ledger := l } }

/-- Taking the depth of any order away changes the ledger alone, and is no error. -/
theorem accurate_withdraw (ho : Orderly os rs) {view : OrderRef → Order}
    (h : Accurate os rs accepted view inc ⟨s.state.book.ledger, s.journal⟩) :
    Ends (withdraw side r) s
      (fun _ t => ∃ l, t.state = s.state.showing l ∧ Accurate os rs accepted view inc
        ⟨l, t.journal⟩)
      (fun _ _ => False) := by
  simp only [withdraw, checkSide, ends_bind, ends_current, ends_pure]
  by_cases hside : (s.state.order r).side = side
  · simp only [hside, if_true, ends_bind, ends_current, ends_onLedger, ends_log, ends_pure]
    exact (h.ends_withdraw ho _).imp (fun _ l hl => ⟨l.state, rfl, hl.log Severity.noConfusion⟩)
  · simp only [hside, if_false]
    exact ⟨_, rfl, h⟩

/-- What others do changes the ledger alone, and is no error. -/
theorem accurate_comeIn (ho : Orderly os rs) {view : OrderRef → Order}
    (h : Accurate os rs accepted view inc ⟨s.state.book.ledger, s.journal⟩) :
    Ends (comeIn others) s
      (fun _ t => ∃ l, t.state = s.state.showing l ∧ Accurate os rs accepted view inc
        ⟨l, t.journal⟩)
      (fun _ _ => False) := by
  simp only [comeIn, ends_bind, ends_current]
  refine Ends.forM (P := fun _ (t : Logged (Desk σ)) => ∃ l, t.state = s.state.showing l ∧
    Accurate os rs accepted view inc ⟨l, t.journal⟩) ?_ ⟨_, rfl, h⟩
  rintro e rest ⟨_, j⟩ ⟨l, rfl, hl⟩
  rw [ends_bind]
  exact (accurate_withdraw ho hl).imp (fun _ u hu => hu)

/-- What settlement does to the office it does while others come in, and the ledger stays accurate
for the orders as they were before. -/
theorem accurate_awaiting (ho : Orderly os rs) {view : OrderRef → Order}
    {act : Action (Office σ) α} {Q : α → Office σ → Prop}
    (h : Accurate os rs accepted view inc ⟨s.state.book.ledger, s.journal⟩)
    (hact : ∀ j, Spotless j → Ends act ⟨s.state.office, j⟩
      (fun a o => Spotless o.journal ∧ Q a o.state) (fun _ _ => False)) :
    Ends (awaiting others act) s
      (fun a t => ∃ o l, t.state = ⟨o, (s.state.showing l).book⟩ ∧ Q a o ∧
        Accurate os rs accepted view inc ⟨l, t.journal⟩)
      (fun _ _ => False) := by
  refine (accurate_comeIn ho h).bind ?_
  rintro _ ⟨_, j⟩ ⟨l, rfl, hl⟩
  simp only [ends_bind, ends_onOffice]
  refine (hact j hl.spotless).imp ?_
  rintro a o ⟨hj, hQ⟩
  refine (accurate_comeIn (s := ⟨⟨o.state, (s.state.showing l).book⟩, o.journal⟩) ho
    ⟨hl.exact, hj⟩).imp ?_
  rintro _ ⟨_, k⟩ ⟨l', rfl, hl'⟩
  exact ⟨_, l', rfl, hQ, hl'⟩

/-! ## One match step -/

/-- A search does not break off, and finds the best order of another user. -/
theorem clean_findTop (ho : Orderly os rs) (h : InOrder os rs accepted inc s) (side : Side)
    (exclude : Option UserId) :
    Ends (findTop side exclude) s
      (fun found t => InOrder os rs accepted inc t ∧
        (∃ dropped, Searched side exclude s.state t.state dropped found.2) ∧
        Heads side exclude t.state found.1)
      (fun _ _ => False) := by
  have hdrain : Drains s.state side (Accurate os rs accepted s.state.order inc) False :=
    ⟨fun i _ _ l hl => (hl.ends_withdraw ho _).mono (fun _ _ ht => ht) fun _ _ hf => hf.elim,
      fun _ _ l hl => hl.log Severity.noConfusion⟩
  refine (ends_findTop_of_drains hdrain h.ledger).mono ?_ fun _ _ hf => hf.2.1
  rintro found t ⟨dropped, hsearch, hheads, hl⟩
  have horder : t.state.order = s.state.order := funext hsearch.order
  exact ⟨⟨(hsearch.sound h.sound).1, horder ▸ hl⟩, ⟨dropped, hsearch⟩, hheads⟩

/-- A search takes nothing back. -/
theorem Searched.went {exclude : Option UserId} {d d' : Desk σ} {dropped : Multiset Item}
    {aside : List Item} (h : Searched side exclude d d' dropped aside) : Went d d' :=
  .of_office h.office h.phase

/-- A pair that may be shown to settlement: two known orders that are open and active. -/
structure Fillable (rs : List OrderRef) (d : Desk σ) (ask bid : OrderRef) : Prop where
  askKnown : ask ∈ rs
  bidKnown : bid ∈ rs
  ne : ask ≠ bid
  askOpen : (d.order ask).isOpen = true
  bidOpen : (d.order bid).isOpen = true
  askType : (d.order ask).type ≠ .stopLoss
  bidType : (d.order bid).type ≠ .stopLoss

/-- A pair was tried. What the answer calls finished is closed, and something is. -/
structure Tried (ask bid : OrderRef) (step : MatchStep) (d d' : Desk σ) : Prop where
  went : Went d d'
  queue : ∀ s, d'.book.queue s = d.book.queue s
  itemCount : d'.book.itemCount = d.book.itemCount
  askDone : step.askDone = true → (d'.order ask).closed = true
  bidDone : step.bidDone = true → (d'.order bid).closed = true
  progress : step.askDone = true ∨ step.bidDone = true

/-- A pair of which one side is finished makes progress. -/
theorem answer_of_progress {a b : OrderId} {out : FillOutcome}
    (h : out.ask.isDone = true ∨ out.bid.isDone = true) :
    answer a b out = .ok ⟨out.ask.isDone, out.bid.isDone, out.trade⟩ := by
  unfold answer
  rw [if_pos (Bool.or_eq_true _ _ ▸ h)]

/-- A match step on an open pair makes progress. -/
theorem clean_makeTrade (hS : S.Careful) (ho : Orderly os rs) {incoming : Option Side}
    (h : InOrder os rs accepted (incomingOf incoming ask bid) s)
    (hp : Fillable rs s.state ask bid) : Ends (Amid.makeTrade S others ask bid incoming) s
      (fun answer t => ∃ step, answer = .ok step ∧
        InOrder os rs accepted (incomingOf incoming ask bid) t ∧
        Tried ask bid step s.state t.state)
      (fun _ _ => False) := by
  simp only [Amid.makeTrade, ends_bind, ends_current]
  refine (accurate_awaiting (Q := fun out o => ∃ view,
    Filled s.state.order view ask bid out ∧ Dimmed view o.orders.get) ho h.ledger fun j hj =>
      hS.fill (s := ⟨s.state.office, j⟩) _ hp.ne hp.askOpen hp.bidOpen rfl hj).imp ?_
  rintro out ⟨_, j⟩ ⟨o, l, rfl, ⟨view, hfilled, hdim⟩, hexact⟩
  have hledger : ∀ k, Spotless k → Ends (Ledger.settlePair (s.state.order ask).id
      (s.state.order bid).id out incoming) ⟨l, k⟩ _ _ := fun k hk =>
    Accurate.ends_settlePair ⟨hexact.exact, hk⟩ ho hp.askKnown hp.bidKnown hp.ne
      hp.askType hp.bidType hfilled
  simp only [Ledger.settlePair, ends_bind] at hledger
  refine ends_recordDeal fun k hmild => (hledger k (hmild hexact.spotless)).imp ?_
  intro _ t ht
  rw [ends_settleShown]
  refine ht.imp ?_
  intro _ t ht
  rw [ends_settleShown]
  refine ht.imp ?_
  intro _ t ht
  have hfollow : s.state.office.orders.Follow o.orders := fun r =>
    (hfilled.follows r).trans (hdim.follows r)
  have hprogress : out.ask.isDone = true ∨ out.bid.isDone = true := by
    rw [hfilled.askDone, hfilled.bidDone]
    exact hfilled.progress
  refine ⟨_, answer_of_progress hprogress, ⟨?_, ht.dim hdim⟩, ⟨hfollow, rfl⟩, ?_, rfl, ?_,
    ?_, hprogress⟩
  · exact h.sound.congr (fun _ => Book.queue_withLastPrice ..)
      (fun _ => Book.stopLossQueue_withLastPrice ..) hfollow
  · exact fun _ => Book.queue_withLastPrice ..
  · exact fun hdone => (hdim.follows ask).closed (hfilled.askDone ▸ hdone)
  · exact fun hdone => (hdim.follows bid).closed (hfilled.bidDone ▸ hdone)

/-- A finished order that heads its queue is taken out, and what follows goes on from there. -/
theorem clean_popIf {done : Bool} {next : Action (Desk σ) α} {Q : α → Logged (Desk σ) → Prop}
    {E : Failure → Logged (Desk σ) → Prop} (h : InOrder os rs accepted inc s)
    (hi : (s.state.book.queue side).headItem? = some i)
    (hnext : ∀ d, InOrder os rs accepted inc ⟨d, s.journal⟩ → d.office = s.state.office →
      d.book.phase = s.state.book.phase →
      (∀ s', side ≠ s' → d.book.queue s' = s.state.book.queue s') →
      d.book.itemCount + (if done then 1 else 0) = s.state.book.itemCount →
      Ends next ⟨d, s.journal⟩ Q E) :
    Ends (if done = true then popResting side i.order >>= fun _ => next else next) s Q E := by
  refine ends_popIf hi ?_ ?_
  · rintro rfl
    refine hnext _ (h.withoutHead hi) rfl (phase_withoutHead ..) ?_ (itemCount_withoutHead hi _)
    exact fun s' hs => queue_withoutHead_of_ne _ _ _ hs
  · rintro rfl
    exact hnext _ h rfl rfl (fun _ _ => rfl) rfl

/-! ## Stop-losses -/

/-- The stop-losses of a side that a price reaches are activated, and closed ones dropped. -/
theorem clean_takeReached (n : Nat) (h : InOrder os rs accepted inc s) :
    Ends (takeReached side price n) s
      (fun taken t => InOrder os rs accepted inc t ∧ Went s.state t.state ∧
        (∀ r ∈ taken, r ∈ rs ∧ (t.state.order r).type ≠ .stopLoss) ∧
        t.state.book.itemCount + taken.length ≤ s.state.book.itemCount)
      (fun _ _ => False) := by
  induction n generalizing s with
  | zero => exact ⟨h, .refl _, nofun, le_rfl⟩
  | succ n ih =>
    simp only [takeReached, ends_bind, ends_current, Queue.popIf]
    cases hi : (s.state.book.stopLossQueue side).headItem? with
    | none => exact ⟨h, .refl _, nofun, le_rfl⟩
    | some i =>
      have hrs : i.order ∈ rs := h.sound.dormant side i (Queue.mem_bag_of_headItem? hi)
      have hcount := itemCount_withoutDormant hi
      have hwent : Went s.state (s.state.withoutDormant side) :=
        .of_office rfl (Book.phase_withStopLossQueue ..)
      by_cases hpop : ((s.state.order i.order).closed ||
          (s.state.order i.order).isReachedBy price) = true
      · simp only [hpop, if_true, ends_bind, ends_changeStopLossQueue]
        split
        · rw [ends_bind, ends_log]
          refine (ih ((h.withoutDormant hi).log Severity.noConfusion)).imp ?_
          rintro taken t ⟨ht, hwent', htaken, hle⟩
          have hle : t.state.book.itemCount + taken.length ≤
            (s.state.withoutDormant side).book.itemCount := hle
          exact ⟨ht, hwent.trans hwent', htaken, by omega⟩
        · simp only [ends_bind, ends_onOffice, Office.onOrders, ends_within,
            ends_change, ends_pure]
          refine (ih ((h.withoutDormant hi).activated i.order)).imp ?_
          rintro taken t ⟨ht, hwent', htaken, hle⟩
          have hactivate : Went (s.state.withoutDormant side) { s.state.withoutDormant side with
              office := s.state.office.activated i.order } :=
            ⟨Orders.follow_modify Order.follows_activateStopLoss, rfl⟩
          refine ⟨ht, hwent.trans (hactivate.trans hwent'), ?_, ?_⟩
          · intro r hr
            rcases List.mem_cons.1 hr with rfl | hr
            · refine ⟨hrs, (hwent'.orders i.order).type_ne ?_⟩
              show ((s.state.office.orders.modify i.order _).get i.order).type ≠ _
              rw [Orders.get_modify, if_pos rfl]
              exact Order.type_activateStopLoss
            · exact htaken r hr
          · have hle : t.state.book.itemCount + taken.length ≤
              (s.state.withoutDormant side).book.itemCount := hle
            rw [List.length_cons]
            omega
      · simp only [hpop, Bool.false_eq_true, if_false]
        exact ⟨h, .refl _, nofun, le_rfl⟩

/-- An activated stop-loss joins the resting orders. -/
theorem clean_promote (hS : S.Careful) (ho : Orderly os rs) (h : InOrder os rs accepted inc s)
    (hr : r ∈ rs) (ht : (s.state.order r).type ≠ .stopLoss) :
    Ends (Amid.promote S others price r) s
      (fun _ t => InOrder os rs accepted inc t ∧ Went s.state t.state ∧
        t.state.book.itemCount = s.state.book.itemCount + 1)
      (fun _ _ => False) := by
  simp only [Amid.promote, ends_bind, ends_current, ends_log]
  have hlog : InOrder os rs accepted inc ⟨s.state, _⟩ := h.log
    (e := .stopLossTriggered s.state.book.instrument (s.state.order r).id (s.state.order r).side
      (s.state.order r).price price) Severity.noConfusion
  refine (accurate_awaiting (Q := fun _ o => Dimmed s.state.office.orders.get o.orders.get) ho
    hlog.ledger fun j hj => hS.stopLossTriggered (s := ⟨s.state.office, j⟩) r hj).imp ?_
  rintro _ ⟨_, j⟩ ⟨o, l, rfl, hdim, hl⟩
  rw [ends_changeQueue]
  have htype : (o.orders.get r).type ≠ .stopLoss := (hdim.follows r).type_ne ht
  have hside : (o.orders.get r).side = (s.state.order r).side := (hdim.follows r).side
  have hrests : ∀ i ∈ [Item.ofOrder r (o.orders.get r)],
      Rests (· ∈ rs) o.orders (s.state.order r).side i := by
    intro i hi
    rw [List.mem_singleton.1 hi, ← hside]
    exact rests_ofOrder hr htype
  have hclosed : InOrder os rs accepted inc ⟨⟨o, (s.state.showing l).book⟩, j⟩ :=
    (h.withLedger hl).dim hdim hl.spotless
  have hjoined := hclosed.withItems hrests
  refine ⟨hjoined, ⟨hdim.follows, Book.phase_withQueue ..⟩, ?_⟩
  exact itemCount_withItems ⟨o, (s.state.showing l).book⟩ (s.state.order r).side
    [.ofOrder r (o.orders.get r)]

/-- Activated stop-losses join the resting orders one after the other. -/
theorem clean_promoteAll (hS : S.Careful) (ho : Orderly os rs)
    (h : InOrder os rs accepted inc s) {taken : List OrderRef}
    (htaken : ∀ r ∈ taken, r ∈ rs ∧ (s.state.order r).type ≠ .stopLoss) :
    Ends (taken.forM (Amid.promote S others price)) s
      (fun _ t => InOrder os rs accepted inc t ∧ Went s.state t.state ∧
        t.state.book.itemCount = s.state.book.itemCount + taken.length)
      (fun _ _ => False) := by
  induction taken generalizing s with
  | nil => exact ⟨h, .refl _, rfl⟩
  | cons r rest ih =>
    obtain ⟨hr, ht⟩ := htaken r List.mem_cons_self
    have hfirst : Ends (Amid.promote S others price r) s _ _ := clean_promote hS ho h hr ht
    refine hfirst.bind ?_
    rintro _ t ⟨h', hwent, hcount⟩
    refine (ih h' ?_).imp ?_
    · intro r' hr'
      obtain ⟨hmem, ht'⟩ := htaken r' (List.mem_cons_of_mem _ hr')
      exact ⟨hmem, (hwent.orders r').type_ne ht'⟩
    · rintro _ u ⟨h'', hwent', hcount'⟩
      refine ⟨h'', hwent.trans hwent', ?_⟩
      rw [hcount', hcount, List.length_cons]
      omega

/-- Stop-losses that a trade reaches change queues, and none gets lost or doubled. -/
theorem clean_triggerAfter (hS : S.Careful) (ho : Orderly os rs)
    (h : InOrder os rs accepted inc s)
    (trade : Option Trade) :
    Ends (Amid.triggerAfter S others trade) s
      (fun _ t => InOrder os rs accepted inc t ∧ Went s.state t.state ∧
        t.state.book.itemCount ≤ s.state.book.itemCount)
      (fun _ _ => False) := by
  cases trade with
  | none => exact ⟨h, .refl _, le_rfl⟩
  | some trade =>
    simp only [Amid.triggerAfter, ends_bind, ends_current]
    refine (clean_takeReached _ h).imp ?_
    rintro asks t ⟨ht, hwent, hasks, hcount⟩
    refine (clean_takeReached _ ht).imp ?_
    rintro bids u ⟨hu, hwent', hbids, hcount'⟩
    refine (clean_promoteAll hS ho hu ?_).imp ?_
    · intro r hr
      rcases List.mem_append.1 hr with hr | hr
      · exact ⟨(hasks r hr).1, (hwent'.orders r).type_ne (hasks r hr).2⟩
      · exact hbids r hr
    · rintro _ v ⟨hv, hwent'', hcount''⟩
      refine ⟨hv, hwent.trans (hwent'.trans hwent''), ?_⟩
      rw [List.length_append] at hcount''
      omega

/-! ## Rounds -/

/-- The end of a round: what was set aside is put back, and what the trade reaches joins in. -/
theorem clean_endRound (hS : S.Careful) (ho : Orderly os rs)
    (h : InOrder os rs accepted inc s) {aside : List Item}
    (haside : ∀ i ∈ aside, Rests (· ∈ rs) s.state.office.orders side i) (trade : Option Trade)
    (goesOn : Bool) :
    Ends (restore side aside >>= fun _ => Amid.triggerAfter S others trade >>= fun fired =>
        pure (⟨fired, goesOn⟩ : RoundResult)) s
      (fun result t => result.goesOn = goesOn ∧ InOrder os rs accepted inc t ∧
        Went s.state t.state ∧ t.state.book.itemCount ≤ s.state.book.itemCount + aside.length)
      (fun _ _ => False) := by
  simp only [ends_bind, ends_restore]
  refine (clean_triggerAfter hS ho (h.withItems haside) trade).imp ?_
  rintro fired t ⟨ht, hwent, hcount⟩
  exact ⟨rfl, ht, ((Went.refl _).withItems aside).trans hwent,
    hcount.trans (itemCount_withItems ..).le⟩

/-- The order of this side is being matched. -/
structure Arriving (rs : List OrderRef) (side : Side) (r : OrderRef) (d : Desk σ) : Prop where
  mem : r ∈ rs
  side : (d.order r).side = side
  type : (d.order r).type ≠ .stopLoss

/-- An order goes on arriving as the book goes on. -/
theorem Arriving.went {d d' : Desk σ} (h : Arriving rs side r d) (hw : Went d d') :
    Arriving rs side r d' where
  mem := h.mem
  side := (hw.orders r).side.trans h.side
  type := (hw.orders r).type_ne h.type

/-- The order that is being matched may be paired with one that rests on the other side. -/
theorem Arriving.fillable {d : Desk σ} (hr : Arriving rs side r d)
    (hopen : (d.order r).isOpen = true) (hi : Rests (· ∈ rs) d.office.orders side.opposite i)
    (hio : (d.order i.order).isOpen = true) :
    Fillable rs d (pair side r i.order).1 (pair side r i.order).2 := by
  have hne : r ≠ i.order := by
    intro heq
    have hside : (d.order r).side = side.opposite := heq ▸ hi.side
    exact side.opposite_ne (hside.symm.trans hr.side)
  obtain ⟨⟨hask, hao, hta⟩, hbid, hbo, htb⟩ := forall_pair side r i.order
    (P := fun _ x => x ∈ rs ∧ (d.order x).isOpen = true ∧ (d.order x).type ≠ .stopLoss)
    ⟨hr.mem, hopen, hr.type⟩ ⟨hi.known, hio, hi.type ▸ hi.active⟩
  exact ⟨hask, hbid, pair_ne side hne, hao, hbo, hta, htb⟩

/-- Open resting orders of both sides may be paired. -/
theorem fillable_of_rests {d : Desk σ} {k : Item} (hi : Rests (· ∈ rs) d.office.orders .ask i)
    (hk : Rests (· ∈ rs) d.office.orders .bid k) (hio : (d.order i.order).isOpen = true)
    (hko : (d.order k.order).isOpen = true) : Fillable rs d i.order k.order :=
  ⟨hi.known, hk.known, Orders.ne_of_side hi.side hk.side, hio, hko, hi.type ▸ hi.active,
    hk.type ▸ hk.active⟩

/-- If the order that came in is still open then the other one is finished. -/
theorem Tried.isDone_opposite {d d' d'' : Desk σ} {step : MatchStep} {resting : OrderRef}
    (h : Tried (pair side r resting).1 (pair side r resting).2 step d d') (hw : Went d' d'')
    (hopen : (d''.order r).isOpen = true) : step.isDone side.opposite = true := by
  have hclosed : (d'.order r).closed = false :=
    (hw.orders r).not_closed (Order.isOpen_iff.1 hopen).1
  cases side with
  | ask =>
    exact h.progress.resolve_left fun hdone =>
      Bool.false_ne_true (hclosed.symm.trans (h.askDone hdone))
  | bid =>
    exact h.progress.resolve_right fun hdone =>
      Bool.false_ne_true (hclosed.symm.trans (h.bidDone hdone))

/-- A round of matching an incoming order. If another follows then this one finished the order, or
took one off the queues. -/
theorem clean_matchRound (hS : S.Careful) (ho : Orderly os rs)
    (h : InOrder os rs accepted (some r) s) (hr : Arriving rs side r s.state) :
    Ends (Amid.matchRound S others side user r) s
      (fun result t => InOrder os rs accepted (some r) t ∧ Went s.state t.state ∧
        (result.goesOn = true → (s.state.order r).isOpen = true ∧
          ((t.state.order r).isOpen = true → t.state.book.itemCount < s.state.book.itemCount)))
      (fun _ _ => False) := by
  simp only [Amid.matchRound, ends_bind, ends_current]
  split
  · exact ⟨h, .refl _, fun hgo => Bool.noConfusion hgo⟩
  next hopen =>
  have hopen : (s.state.order r).isOpen = true := by simpa using hopen
  simp only [ends_bind]
  refine (clean_findTop ho h side.opposite (some user)).imp ?_
  rintro ⟨top, aside⟩ t ⟨ht, ⟨dropped, hsearch⟩, hheads⟩
  have hwent := hsearch.went
  have haside := (hsearch.sound h.sound).2
  cases top with
  | none => exact ⟨ht.withItems haside, hwent.withItems aside, fun hgo => Bool.noConfusion hgo⟩
  | some resting =>
    obtain ⟨i, hi, rfl, he⟩ := hheads
    simp only [ends_bind, ends_current]
    split
    · exact ⟨ht.withItems haside, hwent.withItems aside, fun hgo => Bool.noConfusion hgo⟩
    have hp := (hr.went hwent).fillable (hsearch.order r ▸ hopen)
      (ht.sound.resting side.opposite i (Queue.mem_bag_of_headItem? hi)) he.1
    have ht' : InOrder os rs accepted (incomingOf (some side) (pair side r i.order).1
        (pair side r i.order).2) t := incomingOf_pair side r i.order ▸ ht
    rw [ends_bind]
    refine (clean_makeTrade hS ho ht' hp).imp ?_
    rintro _ u ⟨step, rfl, hu, htried⟩
    rw [incomingOf_pair] at hu
    refine clean_popIf hu (htried.queue side.opposite ▸ hi) ?_
    intro d hd hoffice hphase _ hcount
    have hwent' : Went t.state d := htried.went.trans (.of_office hoffice hphase)
    refine (clean_endRound hS ho hd (fun j hj => (haside j hj).follow hwent'.orders)
      step.trade true).imp ?_
    rintro result v ⟨-, hv, hwent'', hcount'⟩
    refine ⟨hv, hwent.trans (hwent'.trans hwent''), fun _ => ⟨hopen, fun hopen' => ?_⟩⟩
    have hsearch : t.state.book.itemCount + aside.length ≤ s.state.book.itemCount :=
      hsearch.itemCount
    have hcount' : v.state.book.itemCount ≤ d.book.itemCount + aside.length := hcount'
    rw [htried.isDone_opposite (.trans (.of_office hoffice hphase) hwent'') hopen', if_pos rfl,
      htried.itemCount] at hcount
    omega

/-- Those of a pair of heads that a match step finished are taken out: there is one, so the queues
hold less, and what follows goes on from there. -/
theorem clean_popPair {step : MatchStep} {t : Logged (Desk σ)} {k : Item}
    {next : Action (Desk σ) α} {Q : α → Logged (Desk σ) → Prop}
    {E : Failure → Logged (Desk σ) → Prop} (h : InOrder os rs accepted inc t)
    (htried : Tried i.order k.order step s.state t.state)
    (hi : (s.state.book.queue .ask).headItem? = some i)
    (hk : (s.state.book.queue .bid).headItem? = some k)
    (hnext : ∀ d, InOrder os rs accepted inc ⟨d, t.journal⟩ → Went s.state d →
      d.book.itemCount < s.state.book.itemCount → Ends next ⟨d, t.journal⟩ Q E) :
    Ends (if step.askDone = true then popResting .ask i.order >>= fun _ =>
        if step.bidDone = true then popResting .bid k.order >>= fun _ => next else next
      else if step.bidDone = true then popResting .bid k.order >>= fun _ => next else next)
      t Q E := by
  refine clean_popIf h (htried.queue .ask ▸ hi) ?_
  intro d hd hoffice hphase hqueue hcount
  have hk' : (d.book.queue .bid).headItem? = some k := by
    rw [hqueue .bid (by decide), htried.queue]
    exact hk
  refine clean_popIf hd hk' ?_
  intro e he hoffice' hphase' _ hcount'
  refine hnext e he (htried.went.trans
    (.of_office (hoffice'.trans hoffice) (hphase'.trans hphase))) ?_
  have hcount' : e.book.itemCount + (if step.bidDone then 1 else 0) = d.book.itemCount := hcount'
  rw [htried.itemCount] at hcount
  rcases htried.progress with hdone | hdone
  · rw [hdone, if_pos rfl] at hcount
    omega
  · rw [hdone, if_pos rfl] at hcount'
    omega

/-- A round of matching resting orders with each other. If another follows then this one took an
order off the queues. -/
theorem clean_reconcileRound (hS : S.Careful) (ho : Orderly os rs)
    (h : InOrder os rs accepted none s) :
    Ends (Amid.reconcileRound S others) s
      (fun result t => InOrder os rs accepted none t ∧ Went s.state t.state ∧
        (result.goesOn = true → t.state.book.itemCount < s.state.book.itemCount))
      (fun _ _ => False) := by
  simp only [Amid.reconcileRound, ends_bind]
  refine (clean_findTop ho h .ask none).imp ?_
  rintro ⟨top, skipped⟩ t ⟨ht, ⟨dropped, hasks⟩, hheads⟩
  obtain rfl : skipped = [] := hasks.aside_eq_nil
  cases top with
  | none => exact ⟨ht, hasks.went, fun hgo => Bool.noConfusion hgo⟩
  | some ask =>
    obtain ⟨i, hi, rfl, hei⟩ := hheads
    simp only [ends_bind, ends_current]
    refine (clean_findTop ho ht .bid (some (t.state.order i.order).user)).imp ?_
    rintro ⟨top, aside⟩ u ⟨hu, ⟨dropped', hbids⟩, hheads⟩
    have hwent := hasks.went.trans hbids.went
    have haside := (hbids.sound ht.sound).2
    cases top with
    | none => exact ⟨hu.withItems haside, hwent.withItems aside, fun hgo => Bool.noConfusion hgo⟩
    | some bid =>
      obtain ⟨k, hk, rfl, hek⟩ := hheads
      simp only [ends_bind, ends_current]
      split
      · exact ⟨hu.withItems haside, hwent.withItems aside, fun hgo => Bool.noConfusion hgo⟩
      have hi' : (u.state.book.queue .ask).headItem? = some i := by
        rw [hbids.queue_of_ne (by decide)]
        exact hi
      have hp : Fillable rs u.state i.order k.order :=
        fillable_of_rests (hu.sound.resting .ask i (Queue.mem_bag_of_headItem? hi'))
          (hu.sound.resting .bid k (Queue.mem_bag_of_headItem? hk))
          (hbids.order i.order ▸ hei.1) hek.1
      have hu' : InOrder os rs accepted (incomingOf none i.order k.order) u := hu
      rw [ends_bind]
      refine (clean_makeTrade hS ho hu' hp).imp ?_
      rintro _ v ⟨step, rfl, hv, htried⟩
      refine clean_popPair hv htried hi' hk ?_
      intro d hd hwent' hcount
      refine (clean_endRound hS ho hd (fun j hj => (haside j hj).follow hwent'.orders) step.trade
        true).imp ?_
      rintro result w ⟨-, hw, hwent'', hcount'⟩
      refine ⟨hw, hwent.trans (hwent'.trans hwent''), fun _ => ?_⟩
      have hasks : t.state.book.itemCount ≤ s.state.book.itemCount := hasks.itemCount
      have hbids : u.state.book.itemCount + aside.length ≤ t.state.book.itemCount :=
        hbids.itemCount
      have hcount' : w.state.book.itemCount ≤ d.book.itemCount + aside.length := hcount'
      omega

/-! ## Processing -/

/-- Matching an order ends within its limit, by induction on it. -/
theorem clean_matchIncoming (hS : S.Careful) (ho : Orderly os rs) (limit : Nat) {activated : Bool}
    (h : InOrder os rs accepted (some r) s) (hr : Arriving rs side r s.state)
    (hlimit : (if (s.state.order r).isOpen then s.state.book.itemCount + 2 else 1) ≤ limit) :
    Ends (Amid.matchIncoming S others side user r limit activated) s
      (fun _ t => InOrder os rs accepted (some r) t ∧ Went s.state t.state)
      (fun _ _ => False) := by
  induction limit generalizing s activated with
  | zero => split at hlimit <;> omega
  | succ limit ih =>
    rw [Amid.matchIncoming]
    refine (clean_matchRound hS ho h hr).bind ?_
    rintro result t ⟨ht, hwent, hfewer⟩
    split
    · next hgo =>
      obtain ⟨hopen, hfewer⟩ := hfewer hgo
      rw [if_pos hopen] at hlimit
      refine (ih ht (hr.went hwent) ?_).imp (fun _ u hu => ⟨hu.1, hwent.trans hu.2⟩)
      split
      · next hopen' =>
        have := hfewer hopen'
        omega
      · omega
    · exact ⟨ht, hwent⟩

/-- Reconciling ends within its limit, by induction on it. -/
theorem clean_reconcile (hS : S.Careful) (ho : Orderly os rs) (h : InOrder os rs accepted none s) :
    Ends (Amid.reconcile S others) s
      (fun _ t => InOrder os rs accepted none t ∧ Went s.state t.state) (fun _ _ => False) := by
  simp only [Amid.reconcile, ends_bind, ends_current]
  have hlimit : s.state.book.itemCount < s.state.book.itemCount + 1 := Nat.lt_succ_self _
  generalize s.state.book.itemCount + 1 = limit at hlimit ⊢
  induction limit generalizing s with
  | zero => omega
  | succ limit ih =>
    rw [Amid.reconcileSteps]
    refine (clean_reconcileRound hS ho h).bind ?_
    rintro result t ⟨ht, hwent, hfewer⟩
    split
    · next hgo =>
      have := hfewer hgo
      exact (ih ht (by omega)).imp (fun _ u hu => ⟨hu.1, hwent.trans hu.2⟩)
    · exact ⟨ht, hwent⟩

/-- An order that came in rests, whether it is open or not. -/
theorem clean_rest (ho : Orderly os rs) (h : InOrder os rs accepted (some r) s)
    (hr : Arriving rs side r s.state) :
    Ends (rest side r) s
      (fun _ t => InOrder os rs accepted none t ∧ Went s.state t.state) (fun _ _ => False) := by
  simp only [rest, ends_bind, ends_current, ends_changeQueue, ends_onLedger, Book.ledger_withQueue]
  refine (h.ledger.ends_add ho hr.mem).imp ?_
  intro _ t ht
  have hsound : Sound (· ∈ rs) (s.state.rested side r t.state) :=
    h.sound.rested hr.mem hr.side hr.type t.state
  exact ⟨⟨hsound, ht⟩, .of_office rfl (Book.phase_withQueue ..)⟩

/-- Processing an order that is accepted. -/
theorem clean_process (hS : S.Careful) (ho : Orderly os rs) (h : InOrder os rs accepted (some r) s)
    (hr : Arriving rs (s.state.order r).side r s.state) :
    Ends (Amid.process S others r) s
      (fun _ t => InOrder os rs accepted none t ∧ Went s.state t.state) (fun _ _ => False) := by
  simp only [Amid.process, ends_bind, ends_current]
  refine (clean_matchIncoming hS ho _ h hr ?_).imp ?_
  · unfold processLimit
    split <;> omega
  rintro activated t ⟨ht, hwent⟩
  have hleft : Ends (restLeft (s.state.order r).side r) t
      (fun _ u => InOrder os rs accepted none u ∧ Went s.state u.state) (fun _ _ => False) := by
    simp only [restLeft, ends_bind, ends_current]
    split
    · exact (clean_rest ho ht (hr.went hwent)).imp (fun _ u hu => ⟨hu.1, hwent.trans hu.2⟩)
    · next hopen =>
      exact ⟨⟨ht.sound, ht.ledger.finish (by simpa using hopen)⟩, hwent⟩
  refine hleft.imp ?_
  rintro _ u ⟨hu, hwent'⟩
  split
  · exact (clean_reconcile hS ho hu).imp (fun _ v hv => ⟨hv.1, hwent'.trans hv.2⟩)
  · exact ⟨hu, hwent'⟩

end Bourse.Desk
