import Bourse.Proofs.Book.Quiet
import Bourse.Proofs.Book.Rules
import Bourse.Proofs.Book.Stalled
import Bourse.Proofs.Ledger.Tallied
import Bourse.Proofs.Queue.Served

/-!
# Processing without a trade

An incoming order may meet nobody: it is not open, or the other side has no open order of another
user, or the best of them does not cross it. Settlement is not called then. The search has taken
items off the other side by that time, any number of the user's own orders and of orders that are
not open, and has put back what it set aside. `Desk.Untraded` says that the other side serves its
open orders as before, and that nothing happened to market depth but the withdrawal of what was
dropped and the arrival of the order.

Once settlement is called the record of its calls has grown, and nothing takes that back
(`matching_calls`). So it is enough to follow the rounds in which it is not called
(`ends_matchRound_of_untraded`).
-/

namespace Bourse

open Bourse.Action

variable {σ : Type} {S : Settlement σ}

namespace Desk

variable {d d' d₁ : Desk (Recorded σ)} {s : Logged (Desk (Recorded σ))} {r ask bid : OrderRef}
  {i : Item} {gone : Multiset Item} {aside : List Item} {l : Ledger} {n : Nat} {side : Side}
  {user : UserId}

/-! ## Calls to settlement -/

/-- How many calls to fill were made. -/
def calls (d : Desk (Recorded σ)) : Nat := d.office.backend.transcript.fills.length

/-- A fill that is written down is one call more. -/
theorem calls_written_fill (d : Desk (Recorded σ)) (c : FillCall) (o : Office σ) (b : Book) :
    calls ⟨d.office.written (.fill c) o, b⟩ = d.calls + 1 := by
  rw [calls, Office.written, Transcript.fills_snoc_fill, List.length_append]
  rfl

/-- Matching takes no call back. -/
theorem matching_calls (S : Settlement σ) :
    Matching S.recorded fun d d' => d.calls ≤ d'.calls where
  refl _ := le_rfl
  trans := le_trans
  queue _ _ _ := le_rfl
  dormant _ _ _ := le_rfl
  ledger _ _ := le_rfl
  activate _ _ := le_rfl
  note {d _ _ _} hl := by
    refine hl.of_ends (P := fun _ u => d.calls ≤ u.backend.transcript.fills.length) fun j =>
      Settlement.ends_stopLossTriggered_recorded.2 ((Ends.any _ _).mono ?_ ?_)
    all_goals
      intro _ t _
      exact (congrArg List.length (Transcript.fills_snoc_triggered ..)).ge
  fill {d _ _ _ _ _} hl := by
    refine hl.of_ends (P := fun _ u => d.calls ≤ u.backend.transcript.fills.length) fun j =>
      Settlement.ends_fill_recorded.2 ((Ends.any _ _).mono ?_ ?_)
    all_goals
      intro _ t _
      exact (Nat.le_succ _).trans (calls_written_fill d _ _ d.book).ge
  breakOff {d _ _ _ _} hl := by
    refine hl.of_ends (P := fun _ u => d.calls ≤ u.backend.transcript.fills.length) fun j =>
      Settlement.ends_fill_recorded.2 ((Ends.any _ _).mono ?_ ?_)
    all_goals
      intro _ t _
      exact (Nat.le_succ _).trans (calls_written_fill d _ _ d.book).ge

/-- A match step calls settlement. -/
theorem calls_makeTrade {incoming : Option Side} : Ends (makeTrade S.recorded ask bid incoming) s
    (fun _ t => s.state.calls < t.state.calls) (fun _ t => s.state.calls < t.state.calls) := by
  have hcalled : ∀ c o b, s.state.calls < calls ⟨s.state.office.written (.fill c) o,
    b⟩ := fun c o b =>
    Nat.lt_of_succ_le (calls_written_fill s.state c o b).ge
  rw [makeTrade_eq, ends_bind, ends_current, ends_bind, ends_onOffice,
    Settlement.ends_fill_recorded]
  refine (Ends.any _ _).mono ?_ fun _ t _ => hcalled ..
  intro out t _
  refine ((matching_calls S).afterFill _ _ _ out (le_refl (calls ⟨_, s.state.book⟩))).mono ?_ ?_
  all_goals
    intro _ u hu
    exact (hcalled ..).trans_le hu

/-! ## What is withdrawn -/

section

variable (d : Desk (Recorded σ)) (gone : Multiset Item)

/-- What is shown of others than the orders of these items. -/
def staying : List Shown :=
  d.book.ledger.shown.filter fun e => ∀ i ∈ gone, (d.order i.order).id ≠ e.id

/-- What is shown of the orders of these items. -/
def withdrawn : List Shown :=
  d.book.ledger.shown.filter fun e => !decide (∀ i ∈ gone, (d.order i.order).id ≠ e.id)

/-- What an order adds to what is shown: it is shown with all it has left if it is open, and its
number is not shown yet. -/
def arrival (r : OrderRef) : List Shown :=
  if (d.order r).isOpen ∧ ∀ e ∈ d.staying gone, e.id ≠ (d.order r).id then [.ofOrder (d.order r)]
  else []

end

/-- Of what the ledger showed, the orders of these items were withdrawn. -/
structure Withdrawn (n : Nat) (d : Desk (Recorded σ)) (gone : Multiset Item)
    (l : Ledger) : Prop where
  shown : l.shown = d.staying gone
  tallied : d.book.ledger.Tallied → l.Tallied
  feed : l.depth.feed = d.book.ledger.depth.feed
  room : d.book.ledger.HasRoom n → l.HasRoom n

/-- Nothing was withdrawn. -/
theorem withdrawn_refl (n : Nat) (d : Desk (Recorded σ)) : Withdrawn n d 0 d.book.ledger where
  shown := (List.filter_eq_self.2 fun e _ => by simp).symm
  tallied := id
  feed := rfl
  room := id

/-- One more is withdrawn. -/
theorem Withdrawn.ends_withdraw (h : Withdrawn n d gone l) (i : Item) {j : Array Event} :
    Ends (Ledger.withdraw (d.order i.order).id) ⟨l, j⟩
    (fun _ t => Withdrawn n d (gone + {i}) t.state)
      (fun f _ => f.IsOverflow ∧ ¬ d.book.ledger.HasRoom n) := by
  have htallied : Ends (Ledger.withdraw (d.order i.order).id) ⟨l, j⟩ _ _ :=
    .assuming fun hd => (h.tallied hd).ends_withdraw (s := ⟨l, j⟩)
  refine (Ledger.ends_roomy
    (P := fun l' => (l'.shown = Ledger.without (d.order i.order).id l.shown ∧
      l'.depth.feed = l.depth.feed) ∧ (d.book.ledger.Tallied → l'.Tallied))
    ((Ledger.shown_withdraw.and Ledger.feed_withdraw).and htallied) Ledger.breaks_withdraw
    fun hroom => (h.room hroom).ends_withdraw).imp ?_
  rintro _ t ⟨⟨⟨hshown, hfeed⟩, htallied⟩, hroom⟩
  refine ⟨?_, htallied, hfeed.trans h.feed, hroom⟩
  rw [hshown, h.shown, staying, staying, Ledger.without, List.filter_filter]
  refine List.filter_congr fun e _ => ?_
  simp [or_imp, forall_and, and_comm, eq_comm]

/-- The search withdraws what it drops. -/
theorem tracks_withdrawn (n : Nat) (d : Desk (Recorded σ)) (side : Side) :
    Tracks d side (fun gone l => Withdrawn n d gone l.state) (¬ d.book.ledger.HasRoom n) where
  withdraw _ i _ _ _ hl := hl.ends_withdraw i
  log _ _ _ _ hl := hl

/-! ## Rounds without a call -/

/-- The search took items off the other side, found nobody to match, and put back what it set
aside. -/
def Fruitless (n : Nat) (side : Side) (user : UserId) (gone : Multiset Item)
    (d d' : Desk (Recorded σ)) : Prop :=
  ∃ d₁ aside, Searched side.opposite (some user) d d₁ gone aside ∧
    Withdrawn n d gone d₁.book.ledger ∧ d' = d₁.withItems side.opposite aside

/-- No round was made. -/
theorem fruitless_refl (n : Nat) (side : Side) (user : UserId) (d : Desk (Recorded σ)) :
    Fruitless n side user 0 d d :=
  ⟨d, [], .refl .., withdrawn_refl n d, by cases side <;> rfl⟩

/-- A round calls settlement, or it is the last one and fruitless. -/
theorem ends_matchRound_of_untraded : Ends (matchRound S.recorded side user r) s
    (fun result t => s.state.calls < t.state.calls ∨
      result = ⟨false, false⟩ ∧ ∃ gone, Fruitless n side user gone s.state t.state)
    (fun f t => s.state.calls < t.state.calls ∨ f.IsOverflow ∧
      ¬ s.state.book.ledger.HasRoom n) := by
  have h := matching_calls S
  rw [matchRound, ends_bind, ends_current]
  split
  · exact .inr ⟨rfl, 0, fruitless_refl ..⟩
  rw [ends_bind]
  refine (ends_findTop_of_tracks (tracks_withdrawn n s.state _) (withdrawn_refl ..)).mono ?_
    fun f _ hf => .inr ⟨hf.1, hf.2.1⟩
  rintro ⟨_ | resting, aside⟩ t ⟨gone, hsearch, -, hledger⟩
  · exact .inr ⟨rfl, gone, t.state, aside, hsearch, hledger, rfl⟩
  have hcalls : s.state.calls = t.state.calls := by rw [calls, calls, hsearch.office]
  rw [ends_bind, ends_current]
  split
  · exact .inr ⟨rfl, gone, t.state, aside, hsearch, hledger, rfl⟩
  -- settlement is called, and what comes after does not take that back
  refine Ends.bind (calls_makeTrade.mono (fun _ _ hu => hu) fun _ _ hu => .inl (hcalls ▸ hu)) ?_
  have hgrown : ∀ {act : Action (Desk (Recorded σ)) RoundResult} {u : Logged (Desk (Recorded σ))},
      Respects (fun d d' => d.calls ≤ d'.calls) act → t.state.calls < u.state.calls → Ends act u
        (fun result v => s.state.calls < v.state.calls ∨
          result = ⟨false, false⟩ ∧ ∃ gone, Fruitless n side user gone s.state v.state)
        (fun f v => s.state.calls < v.state.calls ∨ f.IsOverflow ∧
          ¬ s.state.book.ledger.HasRoom n) :=
    fun hact hu => (hact _).mono (fun _ _ hv => .inl (hcalls ▸ hu.trans_le hv))
      fun _ _ hv => .inl (hcalls ▸ hu.trans_le hv)
  rintro (fault | step) u hu
  · exact hgrown ((Respects.log h.toChains _).bind h.toChains fun _ => h.endRound _ _ _) hu
  · exact hgrown (.ite (h.popResting.bind h.toChains fun _ => h.endRound _ _ _)
      (h.endRound _ _ _)) hu

/-- Matching calls settlement, or it ends with a fruitless round. -/
theorem ends_matchIncoming_of_untraded (limit : Nat) :
    Ends (matchIncoming S.recorded side user r (limit + 1) false) s
      (fun activated t => s.state.calls < t.state.calls ∨
        activated = false ∧ ∃ gone, Fruitless n side user gone s.state t.state)
      (fun f t => s.state.calls < t.state.calls ∨ f.IsOverflow ∧
        ¬ s.state.book.ledger.HasRoom n) := by
  have h := matching_calls S
  rw [matchIncoming_succ]
  refine ends_matchRound_of_untraded.bind ?_
  rintro result t (hcalled | ⟨rfl, hround⟩)
  · have hrest : Respects (fun d d' => d.calls ≤ d'.calls) (if result.goesOn then
        matchIncoming S.recorded side user r limit (false || result.fired) else pure
          (false || result.fired)) :=
      .ite (h.matchIncoming _ _) (.pure h.toChains _)
    exact (hrest t).mono (fun _ _ hu => .inl (hcalled.trans_le hu)) fun _ _ hu =>
      .inl (hcalled.trans_le hu)
  · exact .inr ⟨rfl, hround⟩

/-! ## What is left of the order -/

/-- What the ledger is like when what is left of the order rests. -/
structure Arrived (r : OrderRef) (d : Desk (Recorded σ)) (gone : Multiset Item)
    (l : Ledger) : Prop where
  shown : l.shown = d.arrival gone r ++ d.staying gone
  tallied : d.book.ledger.Tallied → l.Tallied
  feed : l.depth.feed = d.book.ledger.depth.feed

/-- An arriving order is shown beside those that stay. -/
theorem Withdrawn.added (h : Withdrawn n d gone l) :
    Ledger.added (d.order r) l = d.arrival gone r ++ d.staying gone := by
  rw [Ledger.added, arrival, h.shown]
  have hnone : (l.find? (d.order r).id).isNone = true ↔ ∀ e ∈ d.staying gone,
      e.id ≠ (d.order r).id := by
    rw [Option.isNone_iff_eq_none, Ledger.find?_eq_none, h.shown]
  by_cases hnew : (d.order r).isOpen = true ∧ ∀ e ∈ d.staying gone, e.id ≠ (d.order r).id
  · rw [if_pos hnew, if_pos (Bool.and_eq_true _ _ ▸ ⟨hnew.1, hnone.2 hnew.2⟩)]
    rfl
  · rw [if_neg hnew, if_neg fun hadd => hnew ?_]
    · rfl
    · rw [Bool.and_eq_true, hnone] at hadd
      exact hadd

/-- An order that arrives is shown. -/
theorem Withdrawn.ends_add (h : Withdrawn (d.order r).unfulfilled.toNat d gone l)
    {j : Array Event} : Ends (Ledger.add (d.order r)) ⟨l, j⟩ (fun _ t => Arrived r d gone t.state)
      (fun f _ => f.IsOverflow ∧ ¬ d.book.ledger.HasRoom (d.order r).unfulfilled.toNat) := by
  have htallied : Ends (Ledger.add (d.order r)) ⟨l, j⟩ _ _ :=
    .assuming fun hd => (h.tallied hd).ends_add (s := ⟨l, j⟩)
  refine (Ledger.ends_roomy (P := fun l' => (l'.shown = Ledger.added (d.order r) l ∧
      l'.depth.feed = l.depth.feed) ∧ (d.book.ledger.Tallied → l'.Tallied))
    (((Ledger.shown_add _).and Ledger.feed_add).and htallied) Ledger.breaks_add
    fun hroom => (h.room hroom).ends_add (Nat.zero_add _).le).imp ?_
  rintro _ t ⟨⟨⟨hshown, hfeed⟩, htallied⟩, -⟩
  exact ⟨hshown.trans h.added, htallied, hfeed.trans h.feed⟩

/-- An order that is not open does not arrive. -/
theorem Withdrawn.arrived (h : Withdrawn n d gone l) (hclosed : (d.order r).isOpen = false) :
    Arrived r d gone l where
  shown := by
    rw [h.shown, arrival, if_neg fun hnew => absurd (hclosed.symm.trans hnew.1) (by decide)]
    rfl
  tallied := h.tallied
  feed := h.feed

/-- An order was processed without a trade, and these items left the other side. -/
structure Untraded (r : OrderRef) (gone : Multiset Item) (d d' : Desk (Recorded σ)) : Prop where
  /-- All orders are as they were, and so is settlement. -/
  office : d'.office = d.office
  /-- Nothing else left the other side, and nothing came. -/
  bag : (d.book.queue (d.order r).side.opposite).bag =
    gone + (d'.book.queue (d.order r).side.opposite).bag
  /-- What left it is not open. -/
  dropped : ∀ i ∈ gone, (d.order i.order).isOpen = false
  /-- The open orders of the other side are served as before, with the same ranks. -/
  drained : ((d'.book.queue (d.order r).side.opposite).drain.filter fun i =>
    (d.order i.order).isOpen) =
    (d.book.queue (d.order r).side.opposite).drain.filter fun i => (d.order i.order).isOpen
  /-- The order rests on its own side if it is open. -/
  own : d'.book.queue (d.order r).side = if (d.order r).isOpen then
    (d.book.queue (d.order r).side).push r (d.order r) else d.book.queue (d.order r).side
  stopLossQueue : ∀ s, d'.book.stopLossQueue s = d.book.stopLossQueue s
  /-- Nor does the last price change. -/
  header : d'.book.header = d.book.header
  /-- What is shown is what the order adds, and what was shown of all orders that did not leave. -/
  shown : d'.book.ledger.shown = d.arrival gone r ++ d.staying gone
  /-- Each level holds more by what arrived, and less by what was withdrawn. -/
  levels : d.book.ledger.Tallied → ∀ s p,
    d'.book.ledger.depth.held s p + Ledger.shownAt (d.withdrawn gone) s p =
      d.book.ledger.depth.held s p + Ledger.shownAt (d.arrival gone r) s p
  /-- Market depth tells of no trade. -/
  feed : d'.book.ledger.depth.feed = d.book.ledger.depth.feed

/-- Each level changes by what arrives and what is withdrawn. -/
theorem Arrived.levels (h : Arrived r d gone l) (hd : d.book.ledger.Tallied)
    (s : Side) (p : Price) : l.depth.held s p + Ledger.shownAt (d.withdrawn gone) s p =
      d.book.ledger.depth.held s p + Ledger.shownAt (d.arrival gone r) s p := by
  have hsplit : Ledger.shownAt (d.staying gone) s p + Ledger.shownAt (d.withdrawn gone) s p =
    Ledger.shownAt d.book.ledger.shown s p := Ledger.shownAt_filter ..
  rw [(h.tallied hd).held, h.shown, Ledger.shownAt_append, hd.held, ← hsplit]
  omega

/-- After a fruitless search what is left of the order rests. -/
theorem Fruitless.untraded (h : Fruitless n (d.order r).side user gone d d₁)
    (hleaves : Leaves (Arrived r d gone) (d.order r).side r d₁ d')
    (hq : (d.book.queue (d.order r).side.opposite).Ordered (.ofResting (d.order r).side.opposite))
    (hids : ((d.book.queue (d.order r).side.opposite).bag.map (·.id)).Nodup) :
    Untraded r gone d d' := by
  obtain ⟨d₀, aside, hsearch, hledger, rfl⟩ := h
  have horder : ∀ r', (d₀.withItems (d.order r).side.opposite aside).order r' = d.order r' :=
    hsearch.order
  have hqueue : d'.book.queue (d.order r).side.opposite =
      aside.foldl Queue.pushItem (d₀.book.queue (d.order r).side.opposite) := by
    rw [hleaves.queue_of_ne (Side.opposite_ne _).symm, queue_withItems, if_pos rfl]
  have hbag : (d.book.queue (d.order r).side.opposite).bag =
      gone + (d'.book.queue (d.order r).side.opposite).bag := by
    rw [hqueue, bag_foldl_pushItem, hsearch.bag, add_assoc]
  have harrived : Arrived r d gone d'.book.ledger := by
    rcases hleaves with ⟨-, l, hl, rfl⟩ | ⟨hclosed, rfl⟩
    · exact hl
    · rw [ledger_withItems]
      exact hledger.arrived (horder r ▸ hclosed)
  refine ⟨hleaves.office.trans hsearch.office, hbag, hsearch.dropped, ?_, ?_, fun s => ?_, ?_,
    harrived.shown, harrived.levels, harrived.feed⟩
  · -- what is open was not dropped
    refine Queue.filter_drain_eq ?_ hq hids ?_
    · exact hqueue ▸ ordered_foldl_pushItem aside (hsearch.ordered hq)
    · have hgone : gone.filter (fun i => (d.order i.order).isOpen = true) = 0 :=
        Multiset.filter_eq_nil.2 fun i hi => by rw [hsearch.dropped i hi]; decide
      rw [hbag, Multiset.filter_add, hgone, zero_add]
  · rcases hleaves with ⟨hopen, l, -, rfl⟩ | ⟨hclosed, rfl⟩
    · rw [horder] at hopen
      rw [queue_rested, if_pos rfl, if_pos hopen, horder, queue_withItems,
        if_neg (Side.opposite_ne _), hsearch.queue_of_ne (Side.opposite_ne _)]
    · rw [horder] at hclosed
      rw [hclosed, queue_withItems, if_neg (Side.opposite_ne _), hsearch.queue_of_ne
        (Side.opposite_ne _)]
      rfl
  · rw [hleaves.stopLossQueue, stopLossQueue_withItems, hsearch.stopLossQueue]
  · have hstays : Stays d (d₀.withItems (d.order r).side.opposite aside) :=
      hsearch.stays.trans (stays_withItems ..)
    rw [← hstays.header]
    rcases hleaves with ⟨-, l, -, rfl⟩ | ⟨-, rfl⟩
    · exact Book.header_withQueue ..
    · rfl

/-- An order that is processed without a call to fill leaves the other side as it was. For every
settlement, every order and every book whose other side has the order of a queue and different
numbers: if no call to fill is made then nothing happens but what `Untraded` says. Processing does
not break off before a call, except where a level of market depth overflows for want of room. -/
theorem process_without_trade
    (hq : (s.state.book.queue (s.state.order r).side.opposite).Ordered
      (.ofResting (s.state.order r).side.opposite))
    (hids : ((s.state.book.queue (s.state.order r).side.opposite).bag.map (·.id)).Nodup) :
    Ends (process S.recorded r) s
      (fun _ t => t.state.office.backend.transcript.fills =
        s.state.office.backend.transcript.fills → ∃ gone, Untraded r gone s.state t.state)
      (fun f t => t.state.office.backend.transcript.fills =
        s.state.office.backend.transcript.fills →
        f.IsOverflow ∧ ¬ s.state.book.ledger.HasRoom (s.state.order r).unfulfilled.toNat) := by
  have h := matching_calls S
  -- a run that called settlement is none of those in question
  have hcalled : ∀ {t : Logged (Desk (Recorded σ))}, s.state.calls < t.state.calls →
      t.state.office.backend.transcript.fills ≠ s.state.office.backend.transcript.fills :=
    fun hlt heq => absurd (congrArg List.length heq) hlt.ne'
  rw [process_eq, ends_bind, ends_current, processLimit]
  refine Ends.bind
    ((ends_matchIncoming_of_untraded (n := (s.state.order r).unfulfilled.toNat) _).mono
    (fun _ _ ht => ht) ?_) ?_
  · rintro f t (hlt | hf) heq
    · exact absurd heq (hcalled hlt)
    · exact hf
  rintro activated t (hlt | ⟨rfl, gone, hround⟩)
  · have hrest : Respects (fun d d' => d.calls ≤ d'.calls)
        (restLeft (s.state.order r).side r >>= fun _ =>
          if activated then reconcile S.recorded else pure ()) :=
      h.restLeft.bind h.toChains fun _ => .ite h.reconcile (.pure h.toChains _)
    exact (hrest t).mono (fun _ _ hu heq => absurd heq (hcalled (hlt.trans_le hu)))
      fun _ _ hu heq => absurd heq (hcalled (hlt.trans_le hu))
  · have horder : t.state.order r = s.state.order r := by
      obtain ⟨d₀, aside, hsearch, -, hstate⟩ := hround
      rw [hstate]
      exact hsearch.order r
    have hledger :
        Withdrawn (s.state.order r).unfulfilled.toNat s.state gone t.state.book.ledger := by
      obtain ⟨d₀, aside, -, hledger, hstate⟩ := hround
      rw [hstate, ledger_withItems]
      exact hledger
    refine Ends.bind (P := fun _ u => Leaves (Arrived r s.state gone) (s.state.order r).side r
      t.state u.state)
      ((ends_restLeft fun _ j => ?_).mono (fun _ _ hu => hu) fun _ _ hf _ => hf) ?_
    · rw [horder]
      exact hledger.ends_add
    · exact fun _ u hu _ => ⟨gone, hround.untraded hu hq hids⟩

/-- An ask at 90 that was cancelled and is still shown, an ask at 91 of the user who bids, and an
ask at 95 of another user. The bid at 93 meets nobody. -/
theorem process_without_trade_nobody :
    let order (number : UInt64) (user : UInt32) (side : Side) (price : UInt64) (closed : Bool) :
    Order :=
      ⟨⟨number⟩, ⟨user⟩, ⟨1⟩, side, .limit, .ofUInt64 price, ⟨5⟩, .zero, closed,
        .ofNat number.toNat⟩
    let orders : Orders :=
      ⟨#[order 1 1 .ask 90 true, order 2 2 .ask 91 false, order 3 1 .ask 95 false,
        order 4 2 .bid 93 false]⟩
    let items : List Item := [⟨0⟩, ⟨1⟩, ⟨2⟩].map fun r => .ofOrder r (orders.get r)
    let empty : Book := .new ⟨⟨1⟩, .ofUInt64 100⟩ 10 1
    let showAll : Action Ledger Unit := [order 1 1 .ask 90 false, order 2 2 .ask 91 false,
      order 3 1 .ask 95 false].forM Ledger.add
    let book : Book := { empty with
      asks := items.foldl Queue.pushItem empty.asks
      ledger := (endState showAll ⟨empty.ledger, #[]⟩).state }
    let desk : Desk (Recorded Simulated) := ⟨⟨orders, .empty, []⟩, book⟩
    ((desk.book.queue .ask).Ordered (.ofResting .ask) ∧
      ((desk.book.queue .ask).bag.map (·.id)).Nodup) ∧
      ∃ gone t, process Simulated.settlement.recorded ⟨3⟩ ⟨desk, #[]⟩ = .ok () t ∧
      Untraded ⟨3⟩ gone desk t.state := by
  intro order orders items empty showAll book desk
  have hordered : (desk.book.queue .ask).Ordered (.ofResting .ask) :=
    ordered_foldl_pushItem items Queue.ordered_empty
  have hids : ((desk.book.queue .ask).bag.map (·.id)).Nodup := by
    rw [show (desk.book.queue .ask).bag = items + 0 from bag_foldl_pushItem items empty.asks]
    decide
  refine ⟨⟨hordered, hids⟩, ?_⟩
  have hfills : Ends (process Simulated.settlement.recorded ⟨3⟩) ⟨desk, #[]⟩
      (fun _ t => t.state.office.backend.transcript.fills = []) (fun _ _ => False) := by
    have hrun : (match process Simulated.settlement.recorded ⟨3⟩ ⟨desk, #[]⟩ with
        | .ok _ t => t.state.office.backend.transcript.fills.isEmpty
        | .error _ _ => false) = true := by decide +kernel
    unfold Ends
    cases hend : process Simulated.settlement.recorded ⟨3⟩ ⟨desk, #[]⟩ <;> rw [hend] at hrun
    · exact List.isEmpty_iff.1 hrun
    · cases hrun
  obtain ⟨_, t, hok, hnone, huntraded⟩ :=
    (hfills.and (process_without_trade (s := ⟨desk, #[]⟩) (r := ⟨3⟩)
    hordered hids)).mono (fun _ _ ht => ht) (fun _ _ hf => hf.1) |>.exists_ok
  obtain ⟨gone, h⟩ := huntraded hnone
  exact ⟨gone, t, hok, h⟩

end Desk

end Bourse
