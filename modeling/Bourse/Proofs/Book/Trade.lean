import Bourse.Proofs.Book.Search
import Bourse.Proofs.Settlement

/-!
# One match step

`makeTrade` lets simulated settlement deal with an open pair and brings the book in line with the
outcome: `Desk.dealt` is the desk after it, for whatever ledger the depth of the pair leads to.
What happens to the ledger alone is `Ledger.settlePair`, so a fact about the ledger is carried over
a match step without looking at the book (`ends_makeTrade`).
-/

namespace Bourse

/-- What is left of a shown order after a match. -/
def Shown.left? (finished : Bool) (trade : Option Trade) (e : Shown) : Option Shown :=
  if finished then none
  else match trade with
    | none => some e
    | some t =>
      if e.quantity.toNat ≤ t.quantity.toNat then none
      else some { e with quantity := e.quantity.monus t.quantity }

/-- What is left of a shown order has the number of it. -/
theorem Shown.id_of_left? {finished : Bool} {trade : Option Trade} {e e' : Shown}
    (h : e.left? finished trade = some e') : e'.id = e.id := by
  unfold left? at h
  split at h
  · cases h
  · split at h
    · cases h
      rfl
    · split at h
      · cases h
      · cases h
        rfl

namespace Ledger

/-- Takes a trade, if there was one, off a shown order. -/
def takeOff (id : OrderId) : Option Trade → Action Ledger Unit
  | some t => reduce id t.quantity >>= fun _ => pure ()
  | none => pure ()

/-- Brings the depth of one order in line with a match. -/
def settleSide (id : OrderId) (finished : Bool) (trade : Option Trade) : Action Ledger Unit := do
  takeOff id trade
  if finished then withdraw id else pure ()

/-- Reports a trade, if there was one. -/
def recordDeal : Option Trade → Action Ledger Unit
  | some t => recordTrade t
  | none => pure ()

/-- Brings the depth of the order of a side in line with a match, unless it is the incoming one,
which is not shown. -/
def settleShown (incoming : Option Side) (side : Side) (id : OrderId) (out : FillOutcome) :
    Action Ledger Unit :=
  if incoming = some side then pure () else settleSide id (out.status side).isDone out.trade

/-- Brings the ledger in line with a match. -/
def settlePair (a b : OrderId) (out : FillOutcome) (incoming : Option Side) :
    Action Ledger Unit := do
  recordDeal out.trade
  settleShown incoming .ask a out
  settleShown incoming .bid b out

variable {s : Logged Ledger} {a b id : OrderId} {out : FillOutcome} {finished : Bool}
  {trade : Option Trade} {incoming : Option Side}

open Bourse.Action

/-- Bringing the depth of one order in line breaks off only by an overflow. -/
theorem breaks_settleSide :
    Ends (settleSide id finished trade) s (fun _ _ => True) (fun f _ => f.IsOverflow) := by
  have hwithdraw : ∀ t, Ends (if finished then withdraw id else pure ()) t (fun _ _ => True)
      (fun f _ => f.IsOverflow) := by
    intro t
    split
    · exact breaks_withdraw
    · trivial
  rw [settleSide, ends_bind]
  cases trade with
  | none => exact hwithdraw s
  | some t =>
    rw [takeOff, ends_bind]
    exact breaks_reduce.imp (fun _ t _ => hwithdraw t)

/-- Bringing the ledger in line with a match breaks off only by an overflow. -/
theorem breaks_settlePair :
    Ends (settlePair a b out incoming) s (fun _ _ => True) (fun f _ => f.IsOverflow) := by
  have hside : ∀ (side : Side) (id : OrderId) (t : Logged Ledger),
      Ends (settleShown incoming side id out) t (fun _ _ => True) (fun f _ => f.IsOverflow) := by
    intro side id t
    unfold settleShown
    split
    · trivial
    · exact breaks_settleSide
  have hrecord : Ends (recordDeal out.trade) s (fun _ _ => True) (fun f _ => f.IsOverflow) := by
    cases out.trade with
    | none => trivial
    | some t => exact breaks_recordTrade
  exact hrecord.bind fun _ t _ => (hside .ask a t).bind fun _ t _ => hside .bid b t

/-- The order shows as much as was traded, if it is shown. -/
def Covers (l : Ledger) (id : OrderId) (trade : Option Trade) : Prop :=
  ∀ t, trade = some t → ∀ e, l.find? id = some e → t.quantity.toNat ≤ e.quantity.toNat

/-- Taking a trade off a shown order changes what is shown of that order alone. -/
theorem ends_takeOff (h : s.state.Balanced) (hfit : total s.state.shown < 2 ^ 63) :
    Ends (takeOff id trade) s
      (fun _ t => t.state.Balanced ∧ total t.state.shown ≤ total s.state.shown ∧
        (∀ e, e ∈ t.state.shown ↔ (e ∈ s.state.shown ∧ e.id ≠ id) ∨
          ∃ e' ∈ s.state.shown, e'.id = id ∧ e'.left? false trade = some e) ∧
        (s.state.Covers id trade → t.journal = s.journal))
      (fun _ _ => False) := by
  cases trade with
  | none =>
    refine ⟨h, le_rfl, fun e => ⟨?_, ?_⟩, fun _ => rfl⟩
    · intro he
      by_cases hid : e.id = id
      · exact .inr ⟨e, he, hid, rfl⟩
      · exact .inl ⟨he, hid⟩
    · rintro (⟨he, -⟩ | ⟨e', he', -, heq⟩)
      · exact he
      · exact Option.some.inj heq ▸ he'
  | some t =>
    rw [takeOff, ends_bind]
    refine (ends_reduce h (fits_of_total (n := 0) hfit)).imp ?_
    intro _ u hu
    obtain ⟨hb, hshown, hjournal, -⟩ := hu
    rw [ends_pure, hshown]
    refine ⟨hb, total_reduced_le h.distinct _ _, ?_,
      fun hcovers => hjournal.trans (reducedJournal_eq_self (hcovers t rfl))⟩
    intro e
    rw [mem_reduced h.distinct]
    refine or_congr_right (exists_congr fun e' => and_congr_right fun _ =>
      and_congr_right fun _ => ?_)
    rw [Shown.left?, if_neg (by decide)]
    split
    · next hle => exact ⟨fun h => absurd h.1 (Nat.not_lt.2 hle), nofun⟩
    · next hlt =>
      exact ⟨fun h => congrArg some h.2.symm,
        fun h => ⟨Nat.not_le.1 hlt, (Option.some.inj h).symm⟩⟩

/-- Bringing the depth of an order in line changes what is shown of that order alone. -/
theorem ends_settleSide (h : s.state.Balanced) (hfit : total s.state.shown < 2 ^ 63) :
    Ends (settleSide id finished trade) s
      (fun _ t => t.state.Balanced ∧ total t.state.shown ≤ total s.state.shown ∧
        (∀ e, e ∈ t.state.shown ↔ (e ∈ s.state.shown ∧ e.id ≠ id) ∨
          ∃ e' ∈ s.state.shown, e'.id = id ∧ e'.left? finished trade = some e) ∧
        (s.state.Covers id trade → t.journal = s.journal))
      (fun _ _ => False) := by
  refine (ends_takeOff h hfit).bind ?_
  intro _ t ht
  obtain ⟨hb, hle, hmem, hjournal⟩ := ht
  cases finished
  · exact ⟨hb, hle, hmem, hjournal⟩
  · refine (ends_withdraw hb (fits_of_total (n := 0) (hle.trans_lt hfit))).imp
      (fun _ u hu => ⟨hu.1, ?_, ?_, fun hcovers => hu.2.2.trans (hjournal hcovers)⟩)
    · rw [hu.2.1]
      exact (total_without_le _ _).trans hle
    · intro e
      rw [hu.2.1, mem_without, hmem]
      constructor
      · rintro ⟨hmem' | ⟨e', -, hid, heq⟩, hne⟩
        · exact .inl hmem'
        · exact absurd (Shown.id_of_left? heq ▸ hid) hne
      · rintro (hmem' | ⟨e', -, -, heq⟩)
        · exact ⟨.inl hmem', hmem'.2⟩
        · cases heq

end Ledger

namespace Desk

open Bourse.Action

variable {σ : Type} {t : Logged (Desk σ)} {s : Logged (Desk Simulated)} {d : Desk Simulated}
  {ask bid : OrderRef} {incoming : Option Side} {known : OrderRef → Prop} {P : Ledger → Prop}
  {B : Prop}

/-- The price at which a pair would trade now. -/
def dealPrice (d : Desk σ) (ask bid : OrderRef) : Price :=
  tradePrice (d.order ask) (d.order bid) d.book.lastPrice

/-- The trade that an open pair would make now. -/
def deal? (d : Desk Simulated) (ask bid : OrderRef) : Option Trade :=
  d.office.deal? ask bid (d.dealPrice ask bid)

/-- The trades that settlement made so far, the oldest first. -/
def trades (d : Desk Simulated) : List Trade := d.office.backend.trades.toList

/-- The pair made its deal, if it made one, and there was no other. -/
def Deals (d : Desk Simulated) (ask bid : OrderRef) (d' : Desk Simulated) : Prop :=
  d'.trades = d.trades ++ (d.deal? ask bid).toList

/-- A search makes no trade. -/
theorem Searched.trades {d d' : Desk Simulated} {side : Side} {exclude : Option UserId}
    {dropped : Multiset Item} {aside : List Item}
    (h : Searched side exclude d d' dropped aside) : d'.trades = d.trades := by
  unfold Desk.trades
  rw [h.office]

/-- A search makes no difference to the deal of a pair. -/
theorem Searched.deal? {d d' : Desk Simulated} {side : Side} {exclude : Option UserId}
    {dropped : Multiset Item} {aside : List Item}
    (h : Searched side exclude d d' dropped aside) (ask bid : OrderRef) :
    d'.deal? ask bid = d.deal? ask bid := by
  unfold Desk.deal? dealPrice
  rw [h.order, h.order, h.office, h.lastPrice]

/-- The last price after an open pair was settled. -/
def dealtPrice (d : Desk Simulated) (ask bid : OrderRef) : Price :=
  ((d.deal? ask bid).map (·.price)).getD d.book.lastPrice

/-- The desk after an open pair was settled, up to the ledger. -/
def dealt (d : Desk Simulated) (ask bid : OrderRef) (l : Ledger) : Desk Simulated where
  office := d.office.dealt ask bid (d.dealPrice ask bid)
  book := { d.book with lastPrice := d.dealtPrice ask bid, ledger := l }

/-- The trades after an open pair was settled. -/
theorem deals_of_office {d' : Desk Simulated}
    (h : d'.office = d.office.dealt ask bid (d.dealPrice ask bid)) : d.Deals ask bid d' := by
  unfold Deals trades
  rw [h]
  exact Office.trades_dealt

/-- What is dealt after a search is dealt from before it. -/
theorem Deals.of_search {d d' d'' : Desk Simulated} {side : Side} {exclude : Option UserId}
    {dropped : Multiset Item} {aside : List Item} (h : d'.Deals ask bid d'')
    (hsearch : Searched side exclude d d' dropped aside) : d.Deals ask bid d'' := by
  unfold Deals trades at *
  rw [h, hsearch.deal?, hsearch.office]

/-- The answer of a match step on an open pair. -/
def dealStep (d : Desk Simulated) (ask bid : OrderRef) : MatchStep where
  askDone := ((d.office.dealt ask bid (d.dealPrice ask bid)).orders.get ask).closed
  bidDone := ((d.office.dealt ask bid (d.dealPrice ask bid)).orders.get bid).closed
  trade := d.deal? ask bid

/-- What bringing the depth of a pair in line does to a ledger: it leads to `P`, or breaks off with
`B`. -/
def Settles (d : Desk Simulated) (ask bid : OrderRef) (incoming : Option Side)
    (P : Ledger → Prop) (B : Prop) : Prop :=
  ∀ j, Ends (Ledger.settlePair (d.order ask).id (d.order bid).id
    (Simulated.outcome d.office ask bid (d.dealPrice ask bid)) incoming) ⟨d.book.ledger, j⟩
    (fun _ t => P t.state) (fun f _ => f.IsOverflow ∧ B)

/-- The depth of one order is a matter of the ledger alone. -/
theorem ends_settleDepth {id : OrderId} {status : FillStatus} {trade : Option Trade}
    {Q : Unit → Logged (Desk σ) → Prop} {E : Failure → Logged (Desk σ) → Prop} :
    Ends (settleDepth id status trade) t Q E ↔
      Ends (Ledger.settleSide id status.isDone trade) ⟨t.state.book.ledger, t.journal⟩
        (fun _ u => Q () ⟨{ t.state with book := { t.state.book with ledger := u.state } },
          u.journal⟩)
        (fun f u => E f ⟨{ t.state with book := { t.state.book with ledger := u.state } },
          u.journal⟩) := by
  cases trade <;> cases hd : status.isDone <;>
    simp only [settleDepth, Ledger.settleSide, Ledger.takeOff, hd, ends_bind, ends_onLedger,
      ends_pure, if_true, if_false, Bool.false_eq_true]

/-- The part of a match step that records the trade. -/
def recordDeal (i : InstrumentId) (a b : OrderId) : Option Trade → Action (Desk σ) Unit
  | some t => do
    Action.log (.traded i a b t.price t.quantity)
    onLedger (Ledger.recordTrade t)
    changeBook fun book => { book with lastPrice := t.price }
  | none => pure ()

/-- The part of a match step that brings the depth of one side in line. -/
def settleShown (incoming : Option Side) (side : Side) (id : OrderId) (out : FillOutcome) :
    Action (Desk σ) Unit :=
  if incoming ≠ some side then settleDepth id (out.status side) out.trade else pure ()

/-- The answer of a match step. -/
def answer (a b : OrderId) (out : FillOutcome) : Except MatchFault MatchStep :=
  if out.ask.isDone || out.bid.isDone then .ok ⟨out.ask.isDone, out.bid.isDone, out.trade⟩
  else .error ⟨a, b, out⟩

/-- A match step in its parts. -/
theorem makeTrade_eq (S : Settlement σ) : makeTrade S ask bid incoming = (do
    let d ← Action.current
    let out ← onOffice (S.fill ask bid (d.dealPrice ask bid)
      (min (d.order ask).unfulfilled (d.order bid).unfulfilled))
    recordDeal d.book.instrument (d.order ask).id (d.order bid).id out.trade
    settleShown incoming .ask (d.order ask).id out
    settleShown incoming .bid (d.order bid).id out
    return answer (d.order ask).id (d.order bid).id out) := by
  unfold makeTrade
  refine bind_congr ?_
  intro d
  simp only [tradeTerms]
  refine bind_congr ?_
  intro out
  have hanswer : (if out.ask.isDone || out.bid.isDone then
      pure (.ok ⟨out.ask.isDone, out.bid.isDone, out.trade⟩)
      else pure (.error ⟨(d.order ask).id, (d.order bid).id, out⟩) :
        Action (Desk σ) (Except MatchFault MatchStep)) =
      pure (answer (d.order ask).id (d.order bid).id out) := by
    unfold answer
    split <;> rfl
  have hbid : (if incoming ≠ some .bid then
      settleDepth (d.order bid).id out.bid out.trade >>= fun _ =>
        pure (answer (d.order ask).id (d.order bid).id out)
      else pure (answer (d.order ask).id (d.order bid).id out) : Action (Desk σ) _) =
      settleShown incoming .bid (d.order bid).id out >>= fun _ =>
        pure (answer (d.order ask).id (d.order bid).id out) := by
    unfold settleShown
    split <;> rfl
  have hask : (if incoming ≠ some .ask then
      settleDepth (d.order ask).id out.ask out.trade >>= fun _ =>
        settleShown incoming .bid (d.order bid).id out >>= fun _ =>
          pure (answer (d.order ask).id (d.order bid).id out)
      else settleShown incoming .bid (d.order bid).id out >>= fun _ =>
          pure (answer (d.order ask).id (d.order bid).id out) : Action (Desk σ) _) =
      settleShown incoming .ask (d.order ask).id out >>= fun _ =>
        settleShown incoming .bid (d.order bid).id out >>= fun _ =>
          pure (answer (d.order ask).id (d.order bid).id out) := by
    rw [settleShown.eq_1 incoming .ask]
    split <;> rfl
  simp only [hanswer, hbid, hask]
  cases out.trade with
  | none => rfl
  | some t =>
    simp only [recordDeal, bind_assoc]

/-- The depth of one side is a matter of the ledger alone. -/
theorem ends_settleShown {side : Side} {id : OrderId} {out : FillOutcome}
    {Q : Unit → Logged (Desk σ) → Prop} {E : Failure → Logged (Desk σ) → Prop} :
    Ends (settleShown incoming side id out) t Q E ↔
      Ends (Ledger.settleShown incoming side id out) ⟨t.state.book.ledger, t.journal⟩
        (fun _ u => Q () ⟨{ t.state with book := { t.state.book with ledger := u.state } },
          u.journal⟩)
        (fun f u => E f ⟨{ t.state with book := { t.state.book with ledger := u.state } },
          u.journal⟩) := by
  unfold settleShown Ledger.settleShown
  by_cases hin : incoming = some side
  · rw [if_pos hin, if_neg (not_not.2 hin)]
    rfl
  · rw [if_neg hin, if_pos hin, ends_settleDepth]

/-- Recording a trade logs no error, reports it and sets the last price. -/
theorem ends_recordDeal {i : InstrumentId} {a b : OrderId} {trade : Option Trade}
    {Q : Unit → Logged (Desk σ) → Prop} {E : Failure → Logged (Desk σ) → Prop}
    (h : ∀ j, (Spotless t.journal → Spotless j) → Ends (Ledger.recordDeal trade)
      ⟨t.state.book.ledger, j⟩ (fun _ u => Q () ⟨{ t.state with book := { t.state.book with
        lastPrice := (trade.map (·.price)).getD t.state.book.lastPrice, ledger := u.state } },
          u.journal⟩)
      (fun f u => E f ⟨{ t.state with book := { t.state.book with ledger := u.state } },
        u.journal⟩)) :
    Ends (recordDeal i a b trade) t Q E := by
  cases trade with
  | none => exact h t.journal id
  | some t =>
    simp only [recordDeal, ends_bind, ends_log, ends_onLedger, ends_changeBook]
    exact h _ fun hj => hj.push Severity.noConfusion

/-- A match step on a pair that settlement answers with an outcome, and leaves an office. -/
theorem ends_makeTrade_of_fill {S : Settlement σ} {out : FillOutcome} {o : Office σ}
    (hfill : Ends (S.fill ask bid (t.state.dealPrice ask bid)
      (min (t.state.order ask).unfulfilled (t.state.order bid).unfulfilled))
      ⟨t.state.office, t.journal⟩
      (fun out' u => out' = out ∧ u.state = o) (fun _ _ => False))
    (hledger : ∀ j, Ends (Ledger.settlePair (t.state.order ask).id
      (t.state.order bid).id out incoming)
      ⟨t.state.book.ledger, j⟩ (fun _ u => P u.state) (fun f _ => f.IsOverflow ∧ B)) :
    Ends (makeTrade S ask bid incoming) t
      (fun r u => r = answer (t.state.order ask).id (t.state.order bid).id out ∧
        ∃ l, P l ∧ u.state =
        { office := o
          book := { t.state.book with
            lastPrice := (out.trade.map (·.price)).getD t.state.book.lastPrice, ledger := l } })
      (fun f u => f.IsOverflow ∧ B ∧ ∃ p l, u.state =
        { office := o, book := { t.state.book with lastPrice := p, ledger := l } }) := by
  simp only [Ledger.settlePair, ends_bind] at hledger
  rw [makeTrade_eq]
  simp only [ends_bind, ends_current, ends_onOffice]
  refine hfill.mono ?_ fun _ _ hf => hf.elim
  rintro _ u ⟨rfl, rfl⟩
  refine ends_recordDeal fun j _ => (hledger j).mono ?_ fun f u hf => ⟨hf.1, hf.2, _, _, rfl⟩
  intro _ u hu
  rw [ends_settleShown]
  refine hu.mono ?_ fun f u hf => ⟨hf.1, hf.2, _, _, rfl⟩
  intro _ u hu
  rw [ends_settleShown]
  exact hu.mono (fun _ u hu => ⟨rfl, u.state, hu, rfl⟩) fun f u hf => ⟨hf.1, hf.2, _, _, rfl⟩

/-- A match step on an open pair. -/
theorem ends_makeTrade (hne : ask ≠ bid) (ha : (s.state.order ask).isOpen = true)
    (hb : (s.state.order bid).isOpen = true) (hledger : Settles s.state ask bid incoming P B) :
    Ends (makeTrade Simulated.settlement ask bid incoming) s
      (fun r t => r = .ok (s.state.dealStep ask bid) ∧
        ∃ l, P l ∧ t.state = s.state.dealt ask bid l)
      (fun f t => f.IsOverflow ∧ B ∧ ∃ p l, t.state =
        { office := s.state.office.dealt ask bid (s.state.dealPrice ask bid)
          book := { s.state.book with lastPrice := p, ledger := l } }) := by
  have hsettle := Simulated.ends_settle (s := ⟨s.state.office, s.journal⟩) hne
    (Order.isOpen_iff.1 ha).1 (Order.isOpen_iff.1 hb).1 (s.state.dealPrice ask bid) rfl
  have hanswer : answer (s.state.order ask).id (s.state.order bid).id
      (Simulated.outcome s.state.office ask bid (s.state.dealPrice ask bid)) =
      .ok (s.state.dealStep ask bid) := by
    unfold answer Simulated.outcome
    simp only [Simulated.isDone_statusOf]
    rw [if_pos (Bool.or_eq_true _ _ ▸ Office.closed_dealt hne ha hb)]
    rfl
  refine (ends_makeTrade_of_fill (hsettle.imp fun _ _ ht => ⟨ht.1, congrArg _ ht.2⟩)
    hledger).imp ?_
  exact fun _ _ ht => ⟨ht.1.trans hanswer, ht.2⟩

end Desk

end Bourse
