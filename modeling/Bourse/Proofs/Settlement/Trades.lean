import Bourse.Proofs.Settlement.Settling

/-!
# When settlement records a trade

A call to fill records a trade just in case neither order is closed and the users of both can
settle (`Office.Ready`). The trade is over as much as was asked for and both orders have left
(`Office.common`), both orders are filled with as much, and it is the one trade that is recorded:
`Simulated.Settled`.

An order may have nothing left without being closed, and nothing may be asked for. Then a trade
over nothing is recorded although no shares changed hands, and this is the only way in which an
outcome does not tell what happened (`Simulated.tells_iff_not_empty`), at any point of any sequence
of calls (`Simulated.trades_tell_unless_empty`).
-/

namespace Bourse

open Bourse.Action

namespace Office

/-- Neither order is closed, and the users of both can settle. -/
structure Ready (o : Office Simulated) (ask bid : OrderRef) : Prop where
  ask_closed : (o.orders.get ask).closed = false
  bid_closed : (o.orders.get bid).closed = false
  ask_refused : o.refuses ask = false
  bid_refused : o.refuses bid = false

/-- A pair with a closed order is not ready. -/
theorem not_ready_of_closed {o : Office Simulated} {ask bid : OrderRef}
    (h : (o.orders.get ask).closed = true ∨ (o.orders.get bid).closed = true) :
    ¬ o.Ready ask bid := by
  intro hready
  rw [hready.ask_closed, hready.bid_closed] at h
  exact absurd h (by decide)

/-- As much as is asked for and both orders have left. -/
def common (o : Office Simulated) (ask bid : OrderRef) (q : Quantity) : Quantity :=
  min (min q (o.orders.get ask).unfulfilled) (o.orders.get bid).unfulfilled

/-- The order has so many shares more in the second office than in the first. -/
def Gains (o o' : Office Simulated) (r : OrderRef) (n : Nat) : Prop :=
  (o'.orders.get r).fulfilled.toNat = (o.orders.get r).fulfilled.toNat + n

end Office

/-- How many shares changed hands by the outcome's account. -/
def FillOutcome.shares (out : FillOutcome) : Nat := (out.trade.map (·.quantity.toNat)).getD 0

namespace Simulated

variable {ask bid : OrderRef} {price : Price} {q : Quantity} {o o' : Office Simulated}
  {out : FillOutcome} {s : Logged (Office Simulated)}

/-! ## One call to fill -/

/-- What a call to fill comes to. -/
structure Settled (ask bid : OrderRef) (price : Price) (q : Quantity) (o : Office Simulated)
    (out : FillOutcome) (o' : Office Simulated) : Prop where
  trade_iff : out.trade.isSome = true ↔ o.Ready ask bid
  terms : ∀ t, out.trade = some t → t = ⟨(o.orders.get ask).id, (o.orders.get bid).id, price,
    o.common ask bid q, o.backend.now⟩
  filled : ∀ r, o.Gains o' r (if r = ask ∨ r = bid then out.shares else 0)
  recorded : o'.backend.trades.toList = o.backend.trades.toList ++ out.trade.toList

/-- The outcome tells what happened: there is a trade just in case shares changed hands, it is over
as many shares as did, and it is the one trade that was recorded. -/
structure Tells (ask bid : OrderRef) (o : Office Simulated) (out : FillOutcome)
    (o' : Office Simulated) : Prop where
  trade_iff : out.trade.isSome = true ↔ ∃ n, 0 < n ∧ o.Gains o' ask n ∧ o.Gains o' bid n
  quantity : ∀ t, out.trade = some t →
    o.Gains o' ask t.quantity.toNat ∧ o.Gains o' bid t.quantity.toNat
  recorded : o'.backend.trades.toList = o.backend.trades.toList ++ out.trade.toList

/-- Nothing is recorded of a pair that is not ready, and nothing is filled. -/
theorem settled_of_not_ready (hnot : ¬ o.Ready ask bid) (htrade : out.trade = none)
    (hfilled : ∀ r, (o'.orders.get r).fulfilled = (o.orders.get r).fulfilled)
    (hbackend : o'.backend = o.backend) : Settled ask bid price q o out o' where
  trade_iff := by
    rw [htrade]
    exact iff_of_false nofun hnot
  terms t ht := absurd (htrade.symm.trans ht) nofun
  filled r := by
    have hshares : out.shares = 0 := by rw [FillOutcome.shares, htrade]; rfl
    rw [hshares, ite_self]
    exact congrArg Quantity.toNat (hfilled r)
  recorded := by rw [htrade, hbackend, Option.toList_none, List.append_nil]

/-- Closing the orders of users that cannot settle fills none. -/
theorem fulfilled_closeRefused (o : Office Simulated) (os : Orders) (r r' : OrderRef) :
    ((o.closeRefused os r).get r').fulfilled = (os.get r').fulfilled := by
  rw [Office.get_closeRefused]
  split <;> rfl

/-- What a fill adds to the orders of a pair. -/
theorem toNat_fulfilled_pair {os : Orders} (hne : ask ≠ bid) {n : Quantity}
    (hask : n.toNat ≤ (os.get ask).unfulfilled.toNat)
    (hbid : n.toNat ≤ (os.get bid).unfulfilled.toNat) (r : OrderRef) :
    (((os.modify ask (·.filled n)).modify bid (·.filled n)).get r).fulfilled.toNat =
      (os.get r).fulfilled.toNat + if r = ask ∨ r = bid then n.toNat else 0 := by
  simp only [Orders.get_modify, if_neg hne]
  by_cases hb : bid = r
  · subst hb
    rw [if_pos rfl, if_pos (.inr rfl), Order.toNat_fulfilled_filled hbid]
  · by_cases ha : ask = r
    · subst ha
      rw [if_neg hb, if_pos rfl, if_pos (.inl rfl), Order.toNat_fulfilled_filled hask]
    · rw [if_neg hb, if_neg ha, if_neg (fun h => h.elim (ha ·.symm) (hb ·.symm)), Nat.add_zero]

/-- A pair that is ready trades what it has in common, be it nothing. -/
theorem ends_trade_settled (hne : ask ≠ bid) (hready : s.state.Ready ask bid) :
    Ends (trade ask bid price (s.state.common ask bid q)) s
      (fun out t => Settled ask bid price q s.state out t.state) (fun _ _ => False) := by
  have hask : (s.state.common ask bid q).toNat ≤ (s.state.orders.get ask).unfulfilled.toNat := by
    simp only [Office.common, Quantity.toNat_min]
    omega
  have hbid : (s.state.common ask bid q).toNat ≤ (s.state.orders.get bid).unfulfilled.toNat := by
    simp only [Office.common, Quantity.toNat_min]
    omega
  refine (ends_trade hne hask hbid).imp ?_
  rintro _ _ ⟨rfl, rfl⟩
  refine ⟨iff_of_true rfl hready, fun t ht => (Option.some.inj ht).symm, ?_, Array.toList_push ..⟩
  exact toNat_fulfilled_pair hne hask hbid

/-- Every call to fill two orders is answered, and recorded as it should. -/
theorem ends_settle_settled (s : Logged (Office Simulated)) (price : Price) (q : Quantity)
    (hne : ask ≠ bid) :
    Ends (settle ask bid price q) s (fun out t => Settled ask bid price q s.state out t.state)
      (fun _ _ => False) := by
  simp only [settle, ends_bind, ends_current]
  cases ha : (s.state.orders.get ask).closed <;>
    cases hb : (s.state.orders.get bid).closed <;> simp only
  · split
    · next hrefused =>
      have hnot : ¬ s.state.Ready ask bid := fun h => by
        have hrefused : (s.state.refuses ask || s.state.refuses bid) = true := hrefused
        rw [h.ask_refused, h.bid_refused] at hrefused
        cases hrefused
      refine ends_closeRejected.imp ?_
      rintro _ _ ⟨rfl, rfl⟩
      refine settled_of_not_ready hnot rfl (fun r => ?_) rfl
      rw [fulfilled_closeRefused, fulfilled_closeRefused]
    · next hrefused =>
      have hrefused : ¬ (s.state.refuses ask || s.state.refuses bid) = true := hrefused
      rw [Bool.or_eq_true, not_or, Bool.not_eq_true, Bool.not_eq_true] at hrefused
      exact ends_trade_settled hne ⟨ha, hb, hrefused.1, hrefused.2⟩
  · exact settled_of_not_ready (Office.not_ready_of_closed (.inr hb)) rfl (fun _ => rfl) rfl
  · exact settled_of_not_ready (Office.not_ready_of_closed (.inl ha)) rfl (fun _ => rfl) rfl
  · exact settled_of_not_ready (Office.not_ready_of_closed (.inl ha)) rfl (fun _ => rfl) rfl

/-- The outcome tells what happened, unless a trade over nothing was recorded. -/
theorem tells_iff_not_empty (h : Settled ask bid price q o out o') :
    Tells ask bid o out o' ↔ ¬ (o.Ready ask bid ∧ (o.common ask bid q).toNat = 0) := by
  have hask : o.Gains o' ask out.shares := by simpa using h.filled ask
  have hbid : o.Gains o' bid out.shares := by simpa using h.filled bid
  have hshares : ∀ {n}, o.Gains o' ask n → n = out.shares := fun {n} hn => by
    unfold Office.Gains at hn hask
    omega
  cases htrade : out.trade with
  | none =>
    have hnot : ¬ o.Ready ask bid := fun hready => by
      have := h.trade_iff.2 hready
      rw [htrade] at this
      cases this
    refine iff_of_true ⟨?_, fun t ht => absurd (htrade.symm.trans ht) nofun, h.recorded⟩ (hnot ·.1)
    rw [htrade]
    refine iff_of_false nofun ?_
    rintro ⟨n, hpos, hn, -⟩
    rw [hshares hn, FillOutcome.shares, htrade] at hpos
    exact absurd hpos (Nat.lt_irrefl 0)
  | some t =>
    have hready : o.Ready ask bid := h.trade_iff.1 (by rw [htrade]; rfl)
    have hquantity : out.shares = (o.common ask bid q).toNat := by
      rw [FillOutcome.shares, htrade, h.terms t htrade]
      rfl
    have hsame : t.quantity.toNat = out.shares := by rw [FillOutcome.shares, htrade]; rfl
    constructor
    · rintro htells ⟨-, hzero⟩
      obtain ⟨n, hpos, hn, -⟩ := htells.trade_iff.1 (by rw [htrade]; rfl)
      have := hshares hn
      omega
    · intro hnot
      have hpos : 0 < out.shares := by
        rcases Nat.eq_zero_or_pos out.shares with hzero | hpos
        · exact absurd ⟨hready, hquantity ▸ hzero⟩ hnot
        · exact hpos
      refine ⟨iff_of_true (by rw [htrade]; rfl) ⟨_, hpos, hask, hbid⟩, fun u hu => ?_, h.recorded⟩
      cases htrade.symm.trans hu
      rw [hsame]
      exact ⟨hask, hbid⟩

end Simulated

/-! ## Sequences of calls -/

/-- A call to simulated settlement, or the clock going on. -/
inductive SettlementCall where
  | fill (ask bid : OrderRef) (price : Price) (q : Quantity)
  | cancel (r : OrderRef)
  | reject (u : UserId)
  | tick (now : Timestamp)

namespace SettlementCall

/-- A call to fill is one for two orders. -/
def Distinct : SettlementCall → Prop
  | fill ask bid _ _ => ask ≠ bid
  | cancel _ | reject _ | tick _ => True

/-- Carries out a call. The answer is the outcome of a call to fill. -/
def serve : SettlementCall → Action (Office Simulated) (Option FillOutcome)
  | fill ask bid price q => do return some (← Simulated.settlement.fill ask bid price q)
  | cancel r => do
    let _ ← Office.onOrders (Orders.cancel r)
    return none
  | reject u => do
    Office.onBackend (Action.change (·.reject u))
    return none
  | tick now => do
    Office.onBackend (Action.change ({ · with now }))
    return none

/-- The trades that calls answered with, the oldest first. -/
def answeredTrades (answers : List (Option FillOutcome)) : List Trade :=
  answers.filterMap fun answer => answer.bind (·.trade)

/-- What a call comes to. A call to fill is settled, and its outcome tells what happened unless the
pair was ready to trade nothing; any other call fills nothing and records nothing. -/
def Booked (o : Office Simulated) (answer : Option FillOutcome) (o' : Office Simulated) :
    SettlementCall → Prop
  | fill ask bid price q => ∃ out, answer = some out ∧ Simulated.Settled ask bid price q o out o' ∧
      (Simulated.Tells ask bid o out o' ↔ ¬ (o.Ready ask bid ∧ (o.common ask bid q).toNat = 0))
  | cancel _ | reject _ | tick _ => answer = none ∧ (∀ r, o.Gains o' r 0) ∧
      o'.backend.trades = o.backend.trades

variable {s : Logged (Office Simulated)} {c : SettlementCall} {o o' : Office Simulated}
  {answer : Option FillOutcome}

/-- Every call is answered, and booked. -/
theorem ends_serve (h : c.Distinct) (s : Logged (Office Simulated)) :
    Ends c.serve s (fun answer t => c.Booked s.state answer t.state) (fun _ _ => False) := by
  cases c with
  | fill ask bid price q =>
    refine (Simulated.ends_settle_settled s price q h).bind fun out t ht => ?_
    exact ⟨out, rfl, ht, Simulated.tells_iff_not_empty ht⟩
  | cancel r =>
    simp only [serve, Office.onOrders, Orders.cancel, ends_bind, ends_within, ends_current]
    split
    · exact ⟨rfl, fun _ => rfl, rfl⟩
    · refine ⟨rfl, fun r' => ?_, rfl⟩
      show ((s.state.orders.set r (s.state.orders.get r).close).get r').fulfilled.toNat = _
      rw [Orders.get_set]
      split
      · next heq => rw [← heq]; rfl
      · rfl
  | reject _ | tick _ => exact ⟨rfl, fun _ => rfl, rfl⟩

/-- What a call adds to the recorded trades is the trade that it answers with. -/
theorem Booked.recorded (h : c.Booked o answer o') :
    o'.backend.trades.toList = o.backend.trades.toList ++ (answer.bind (·.trade)).toList := by
  cases c with
  | fill _ _ _ _ =>
    obtain ⟨out, rfl, hsettled, -⟩ := h
    exact hsettled.recorded
  | cancel _ | reject _ | tick _ =>
    obtain ⟨rfl, -, htrades⟩ := h
    rw [htrades]
    exact (List.append_nil _).symm

/-- Calls that are answered one after the other: the trades they answered with are those
recorded. -/
theorem ends_inTurn_serve (o : Office Simulated) (j : Array Event) (calls : List SettlementCall)
    (hdistinct : ∀ c ∈ calls, c.Distinct) :
    Ends (inTurn serve calls) ⟨o, j⟩
      (fun answers t => t.state.backend.trades.toList =
        o.backend.trades.toList ++ answeredTrades answers)
      (fun _ _ => False) := by
  refine Ends.inTurn (P := fun _ answers (t : Logged (Office Simulated)) =>
    t.state.backend.trades.toList = o.backend.trades.toList ++ answeredTrades answers)
    (List.append_nil _).symm fun pre c answers t hpre _ ht => ?_
  have hc : c.Distinct := hdistinct c (hpre.subset (List.mem_append_right _ List.mem_cons_self))
  refine (ends_serve hc t).imp fun answer u hu => ?_
  rw [hu.recorded, ht, List.append_assoc, answeredTrades, answeredTrades, List.filterMap_append]
  cases hanswer : answer.bind (·.trade) <;> simp [hanswer]

/-- Whatever is called on simulated settlement, in whatever order, with orders of any kind: all
calls are answered, the trades they answered with are the trades that are recorded, and the outcome
of each call to fill tells what happened unless the pair was ready and there was nothing to
trade. -/
theorem trades_tell_unless_empty (o : Office Simulated) (j : Array Event)
    (calls : List SettlementCall) (hdistinct : ∀ c ∈ calls, c.Distinct) :
    (∃ answers t, inTurn serve calls ⟨o, j⟩ = .ok answers t ∧
      t.state.backend.trades.toList = o.backend.trades.toList ++ answeredTrades answers) ∧
    ∀ pre c, pre ++ [c] <+: calls → ∃ answers s answer t, inTurn serve pre ⟨o, j⟩ = .ok answers s ∧
      c.serve s = .ok answer t ∧ c.Booked s.state answer t.state := by
  refine ⟨(ends_inTurn_serve o j calls hdistinct).exists_ok, fun pre c hpre => ?_⟩
  have hmem : ∀ c' ∈ pre ++ [c], c'.Distinct := fun c' hc' => hdistinct c' (hpre.subset hc')
  obtain ⟨answers, s, hs, -⟩ := (ends_inTurn_serve o j pre fun c' hc' =>
    hmem c' (List.mem_append_left _ hc')).exists_ok
  obtain ⟨answer, t, ht, hbooked⟩ :=
    (ends_serve (hmem c (List.mem_append_right _ List.mem_cons_self)) s).exists_ok
  exact ⟨answers, s, answer, t, hs, ht, hbooked⟩

/-! ## A trade over nothing -/

/-- An ask of ten and a bid of four, of different users. -/
def openPair : Office Simulated :=
  let order (side : Side) (user : UserId) (quantity : UInt64) : Order :=
    { Order.blank with side, user, quantity := ⟨quantity⟩, closed := false }
  ⟨⟨#[order .ask ⟨1⟩ 10, order .bid ⟨2⟩ 4]⟩, .empty⟩

/-- The pair trades three shares; then four are asked for, of which one is left. -/
theorem trades_tell_of_openPair :
    let first : SettlementCall := .fill ⟨0⟩ ⟨1⟩ (.ofUInt64 100) ⟨3⟩
    let second : SettlementCall := .fill ⟨0⟩ ⟨1⟩ (.ofUInt64 100) ⟨4⟩
    (∀ c ∈ [first, second, .cancel ⟨0⟩], c.Distinct) ∧ ∃ answers s answer t,
      inTurn serve [first] ⟨openPair, #[]⟩ = .ok answers s ∧ second.serve s = .ok answer t ∧
        second.Booked s.state answer t.state := by
  intro first second
  have hdistinct : ∀ c ∈ [first, second, .cancel ⟨0⟩], c.Distinct := by
    simp [first, second, Distinct]
  have hpre : [first] ++ [second] <+: [first, second, .cancel ⟨0⟩] := ⟨[.cancel ⟨0⟩], rfl⟩
  exact ⟨hdistinct, (trades_tell_unless_empty openPair #[] _ hdistinct).2 _ _ hpre⟩

/-- Asked to fill nothing, settlement answers with a trade over nothing and records it, though no
shares change hands. -/
theorem openPair_trades_nothing :
    ∃ out t, Simulated.settlement.fill ⟨0⟩ ⟨1⟩ (.ofUInt64 100) .zero ⟨openPair, #[]⟩ = .ok out t ∧
      t.state.backend.trades.size = 1 ∧ ¬ Simulated.Tells ⟨0⟩ ⟨1⟩ openPair out t.state := by
  refine ⟨_, _, rfl, rfl, fun h => ?_⟩
  obtain ⟨n, hpos, hn, -⟩ := h.trade_iff.1 rfl
  have hzero : n = 0 := Nat.left_eq_add.1 hn
  omega

end SettlementCall

end Bourse
