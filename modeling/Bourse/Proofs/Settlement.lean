import Bourse.Proofs.Ends
import Bourse.Proofs.Order
import Bourse.Settlement.Simulated

/-!
# What simulated settlement makes of an open pair

`Office.dealt` is the table of orders and the backend after an open pair was settled, and
`Office.deal?` the trade that was made: none if one of the users cannot settle, and otherwise one
over what both orders have left. `Simulated.settle` does just that (`Simulated.ends_settle`).

Either way at least one of the two orders is closed then (`Office.closed_dealt`), and all the
others are as they were. What any settlement should have done of this is `Filled`.
-/

namespace Bourse

/-- An order of a match as the trade, if there was one, left it. -/
structure Order.Left (o o' : Order) (trade : Option Trade) : Prop where
  follows : o.Follows o'
  isOpen : o'.isOpen = !o'.closed
  unfulfilled : o'.unfulfilled.toNat =
    o.unfulfilled.toNat - (trade.map (·.quantity.toNat)).getD 0

/-- Some orders were closed, and nothing else happened to any. -/
def Dimmed (view view' : OrderRef → Order) : Prop :=
  ∀ r, view' r = view r ∨ view' r = (view r).close

/-- The pair was filled by the trade of the outcome, which finished at least one of the two and
says which. Other orders were closed at most. -/
structure Filled (view view' : OrderRef → Order) (ask bid : OrderRef)
    (out : FillOutcome) : Prop where
  leftAsk : (view ask).Left (view' ask) out.trade
  leftBid : (view bid).Left (view' bid) out.trade
  askDone : out.ask.isDone = (view' ask).closed
  bidDone : out.bid.isDone = (view' bid).closed
  progress : (view' ask).closed = true ∨ (view' bid).closed = true
  quantity : ∀ t, out.trade = some t → t.quantity.toNat ≤ (view ask).unfulfilled.toNat ∧
    t.quantity.toNat ≤ (view bid).unfulfilled.toNat
  others : ∀ r, r ≠ ask → r ≠ bid → view' r = view r ∨ view' r = (view r).close

namespace Dimmed

variable {view view' view'' : OrderRef → Order}

theorem refl (view : OrderRef → Order) : Dimmed view view := fun _ => .inl rfl

theorem trans (h : Dimmed view view') (h' : Dimmed view' view'') : Dimmed view view'' := by
  intro r
  rcases h' r with h' | h' <;> rcases h r with h | h <;> rw [h', h]
  · exact .inl rfl
  · exact .inr rfl
  · exact .inr rfl
  · exact .inr rfl

/-- An order that was closed comes after itself. -/
theorem follows (h : Dimmed view view') (r : OrderRef) : (view r).Follows (view' r) := by
  rcases h r with h | h <;> rw [h]
  · exact .refl _
  · exact Order.follows_close

/-- What is not closed is as it was. -/
theorem eq_of_not_closed (h : Dimmed view view') {r : OrderRef} (hc : (view' r).closed = false) :
    view' r = view r := by
  refine (h r).resolve_right fun heq => ?_
  rw [heq] at hc
  cases hc

/-- An open order that was closed at most is as a match without a trade leaves it. -/
theorem left (h : Dimmed view view') {r : OrderRef} (ho : (view r).isOpen = true) :
    (view r).Left (view' r) none := by
  refine ⟨h.follows r, ?_, ?_⟩ <;> rcases h r with heq | heq <;> rw [heq]
  · rw [ho, (Order.isOpen_iff.1 ho).1]
    rfl
  · rfl
  · rfl
  · rfl

end Dimmed

/-- A pair that is filled, and all other orders, come after themselves. -/
theorem Filled.follows {view view' : OrderRef → Order} {ask bid : OrderRef} {out : FillOutcome}
    (h : Filled view view' ask bid out) (r : OrderRef) : (view r).Follows (view' r) := by
  by_cases hra : r = ask
  · exact hra ▸ h.leftAsk.follows
  · by_cases hrb : r = bid
    · exact hrb ▸ h.leftBid.follows
    · rcases h.others r hra hrb with heq | heq <;> rw [heq]
      · exact .refl _
      · exact Order.follows_close

namespace Office

variable {o : Office Simulated} {ask bid r : OrderRef} {price : Price} {t : Trade}

/-- The user of the order cannot settle. -/
def refuses (o : Office Simulated) (r : OrderRef) : Bool :=
  o.backend.isRejected (o.orders.get r).user

/-- The trade that an open pair makes: as much as both have left, if both users can settle. -/
def deal? (o : Office Simulated) (ask bid : OrderRef) (price : Price) : Option Trade :=
  if o.refuses ask || o.refuses bid then none
  else
    let a := o.orders.get ask
    let b := o.orders.get bid
    some ⟨a.id, b.id, price, min a.unfulfilled b.unfulfilled, o.backend.now⟩

/-- Closes the order if its user cannot settle. -/
def closeRefused (o : Office Simulated) (os : Orders) (r : OrderRef) : Orders :=
  if o.refuses r then os.modify r Order.close else os

/-- The office after an open pair was settled: both are filled, or those of users that cannot
settle are closed. -/
def dealt (o : Office Simulated) (ask bid : OrderRef) (price : Price) : Office Simulated :=
  match o.deal? ask bid price with
  | some t =>
    { orders := (o.orders.modify ask (·.filled t.quantity)).modify bid (·.filled t.quantity)
      backend := { o.backend with trades := o.backend.trades.push t } }
  | none => { o with orders := o.closeRefused (o.closeRefused o.orders ask) bid }

/-- A deal is made between users who can settle, for all that both orders have left. -/
theorem deal?_eq_some (h : o.deal? ask bid price = some t) :
    o.refuses ask = false ∧ o.refuses bid = false ∧
      t = ⟨(o.orders.get ask).id, (o.orders.get bid).id, price,
        min (o.orders.get ask).unfulfilled (o.orders.get bid).unfulfilled, o.backend.now⟩ := by
  unfold deal? at h
  split at h
  · cases h
  · next hr =>
    rw [Bool.or_eq_true, not_or, Bool.not_eq_true, Bool.not_eq_true] at hr
    exact ⟨hr.1, hr.2, (Option.some.inj h).symm⟩

/-- No deal is made only where a user cannot settle. -/
theorem deal?_eq_none (h : o.deal? ask bid price = none) :
    o.refuses ask = true ∨ o.refuses bid = true := by
  unfold deal? at h
  split at h
  · next hr => exact Bool.or_eq_true _ _ ▸ hr
  · cases h

/-- What a trade takes is left on both sides. -/
theorem quantity_le (h : o.deal? ask bid price = some t) :
    t.quantity.toNat ≤ (o.orders.get ask).unfulfilled.toNat ∧
      t.quantity.toNat ≤ (o.orders.get bid).unfulfilled.toNat := by
  obtain ⟨_, _, rfl⟩ := deal?_eq_some h
  simp only [Quantity.toNat_min]
  omega

/-- A deal fills both orders with its quantity. -/
theorem dealt_of_some (h : o.deal? ask bid price = some t) : o.dealt ask bid price =
    { orders := (o.orders.modify ask (·.filled t.quantity)).modify bid (·.filled t.quantity)
      backend := { o.backend with trades := o.backend.trades.push t } } := by
  unfold dealt
  rw [h]

/-- Where no deal is made the orders of users who cannot settle are closed. -/
theorem dealt_of_none (h : o.deal? ask bid price = none) : o.dealt ask bid price =
    { o with orders := o.closeRefused (o.closeRefused o.orders ask) bid } := by
  unfold dealt
  rw [h]

/-- An order is closed if its user cannot settle. -/
theorem get_closeRefused (o : Office Simulated) (os : Orders) (r r' : OrderRef) :
    (o.closeRefused os r).get r' =
      if r = r' ∧ o.refuses r = true then (os.get r').close else os.get r' := by
  unfold closeRefused
  by_cases hr : o.refuses r = true
  · rw [if_pos hr, Orders.get_modify]
    by_cases heq : r = r'
    · subst heq; simp [hr]
    · simp [heq]
  · simp [hr]

/-- A trade takes no more than either order has left. -/
theorem quantity_le_unfulfilled (h : o.deal? ask bid price = some t) (hr : r = ask ∨ r = bid) :
    t.quantity.toNat ≤ (o.orders.get r).unfulfilled.toNat := by
  rcases hr with rfl | rfl
  · exact (quantity_le h).1
  · exact (quantity_le h).2

/-- Open orders trade something. -/
theorem quantity_pos (h : o.deal? ask bid price = some t) (ha : (o.orders.get ask).isOpen = true)
    (hb : (o.orders.get bid).isOpen = true) : 0 < t.quantity.toNat := by
  have hpa := (Order.isOpen_iff.1 ha).2
  have hpb := (Order.isOpen_iff.1 hb).2
  obtain ⟨-, -, rfl⟩ := deal?_eq_some h
  simp only [Quantity.toNat_min]
  omega

/-- An order after a pair was settled, if there was a trade. -/
theorem get_dealt_some (hne : ask ≠ bid) (h : o.deal? ask bid price = some t) (r : OrderRef) :
    (o.dealt ask bid price).orders.get r =
      if r = ask ∨ r = bid then (o.orders.get r).filled t.quantity else o.orders.get r := by
  unfold dealt
  simp only [h, Orders.get_modify]
  by_cases hb : bid = r
  · subst hb; simp [hne]
  · by_cases ha : ask = r
    · subst ha; simp [hb]
    · simp [ha, hb, Ne.symm ha, Ne.symm hb]

/-- An order after a pair was settled, if there was no trade. -/
theorem get_dealt_none (h : o.deal? ask bid price = none) (r : OrderRef) :
    (o.dealt ask bid price).orders.get r =
      if (r = ask ∨ r = bid) ∧ o.refuses r = true then (o.orders.get r).close
      else o.orders.get r := by
  unfold dealt
  simp only [h, get_closeRefused]
  by_cases hb : bid = r
  · subst hb
    by_cases ha : ask = bid
    · subst ha; by_cases hr : o.refuses ask = true <;> simp [hr, Order.close]
    · simp [ha]
  · by_cases ha : ask = r
    · subst ha; simp [hb]
    · simp [ha, hb, Ne.symm ha, Ne.symm hb]

/-- Settling a pair leaves all other orders as they were. -/
theorem get_dealt_of_ne (hne : ask ≠ bid) (ha : r ≠ ask) (hb : r ≠ bid) :
    (o.dealt ask bid price).orders.get r = o.orders.get r := by
  cases h : o.deal? ask bid price with
  | none => rw [get_dealt_none h]; simp [ha, hb]
  | some t => rw [get_dealt_some hne h]; simp [ha, hb]

/-- The table after a pair was settled comes after the one before. -/
theorem follow_dealt (hne : ask ≠ bid) : o.orders.Follow (o.dealt ask bid price).orders := by
  intro r
  cases h : o.deal? ask bid price with
  | none =>
    rw [get_dealt_none h]
    split
    · exact Order.follows_close
    · exact .refl _
  | some t =>
    rw [get_dealt_some hne h]
    split
    · next hr => exact Order.follows_filled (quantity_le_unfulfilled h hr)
    · exact .refl _

/-- Settling an open pair closes one of its orders. -/
theorem closed_dealt (hne : ask ≠ bid) (ha : (o.orders.get ask).isOpen = true)
    (hb : (o.orders.get bid).isOpen = true) :
    ((o.dealt ask bid price).orders.get ask).closed = true ∨
      ((o.dealt ask bid price).orders.get bid).closed = true := by
  cases h : o.deal? ask bid price with
  | none =>
    rw [get_dealt_none h, get_dealt_none h]
    rcases deal?_eq_none h with hr | hr
    · exact .inl (by simp [hr, Order.close])
    · exact .inr (by simp [hr, Order.close])
  | some t =>
    rw [get_dealt_some hne h, get_dealt_some hne h, if_pos (.inl rfl), if_pos (.inr rfl),
      Order.closed_filled_iff ha (quantity_le h).1, Order.closed_filled_iff hb (quantity_le h).2]
    obtain ⟨_, _, rfl⟩ := deal?_eq_some h
    simp only [Quantity.toNat_min]
    omega

/-- An order of the pair that was open is open after it was settled unless it was closed. -/
theorem isOpen_dealt (hne : ask ≠ bid) (hr : r = ask ∨ r = bid)
    (ho : (o.orders.get r).isOpen = true) :
    ((o.dealt ask bid price).orders.get r).isOpen =
      !((o.dealt ask bid price).orders.get r).closed := by
  obtain ⟨hc, hpos⟩ := Order.isOpen_iff.1 ho
  cases h : o.deal? ask bid price with
  | none =>
    rw [get_dealt_none h]
    split
    · rfl
    · rw [ho, hc]; rfl
  | some t =>
    have hle := quantity_le_unfulfilled h hr
    rw [get_dealt_some hne h, if_pos hr]
    have hiff := Order.closed_filled_iff ho hle
    cases hcl : ((o.orders.get r).filled t.quantity).closed
    · refine Order.isOpen_iff.2 ⟨hcl, ?_⟩
      have : ¬ t.quantity.toNat = (o.orders.get r).unfulfilled.toNat := by
        intro heq
        rw [hiff.2 heq] at hcl
        cases hcl
      rw [Order.toNat_unfulfilled_filled hle]
      omega
    · show (!_ && _) = _
      rw [hcl]
      rfl

/-- An order of the pair has left what the trade did not take. -/
theorem unfulfilled_dealt (hne : ask ≠ bid) (hr : r = ask ∨ r = bid) :
    ((o.dealt ask bid price).orders.get r).unfulfilled.toNat =
      (o.orders.get r).unfulfilled.toNat -
        ((o.deal? ask bid price).map (·.quantity.toNat)).getD 0 := by
  cases h : o.deal? ask bid price with
  | none =>
    rw [get_dealt_none h]
    split <;> rfl
  | some t =>
    rw [get_dealt_some hne h, if_pos hr]
    exact Order.toNat_unfulfilled_filled (quantity_le_unfulfilled h hr)

/-- A trade fills both orders of the pair, and no other. -/
theorem fulfilled_dealt (hne : ask ≠ bid) (h : o.deal? ask bid price = some t) (r : OrderRef) :
    ((o.dealt ask bid price).orders.get r).fulfilled.toNat =
      (o.orders.get r).fulfilled.toNat + if r = ask ∨ r = bid then t.quantity.toNat else 0 := by
  rw [get_dealt_some hne h]
  split
  · next hr => exact Order.toNat_fulfilled_filled (quantity_le_unfulfilled h hr)
  · rfl

/-- After a deal an order has left what it had without the trade, or is closed. -/
theorem left_dealt (hne : ask ≠ bid) (hr : r = ask ∨ r = bid)
    (hopen : (o.orders.get r).isOpen = true) :
    (o.orders.get r).Left ((o.dealt ask bid price).orders.get r) (o.deal? ask bid price) :=
  ⟨follow_dealt hne r, isOpen_dealt hne hr hopen, unfulfilled_dealt hne hr⟩

@[simp] theorem rejected_dealt :
    (o.dealt ask bid price).backend.rejected = o.backend.rejected := by
  unfold dealt
  split <;> rfl

@[simp] theorem activated_dealt :
    (o.dealt ask bid price).backend.activated = o.backend.activated := by
  unfold dealt
  split <;> rfl

/-- A deal adds its trade, if it is one. -/
theorem trades_dealt : (o.dealt ask bid price).backend.trades.toList =
    o.backend.trades.toList ++ (o.deal? ask bid price).toList := by
  unfold dealt
  split
  · next t h => rw [h]; simp
  · next h => rw [h]; simp

end Office

namespace Simulated

open Bourse.Action

variable {s : Logged (Office Simulated)} {ask bid r : OrderRef} {price : Price} {q : Quantity}

/-- The answer of settlement on an open pair. -/
def outcome (o : Office Simulated) (ask bid : OrderRef) (price : Price) : FillOutcome where
  ask := statusOf ((o.dealt ask bid price).orders.get ask).closed
  bid := statusOf ((o.dealt ask bid price).orders.get bid).closed
  trade := o.deal? ask bid price

/-- A side is done if its order is finished. -/
theorem isDone_statusOf (finished : Bool) : (statusOf finished).isDone = finished := by
  cases finished <;> rfl

/-- A deal is a fill of the pair. -/
theorem filled_dealt {o : Office Simulated} (hne : ask ≠ bid)
    (ha : (o.orders.get ask).isOpen = true) (hb : (o.orders.get bid).isOpen = true) :
    Filled o.orders.get (o.dealt ask bid price).orders.get ask bid (outcome o ask bid price) where
  leftAsk := Office.left_dealt hne (.inl rfl) ha
  leftBid := Office.left_dealt hne (.inr rfl) hb
  askDone := isDone_statusOf _
  bidDone := isDone_statusOf _
  progress := Office.closed_dealt hne ha hb
  quantity _ ht := Office.quantity_le ht
  others _ hra hrb := .inl (Office.get_dealt_of_ne hne hra hrb)

/-- An order that has enough left is filled. -/
theorem ends_fillOrder (h : q.toNat ≤ (s.state.orders.get r).unfulfilled.toNat) :
    Ends (fillOrder r q) s
      (fun _ t => t = ⟨{ s.state with orders := s.state.orders.modify r (·.filled q) }, s.journal⟩)
      (fun _ _ => False) := by
  simp only [fillOrder, ends_bind, ends_current, ends_ofExcept, Order.fill_eq h, ends_replace]
  rfl

/-- The orders of users that cannot settle are closed, and said to be done. -/
theorem ends_closeRejected :
    Ends (closeRejected ask bid (s.state.refuses ask) (s.state.refuses bid)) s
      (fun out t => out = ⟨statusOf (s.state.refuses ask), statusOf (s.state.refuses bid), none⟩ ∧
        t = ⟨{ s.state with
          orders := s.state.closeRefused (s.state.closeRefused s.state.orders ask) bid },
            s.journal⟩)
      (fun _ _ => False) := by
  unfold Office.closeRefused
  cases s.state.refuses ask <;> cases s.state.refuses bid <;> exact ⟨rfl, rfl⟩

/-- The two trade: each is filled, and the trade is recorded. -/
theorem ends_trade (hne : ask ≠ bid) (hqa : q.toNat ≤ (s.state.orders.get ask).unfulfilled.toNat)
    (hqb : q.toNat ≤ (s.state.orders.get bid).unfulfilled.toNat) :
    Ends (trade ask bid price q) s
      (fun out t =>
        let done : Trade := ⟨(s.state.orders.get ask).id, (s.state.orders.get bid).id, price, q,
          s.state.backend.now⟩
        out = ⟨statusOf ((s.state.orders.get ask).filled q).closed,
          statusOf ((s.state.orders.get bid).filled q).closed, some done⟩ ∧
        t = ⟨⟨(s.state.orders.modify ask (·.filled q)).modify bid (·.filled q),
          { s.state.backend with trades := s.state.backend.trades.push done }⟩, s.journal⟩)
      (fun _ _ => False) := by
  have hother : (s.state.orders.modify ask (·.filled q)).get bid = s.state.orders.get bid := by
    rw [Orders.get_modify, if_neg hne]
  simp only [trade, ends_bind]
  refine (ends_fillOrder hqa).imp ?_
  rintro _ _ rfl
  refine (ends_fillOrder (by rw [hother]; exact hqb)).imp ?_
  rintro _ _ rfl
  simp only [ends_current, ends_replace, ends_pure]
  simp [hne, Ne.symm hne, Order.filled]

/-- Settling an open pair for all that both have left. -/
theorem ends_settle (hne : ask ≠ bid) (ha : (s.state.orders.get ask).closed = false)
    (hb : (s.state.orders.get bid).closed = false) (price : Price)
    (hq : q = min (s.state.orders.get ask).unfulfilled (s.state.orders.get bid).unfulfilled) :
    Ends (settle ask bid price q) s
      (fun out t => out = outcome s.state ask bid price ∧
        t = ⟨s.state.dealt ask bid price, s.journal⟩)
      (fun _ _ => False) := by
  simp only [settle, ends_bind, ends_current, ha, hb]
  split
  · next hr =>
    have hdeal : s.state.deal? ask bid price = none := if_pos hr
    have hask : ((s.state.dealt ask bid price).orders.get ask).closed = s.state.refuses ask := by
      rw [Office.get_dealt_none hdeal]
      cases hra : s.state.refuses ask <;> simp [ha, Order.close]
    have hbid : ((s.state.dealt ask bid price).orders.get bid).closed = s.state.refuses bid := by
      rw [Office.get_dealt_none hdeal]
      cases hrb : s.state.refuses bid <;> simp [hb, Order.close]
    unfold outcome
    rw [hask, hbid, hdeal, Office.dealt_of_none hdeal]
    exact ends_closeRejected
  · next hr =>
    have hmin : min (min q (s.state.orders.get ask).unfulfilled)
        (s.state.orders.get bid).unfulfilled
          = min (s.state.orders.get ask).unfulfilled (s.state.orders.get bid).unfulfilled := by
      rw [hq, ← Quantity.toNat_inj]
      simp only [Quantity.toNat_min]
      omega
    have hdeal : s.state.deal? ask bid price = some ⟨_, _, price, _, s.state.backend.now⟩ :=
      if_neg hr
    obtain ⟨hqa, hqb⟩ := Office.quantity_le hdeal
    rw [hmin, outcome, Office.dealt_of_some hdeal, hdeal]
    refine (ends_trade hne hqa hqb).imp ?_
    rintro _ _ ⟨rfl, rfl⟩
    simp [hne, Ne.symm hne]

/-- Noting an activated stop-loss touches no order and no trade. -/
theorem ends_noteStopLoss : Ends (noteStopLoss r) s
    (fun _ t => t.state = { s.state with
      backend := { s.state.backend with
        activated := s.state.backend.activated.push (s.state.orders.get r).id } })
    (fun _ _ => False) := rfl

end Simulated

end Bourse
