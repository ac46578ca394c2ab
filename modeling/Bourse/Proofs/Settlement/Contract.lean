import Bourse.Proofs.Settlement.Settling

/-!
# The contract of a call to fill

What matching relies on of a call to fill is `Honoured`: both orders take the same number of
shares, no more than were asked for, a side is said to be finished just in case its order is closed
then, and an order that was closed already stays as it was. `Order.Takes` says this of one of the
two orders.

Simulated settlement honours it for any two orders that are not overfilled, closed or not, whatever
was asked for and whoever cannot settle (`Simulated.settle_honours`).
-/

namespace Bourse

open Bourse.Action

/-- The order takes so many shares of a fill, and this status is said of it. -/
structure Order.Takes (n : Nat) (status : FillStatus) (o o' : Order) : Prop where
  /-- Nothing else changes than how much is filled, and whether the order is closed. -/
  terms : o' = { o with fulfilled := o'.fulfilled, closed := o'.closed }
  fulfilled : o'.fulfilled.toNat = o.fulfilled.toNat + n
  le_unfulfilled : n ≤ o.unfulfilled.toNat
  not_overfilled : o'.fulfilled.toNat ≤ o'.quantity.toNat
  isDone : status.isDone = true ↔ o'.closed = true
  alreadyClosed : status = .alreadyClosed ↔ o.closed = true
  unchanged : o.closed = true → o' = o

/-- A call to fill keeps its contract. -/
structure Honoured (ask bid : OrderRef) (q : Quantity) (os os' : Orders)
    (out : FillOutcome) : Prop where
  /-- Both orders take the same number of shares, as many as were asked for at most. -/
  shares : ∃ n ≤ q.toNat, (os.get ask).Takes n out.ask (os'.get ask) ∧
    (os.get bid).Takes n out.bid (os'.get bid)
  /-- Of two orders that are not closed one is finished, if all was asked for that one of them has
  left. -/
  progress : (os.get ask).closed = false → (os.get bid).closed = false →
    min (os.get ask).unfulfilled.toNat (os.get bid).unfulfilled.toNat ≤ q.toNat →
      out.ask.isDone = true ∨ out.bid.isDone = true
  others : ∀ r, r ≠ ask → r ≠ bid → os'.get r = os.get r

namespace Order

variable {o : Order} {q : Quantity}

/-- An order that is closed already takes nothing. -/
theorem takes_of_closed (hc : o.closed = true) (hle : o.fulfilled.toNat ≤ o.quantity.toNat) :
    o.Takes 0 .alreadyClosed o :=
  ⟨rfl, rfl, Nat.zero_le _, hle, iff_of_true rfl hc, iff_of_true rfl hc, fun _ => rfl⟩

/-- An order that is left alone takes nothing. -/
theorem takes_of_undone (hc : o.closed = false) (hle : o.fulfilled.toNat ≤ o.quantity.toNat) :
    o.Takes 0 .undone o :=
  ⟨rfl, rfl, Nat.zero_le _, hle, by rw [hc]; rfl, by rw [hc]; decide, fun _ => rfl⟩

/-- The order of a user takes nothing, and is closed if the user cannot settle. -/
theorem takes_of_refused (hc : o.closed = false) (hle : o.fulfilled.toNat ≤ o.quantity.toNat)
    (refused : Bool) : o.Takes 0 (Simulated.statusOf refused)
    (if refused then o.close else o) := by
  cases refused with
  | false => exact takes_of_undone hc hle
  | true =>
    exact ⟨rfl, rfl, Nat.zero_le _, hle, iff_of_true rfl rfl, by rw [hc]; decide,
      fun h => absurd (hc.symm.trans h) (by decide)⟩

/-- An order takes what it is filled with, and is finished when nothing is left. -/
theorem takes_filled (hc : o.closed = false) (hle : o.fulfilled.toNat ≤ o.quantity.toNat)
    (hq : q.toNat ≤ o.unfulfilled.toNat) :
    o.Takes q.toNat (Simulated.statusOf (o.filled q).closed) (o.filled q) where
  terms := rfl
  fulfilled := toNat_fulfilled_filled hq
  le_unfulfilled := hq
  not_overfilled := by
    rw [toNat_fulfilled_filled hq]
    rw [toNat_unfulfilled] at hq
    show _ ≤ o.quantity.toNat
    omega
  isDone := by rw [Simulated.isDone_statusOf]
  alreadyClosed := by
    rw [hc]
    cases (o.filled q).closed <;> decide
  unchanged h := absurd (hc.symm.trans h) (by decide)

/-- A fill of all that is left closes an order that is not overfilled, also if that is nothing. -/
theorem closed_filled_of_eq (hle : o.fulfilled.toNat ≤ o.quantity.toNat)
    (hq : q.toNat = o.unfulfilled.toNat) : (o.filled q).closed = true := by
  have hfull : (o.filled q).fulfilled = o.quantity := by
    rw [← Quantity.toNat_inj, toNat_fulfilled_filled hq.le, hq, toNat_unfulfilled]
    omega
  rw [closed_filled, hfull, beq_self_eq_true, Bool.or_true]

end Order

namespace Simulated

variable {ask bid : OrderRef} {price : Price} {q : Quantity} {s : Logged (Office Simulated)}

/-- One of the orders is closed already, so nothing happens. -/
theorem honoured_of_closed {os : Orders} {out : FillOutcome}
    (ha : (os.get ask).Takes 0 out.ask (os.get ask))
    (hb : (os.get bid).Takes 0 out.bid (os.get bid))
    (hc : (os.get ask).closed = true ∨ (os.get bid).closed = true) :
    Honoured ask bid q os os out where
  shares := ⟨0, Nat.zero_le _, ha, hb⟩
  progress hca hcb _ := by
    rw [hca, hcb] at hc
    exact absurd hc (by decide)
  others _ _ _ := rfl

/-- One of the users cannot settle. -/
theorem ends_closeRejected_honours (hca : (s.state.orders.get ask).closed = false)
    (hcb : (s.state.orders.get bid).closed = false)
    (ha : (s.state.orders.get ask).fulfilled.toNat ≤ (s.state.orders.get ask).quantity.toNat)
    (hb : (s.state.orders.get bid).fulfilled.toNat ≤ (s.state.orders.get bid).quantity.toNat)
    (hr : (s.state.refuses ask || s.state.refuses bid) = true) :
    Ends (closeRejected ask bid (s.state.refuses ask) (s.state.refuses bid)) s
      (fun out t => Honoured ask bid q s.state.orders t.state.orders out) (fun _ _ => False) := by
  have hdeal : s.state.deal? ask bid .market = none := if_pos hr
  refine ends_closeRejected.imp ?_
  rintro _ _ ⟨rfl, rfl⟩
  rw [← Office.dealt_of_none hdeal]
  refine ⟨⟨0, Nat.zero_le _, ?_, ?_⟩, fun _ _ _ => ?_, fun r hra hrb => ?_⟩
  · simpa [Office.get_dealt_none hdeal] using Order.takes_of_refused hca ha (s.state.refuses ask)
  · simpa [Office.get_dealt_none hdeal] using Order.takes_of_refused hcb hb (s.state.refuses bid)
  · rw [isDone_statusOf, isDone_statusOf]
    exact Bool.or_eq_true _ _ ▸ hr
  · simp [Office.get_dealt_none hdeal, hra, hrb]

/-- Two orders that are not closed are filled with as much as was asked for and both have left. -/
theorem ends_trade_honours (hne : ask ≠ bid) (hca : (s.state.orders.get ask).closed = false)
    (hcb : (s.state.orders.get bid).closed = false)
    (ha : (s.state.orders.get ask).fulfilled.toNat ≤ (s.state.orders.get ask).quantity.toNat)
    (hb : (s.state.orders.get bid).fulfilled.toNat ≤ (s.state.orders.get bid).quantity.toNat) :
    Ends (trade ask bid price
        (min (min q (s.state.orders.get ask).unfulfilled) (s.state.orders.get bid).unfulfilled)) s
      (fun out t => Honoured ask bid q s.state.orders t.state.orders out) (fun _ _ => False) := by
  generalize hn : min (min q (s.state.orders.get ask).unfulfilled)
    (s.state.orders.get bid).unfulfilled = n
  have hn : n.toNat = min (min q.toNat (s.state.orders.get ask).unfulfilled.toNat)
      (s.state.orders.get bid).unfulfilled.toNat := by
    rw [← hn, Quantity.toNat_min, Quantity.toNat_min]
  have hqa : n.toNat ≤ (s.state.orders.get ask).unfulfilled.toNat := by omega
  have hqb : n.toNat ≤ (s.state.orders.get bid).unfulfilled.toNat := by omega
  refine (ends_trade hne hqa hqb).imp ?_
  rintro _ _ ⟨rfl, rfl⟩
  refine ⟨⟨n.toNat, by omega, ?_, ?_⟩, fun _ _ hq => ?_, fun r hra hrb => ?_⟩
  · simpa [Ne.symm hne] using Order.takes_filled hca ha hqa
  · simpa [hne] using Order.takes_filled hcb hb hqb
  · rw [isDone_statusOf, isDone_statusOf]
    -- the one that has less left is filled with all of it
    rcases Nat.le_total (s.state.orders.get ask).unfulfilled.toNat
      (s.state.orders.get bid).unfulfilled.toNat with hle | hle
    · exact .inl (Order.closed_filled_of_eq ha (by omega))
    · exact .inr (Order.closed_filled_of_eq hb (by omega))
  · simp [Ne.symm hra, Ne.symm hrb]

/-- Whatever the state of simulated settlement, a call to fill two orders that are not overfilled
is answered, and the contract is kept. -/
theorem settle_honours (s : Logged (Office Simulated)) (price : Price) (q : Quantity)
    (hne : ask ≠ bid)
    (ha : (s.state.orders.get ask).fulfilled.toNat ≤ (s.state.orders.get ask).quantity.toNat)
    (hb : (s.state.orders.get bid).fulfilled.toNat ≤ (s.state.orders.get bid).quantity.toNat) :
    Ends (settlement.fill ask bid price q) s
      (fun out t => Honoured ask bid q s.state.orders t.state.orders out) (fun _ _ => False) := by
  simp only [settlement, settle, ends_bind, ends_current]
  cases hca : (s.state.orders.get ask).closed <;>
    cases hcb : (s.state.orders.get bid).closed <;> simp only
  · split
    · next hr => exact ends_closeRejected_honours hca hcb ha hb hr
    · exact ends_trade_honours hne hca hcb ha hb
  · exact honoured_of_closed (Order.takes_of_undone hca ha)
      (Order.takes_of_closed hcb hb) (.inr hcb)
  · exact honoured_of_closed (Order.takes_of_closed hca ha)
      (Order.takes_of_undone hcb hb) (.inl hca)
  · exact honoured_of_closed (Order.takes_of_closed hca ha)
      (Order.takes_of_closed hcb hb) (.inl hca)

/-- An ask of ten, two of which are filled, a bid of four, and a call to fill three. -/
theorem settle_honours_threeShares :
    let order (side : Side) (user : UserId) (quantity fulfilled : UInt64) : Order :=
      { Order.blank with
        side, user, quantity := ⟨quantity⟩, fulfilled := ⟨fulfilled⟩, closed := false }
    let office : Office Simulated := ⟨⟨#[order .ask ⟨1⟩ 10 2, order .bid ⟨2⟩ 4 0]⟩, .empty⟩
    ((⟨0⟩ : OrderRef) ≠ ⟨1⟩ ∧ (office.orders.get ⟨0⟩).fulfilled.toNat ≤
      (office.orders.get ⟨0⟩).quantity.toNat ∧
      (office.orders.get ⟨1⟩).fulfilled.toNat ≤ (office.orders.get ⟨1⟩).quantity.toNat) ∧
      Ends (settlement.fill ⟨0⟩ ⟨1⟩ (.ofUInt64 100) ⟨3⟩) ⟨office, #[]⟩
        (fun out t => Honoured ⟨0⟩ ⟨1⟩ ⟨3⟩ office.orders t.state.orders out)
        (fun _ _ => False) := by
  intro order office
  have hne : (⟨0⟩ : OrderRef) ≠ ⟨1⟩ := by decide
  have hask : (office.orders.get ⟨0⟩).fulfilled.toNat ≤
    (office.orders.get ⟨0⟩).quantity.toNat := by decide
  have hbid : (office.orders.get ⟨1⟩).fulfilled.toNat ≤
    (office.orders.get ⟨1⟩).quantity.toNat := by decide
  exact ⟨⟨hne, hask, hbid⟩, settle_honours ⟨office, #[]⟩ _ _ hne hask hbid⟩

end Simulated

end Bourse
