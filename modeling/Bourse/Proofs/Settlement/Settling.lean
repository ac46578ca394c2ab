import Bourse.Proofs.Settlement

/-!
# All that simulated settlement does

`Simulated.Settling` lists the ways in which a call to settle a pair can end, from any office and
for any pair and quantity: a side is closed already, a user cannot settle, the two trade, or the
second fill breaks off. Every call ends in one of these ways (`Simulated.settling_settle`).
-/

namespace Bourse

open Bourse.Action

/-- The order of a user that cannot settle is closed with its pair. -/
theorem Office.closed_closeRefused {o : Office Simulated} {ask bid r : OrderRef}
    (hr : r = ask ∨ r = bid) (hrefuses : o.refuses r = true) :
    ((o.closeRefused (o.closeRefused o.orders ask) bid).get r).closed = true := by
  rw [get_closeRefused, get_closeRefused]
  rcases hr with rfl | rfl
  · split
    · rfl
    · rw [if_pos ⟨rfl, hrefuses⟩]
      rfl
  · rw [if_pos ⟨rfl, hrefuses⟩]
    rfl

namespace Simulated

variable {ask bid : OrderRef} {price : Price} {q : Quantity} {o o' : Office Simulated}
  {answer : Option FillOutcome}

/-- A call to settle a pair, from its first office to its last, with its answer if it has one. -/
inductive Settling (ask bid : OrderRef) (price : Price) (o : Office Simulated) :
    Option FillOutcome → Office Simulated → Prop
  /-- One of the two is closed already. -/
  | gone {out : FillOutcome}
    (closed : (o.orders.get ask).closed = true ∨ (o.orders.get bid).closed = true)
    (askDone : out.ask.isDone = (o.orders.get ask).closed)
    (bidDone : out.bid.isDone = (o.orders.get bid).closed)
    (trade : out.trade = none) : Settling ask bid price o (some out) o
  /-- The orders of users that cannot settle are closed. -/
  | refused {out : FillOutcome} (ask_closed : (o.orders.get ask).closed = false)
    (bid_closed : (o.orders.get bid).closed = false) (askDone : out.ask.isDone = o.refuses ask)
    (bidDone : out.bid.isDone = o.refuses bid) (trade : out.trade = none) :
    Settling ask bid price o (some out)
      { o with orders := o.closeRefused (o.closeRefused o.orders ask) bid }
  /-- The two trade. -/
  | traded {q : Quantity} {out : FillOutcome} {os : Orders} {t : Trade}
    (ask_closed : (o.orders.get ask).closed = false)
    (bid_closed : (o.orders.get bid).closed = false) (ask_refused : o.refuses ask = false)
    (bid_refused : o.refuses bid = false) (ask_le : q.toNat ≤ (o.orders.get ask).unfulfilled.toNat)
    (bid_le : q.toNat ≤ ((o.orders.modify ask (·.filled q)).get bid).unfulfilled.toNat)
    (orders : os = (o.orders.modify ask (·.filled q)).modify bid (·.filled q))
    (askDone : out.ask.isDone = (os.get ask).closed)
    (bidDone : out.bid.isDone = (os.get bid).closed)
    (trade : out.trade = some t) (askId : t.askId = (o.orders.get ask).id)
    (bidId : t.bidId = (o.orders.get bid).id) (price_eq : t.price = price) :
    Settling ask bid price o (some out)
      ⟨os, { o.backend with trades := o.backend.trades.push t }⟩
  /-- The first order is filled, but the second has less left. -/
  | overfilled {q : Quantity} (ask_closed : (o.orders.get ask).closed = false)
    (ask_le : q.toNat ≤ (o.orders.get ask).unfulfilled.toNat) :
    Settling ask bid price o none { o with orders := o.orders.modify ask (·.filled q) }

/-- An order that has not enough left is not filled. -/
theorem fillOrder_of_not_le {r : OrderRef} {s : Logged (Office Simulated)}
    (h : ¬ q.toNat ≤ (s.state.orders.get r).unfulfilled.toNat) :
    Ends (fillOrder r q) s (fun _ _ => False) (fun _ t => t = s) := by
  have hfill : (s.state.orders.get r).fill q = .error .overfill := by
    unfold Order.fill
    rw [if_neg (fun hle => h (Quantity.le_def.1 hle))]
    rfl
  simp only [fillOrder, ends_bind, ends_current, ends_ofExcept, hfill]

/-- Filling orders leaves their numbers. -/
theorem id_filled (os : Orders) (r r' : OrderRef) (q : Quantity) :
    ((os.modify r (·.filled q)).get r').id = (os.get r').id := by
  rw [Orders.get_modify]
  split
  · next heq => rw [heq]; rfl
  · rfl

/-- Two orders that are not closed trade no more than the first has left, or break off. -/
theorem settling_trade (ha : (o.orders.get ask).closed = false)
    (hb : (o.orders.get bid).closed = false) (hra : o.refuses ask = false)
    (hrb : o.refuses bid = false) (hqa : q.toNat ≤ (o.orders.get ask).unfulfilled.toNat)
    (j : Array Event) :
    Ends (trade ask bid price q) ⟨o, j⟩ (fun out t => Settling ask bid price o (some out) t.state)
      (fun _ t => Settling ask bid price o none t.state) := by
  unfold trade
  refine ((ends_fillOrder (s := ⟨o, j⟩) hqa).mono (fun _ _ => id) fun _ _ hf => hf.elim).bind ?_
  rintro _ t rfl
  generalize hs : (⟨{ o with orders := o.orders.modify ask (·.filled q) }, j⟩ :
    Logged (Office Simulated)) = s
  have hstate : s.state = { o with orders := o.orders.modify ask (·.filled q) } := by rw [← hs]
  by_cases hqb : q.toNat ≤ (s.state.orders.get bid).unfulfilled.toNat
  · refine ((ends_fillOrder hqb).mono (fun _ _ => id) fun _ _ hf => hf.elim).bind ?_
    rintro _ t rfl
    simp only [ends_bind, ends_current, ends_replace, ends_pure, hstate, id_filled]
    rw [hstate] at hqb
    generalize hos : (o.orders.modify ask (·.filled q)).modify bid (·.filled q) = os
    exact .traded ha hb hra hrb hqa hqb hos.symm (isDone_statusOf _) (isDone_statusOf _)
      rfl rfl rfl rfl
  · rw [ends_bind]
    refine (fillOrder_of_not_le hqb).mono (fun _ _ hf => hf.elim) ?_
    rintro _ t rfl
    exact hstate ▸ .overfilled ha hqa

/-- Every call to settle ends in one of these ways. -/
theorem settling_settle (j : Array Event) :
    Ends (settle ask bid price q) ⟨o, j⟩ (fun out t => Settling ask bid price o (some out) t.state)
      (fun _ t => Settling ask bid price o none t.state) := by
  simp only [settle, ends_bind, ends_current]
  cases ha : (o.orders.get ask).closed <;> cases hb : (o.orders.get bid).closed <;> simp only
  · split
    · refine (ends_closeRejected (s := ⟨o, j⟩)).mono ?_ fun _ _ hf => hf.elim
      rintro _ t ⟨rfl, ht⟩
      rw [ht]
      exact .refused ha hb (isDone_statusOf _) (isDone_statusOf _) rfl
    · next hr =>
      have hr : ¬ (o.refuses ask || o.refuses bid) = true := hr
      rw [Bool.or_eq_true, not_or, Bool.not_eq_true, Bool.not_eq_true] at hr
      refine settling_trade ha hb hr.1 hr.2 ?_ j
      simp only [Quantity.toNat_min]
      omega
  · exact ends_pure.2 (.gone (.inr hb) ha.symm hb.symm rfl)
  · exact ends_pure.2 (.gone (.inl ha) ha.symm hb.symm rfl)
  · exact ends_pure.2 (.gone (.inl ha) ha.symm hb.symm rfl)

/-- Wherever a call to settle leads, it ended in one of these ways. -/
theorem Settling.of_leads (h : (settlement.fill ask bid price q).Leads o answer o') :
    Settling ask bid price o answer o' :=
  h.of_ends (P := Settling ask bid price o) fun j => settling_settle j

end Simulated

end Bourse
