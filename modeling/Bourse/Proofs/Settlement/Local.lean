import Bourse.Proofs.Order
import Bourse.Proofs.Paired
import Bourse.Proofs.Settlement

/-!
# Settlement on some of the orders

Two offices `Agree` on some of the orders if these are the same in both, and so are the users that
cannot settle and the time. An office `Wrote` only some of the orders since an earlier one if the
others are as they were then, and what was traded since was traded between these.

Simulated settlement of orders on which two offices agree answers the same in both, and keeps them
in step: they still agree, and both wrote only these orders and made the same trades
(`Office.InStep`, `Simulated.parallel_settle`).
-/

namespace Bourse

open Bourse.Action

variable {mine : OrderRef → Prop} {p p' o o' : Office Simulated} {made : List Trade} {r : OrderRef}

namespace Office

/-- The offices are the same for some of the orders. -/
structure Agree (mine : OrderRef → Prop) (o o' : Office Simulated) : Prop where
  orders : ∀ r, mine r → o'.orders.get r = o.orders.get r
  rejected : o'.backend.rejected = o.backend.rejected
  now : o'.backend.now = o.backend.now

/-- The trade is between two of the orders, neither of which is closed. -/
def Between (mine : OrderRef → Prop) (os : Orders) (t : Trade) : Prop :=
  ∃ ask bid, (mine ask ∧ (os.get ask).closed = false ∧ t.askId = (os.get ask).id) ∧
    mine bid ∧ (os.get bid).closed = false ∧ t.bidId = (os.get bid).id

/-- Since the first office only some of the orders were written, and these trades were made between
them. -/
structure Wrote (mine : OrderRef → Prop) (p : Office Simulated) (made : List Trade)
    (o : Office Simulated) : Prop where
  follow : p.orders.Follow o.orders
  others : ∀ r, ¬ mine r → o.orders.get r = p.orders.get r
  rejected : o.backend.rejected = p.backend.rejected
  now : o.backend.now = p.backend.now
  trades : o.backend.trades.toList = p.backend.trades.toList ++ made
  between : ∀ t ∈ made, Between mine p.orders t

/-- Two offices that agree on some of the orders, and since the offices they came from wrote only
these and made the same trades. -/
structure InStep (mine : OrderRef → Prop) (p p' o o' : Office Simulated) : Prop
    extends Agree mine o o' where
  wrote : ∃ made, Wrote mine p made o ∧ Wrote mine p' made o'

theorem Agree.symm (h : Agree mine o o') : Agree mine o' o :=
  ⟨fun r hr => (h.orders r hr).symm, h.rejected.symm, h.now.symm⟩

theorem Agree.trans {o'' : Office Simulated} (h : Agree mine o o') (h' : Agree mine o' o'') :
    Agree mine o o'' :=
  ⟨fun r hr => (h'.orders r hr).trans (h.orders r hr), h'.rejected.trans h.rejected,
    h'.now.trans h.now⟩

theorem Wrote.refl (o : Office Simulated) : Wrote mine o [] o :=
  ⟨.refl _, fun _ _ => rfl, rfl, rfl, (List.append_nil _).symm, nofun⟩

/-- Offices that agree are in step from there on. -/
theorem Agree.inStep (h : Agree mine o o') : InStep mine o o' o o' :=
  { h with wrote := ⟨[], .refl o, .refl o'⟩ }

/-- One of the orders is written. -/
theorem Wrote.set {u : Order} (h : Wrote mine p made o) (hr : mine r)
    (hu : (o.orders.get r).Follows u) :
    Wrote mine p made { o with orders := o.orders.set r u } where
  follow := h.follow.trans (Orders.follow_modify (f := fun _ => u) hu)
  others r' hr' := by
    have hne : r ≠ r' := fun heq => hr' (heq ▸ hr)
    show (o.orders.set r u).get r' = _
    rw [Orders.get_set, if_neg hne]
    exact h.others r' hr'
  rejected := h.rejected
  now := h.now
  trades := h.trades
  between := h.between

/-- A trade between the orders is made. -/
theorem Wrote.push {t : Trade} (h : Wrote mine p made o) (ht : Between mine p.orders t) :
    Wrote mine p (made ++ [t])
      { o with backend := { o.backend with trades := o.backend.trades.push t } } where
  follow := h.follow
  others := h.others
  rejected := h.rejected
  now := h.now
  trades := by rw [Array.toList_push, h.trades, List.append_assoc]
  between u hu := by
    rcases List.mem_append.1 hu with hu | hu
    · exact h.between u hu
    · exact List.mem_singleton.1 hu ▸ ht

/-- Offices agree still if the same order is put into both. -/
theorem Agree.set (h : Agree mine o o') (r : OrderRef) (u : Order) :
    Agree mine { o with orders := o.orders.set r u } { o' with orders := o'.orders.set r u } where
  orders r' hr' := by
    simp only [Orders.get_set, h.orders r' hr']
  rejected := h.rejected
  now := h.now

namespace InStep

/-- One of the orders is written in both offices. -/
theorem set {u : Order} (h : InStep mine p p' o o') (hr : mine r)
    (hu : (o.orders.get r).Follows u) :
    InStep mine p p' { o with orders := o.orders.set r u }
    { o' with orders := o'.orders.set r u } := by
  obtain ⟨made, hw, hw'⟩ := h.wrote
  exact { h.toAgree.set r u with
    wrote := ⟨made, hw.set hr hu, hw'.set hr (h.orders r hr ▸ hu)⟩ }

/-- Both offices change one of the orders. -/
theorem modify {f : Order → Order} (h : InStep mine p p' o o') (hr : mine r)
    (hf : (o.orders.get r).Follows (f (o.orders.get r))) :
    InStep mine p p' { o with orders := o.orders.modify r f }
      { o' with orders := o'.orders.modify r f } := by
  have hset := h.set hr hf
  unfold Orders.modify
  rw [h.orders r hr]
  exact hset

/-- The orders of both offices were not closed where they came from. -/
theorem between {t : Trade} (h : InStep mine p p' o o') (ht : Between mine o.orders t) :
    Between mine p.orders t ∧ Between mine p'.orders t := by
  obtain ⟨made, hw, hw'⟩ := h.wrote
  obtain ⟨ask, bid, ⟨ha, hac, hai⟩, hb, hbc, hbi⟩ := ht
  refine ⟨⟨ask, bid, ⟨ha, (hw.follow ask).not_closed hac, hai.trans (hw.follow ask).id⟩, hb,
    (hw.follow bid).not_closed hbc, hbi.trans (hw.follow bid).id⟩, ?_⟩
  rw [← h.orders ask ha] at hac hai
  rw [← h.orders bid hb] at hbc hbi
  exact ⟨ask, bid, ⟨ha, (hw'.follow ask).not_closed hac, hai.trans (hw'.follow ask).id⟩, hb,
    (hw'.follow bid).not_closed hbc, hbi.trans (hw'.follow bid).id⟩

/-- Both offices make a trade. -/
theorem push {t : Trade} (h : InStep mine p p' o o') (ht : Between mine p.orders t)
    (ht' : Between mine p'.orders t) :
    InStep mine p p' { o with backend := { o.backend with trades := o.backend.trades.push t } }
      { o' with backend := { o'.backend with trades := o'.backend.trades.push t } } := by
  obtain ⟨made, hw, hw'⟩ := h.wrote
  exact ⟨⟨h.orders, h.rejected, h.now⟩, made ++ [t], hw.push ht, hw'.push ht'⟩

end InStep

end Office

/-! ## Simulated settlement -/

namespace Simulated

variable {ask bid : OrderRef} {price : Price} {q : Quantity}

/-- In offices in step the action does the same. -/
abbrev Local {α : Type} (mine : OrderRef → Prop) (p p' : Office Simulated)
    (act : Action (Office Simulated) α) : Prop :=
  Parallel (Office.InStep mine p p') (fun _ => True) act

/-- A fill that is carried out leads to a later order. -/
theorem follows_of_fill {u v : Order} (h : u.fill q = .ok v) : u.Follows v := by
  by_cases hq : q.toNat ≤ u.unfulfilled.toNat
  · rw [Order.fill_eq hq] at h
    exact Except.ok.inj h ▸ Order.follows_filled hq
  · unfold Order.fill at h
    rw [if_neg fun hle => hq (Quantity.le_def.1 hle)] at h
    cases h

/-- Filling one of these orders is local. -/
theorem parallel_fillOrder (hr : mine r) : Local mine p p' (fillOrder r q) := by
  intro s s' hs
  unfold fillOrder
  refine paired_current ?_
  rw [hs.orders r hr]
  refine Paired.bind (paired_ofExcept (R := fun u t t' => (s.state.orders.get r).Follows u ∧
    t = s.state ∧ t' = s'.state) (fun u hu => ⟨follows_of_fill hu, rfl, rfl⟩) hs) ?_
  rintro u t t' ⟨hu, -, -⟩
  exact paired_replace ⟨trivial, hs.set hr hu⟩

/-- Changing one of these orders to a later one is local. -/
theorem parallel_modify {f : Order → Order} (hr : mine r) (hf : ∀ u : Order, u.Follows (f u)) :
    Local mine p p' (Office.onOrders (Action.change (·.modify r f))) := fun _ _ hs =>
  ⟨rfl, trivial, hs.modify hr (hf _)⟩

/-- Closing orders of users who cannot settle is local. -/
theorem parallel_closeRejected (ha : mine ask) (hb : mine bid) (askRejected bidRejected : Bool) :
    Local mine p p' (closeRejected ask bid askRejected bidRejected) := by
  have hclose : ∀ {r}, mine r →
      Local mine p p' (Office.onOrders (Action.change (·.modify r Order.close))) := fun hr =>
    parallel_modify hr fun _ => Order.follows_close
  unfold closeRejected
  cases askRejected <;> cases bidRejected
  · exact .pure trivial
  · exact (hclose hb).bind fun _ _ => .pure trivial
  · exact (hclose ha).bind fun _ _ => .pure trivial
  · exact (hclose ha).bind fun _ _ => (hclose hb).bind fun _ _ => .pure trivial

/-- A pair that was not closed in the offices that the two came from trades the same in both. -/
theorem parallel_trade (ha : mine ask) (hb : mine bid)
    (hbetween : ∀ t : Trade, t.askId = (p.orders.get ask).id → t.bidId = (p.orders.get bid).id →
      Office.Between mine p.orders t ∧ Office.Between mine p'.orders t) :
    Local mine p p' (trade ask bid price q) := by
  refine (parallel_fillOrder ha).bind fun _ _ => (parallel_fillOrder hb).bind fun _ _ => ?_
  intro s s' hs
  refine paired_current ?_
  rw [hs.orders ask ha, hs.orders bid hb, hs.now]
  obtain ⟨made, hw, -⟩ := hs.wrote
  obtain ⟨ht, ht'⟩ := hbetween ⟨(s.state.orders.get ask).id, (s.state.orders.get bid).id, price, q,
    s.state.backend.now⟩ (hw.follow ask).id (hw.follow bid).id
  exact (paired_replace (hs.push ht ht')).bind fun _ t t' hu => paired_pure ⟨trivial, hu⟩

/-- Settling two of the orders does the same in offices in step. -/
theorem parallel_settle (ha : mine ask) (hb : mine bid) :
    Local mine p p' (settle ask bid price q) := by
  intro s s' hs
  unfold settle
  refine paired_current ?_
  rw [hs.orders ask ha, hs.orders bid hb]
  dsimp only
  have hsame : ∀ u, s'.state.backend.isRejected u = s.state.backend.isRejected u := fun u => by
    unfold isRejected
    rw [hs.rejected]
  rw [hsame, hsame]
  cases hac : (s.state.orders.get ask).closed <;> cases hbc : (s.state.orders.get bid).closed <;>
    simp only
  · split
    · exact parallel_closeRejected ha hb _ _ s s' hs
    · refine parallel_trade ha hb (fun t hta htb => hs.between ?_) s s' hs
      obtain ⟨made, hw, -⟩ := hs.wrote
      exact ⟨ask, bid, ⟨ha, hac, hta.trans (hw.follow ask).id.symm⟩, hb, hbc,
        htb.trans (hw.follow bid).id.symm⟩
  · exact paired_pure ⟨trivial, hs⟩
  · exact paired_pure ⟨trivial, hs⟩
  · exact paired_pure ⟨trivial, hs⟩

/-- Noting one of these stop-losses is local. -/
theorem parallel_noteStopLoss (hr : mine r) : Local mine p p' (noteStopLoss r) := by
  intro s s' hs
  unfold noteStopLoss
  refine paired_current ?_
  rw [hs.orders r hr]
  have hnoted : Office.InStep mine p p'
      { s.state with backend := { s.state.backend with
        activated := s.state.backend.activated.push (s.state.orders.get r).id } }
      { s'.state with backend := { s'.state.backend with
        activated := s'.state.backend.activated.push (s.state.orders.get r).id } } := by
    obtain ⟨made, hw, hw'⟩ := hs.wrote
    exact ⟨⟨hs.orders, hs.rejected, hs.now⟩, made,
      ⟨hw.follow, hw.others, hw.rejected, hw.now, hw.trades, hw.between⟩,
      ⟨hw'.follow, hw'.others, hw'.rejected, hw'.now, hw'.trades, hw'.between⟩⟩
  exact (paired_replace hnoted).bind fun _ t t' ht => paired_log ⟨trivial, ht⟩

end Simulated

end Bourse
