import Bourse.Proofs.Book.Upkeep

/-!
# Room in market depth

Matching shows nothing that was not shown before but what is left of the incoming order. So if that
and all that is shown fit in 63 bits together (`Ledger.HasRoom`), no depth overflows on the way,
and matching is never broken off (`Desk.upkeep_hasRoom`).
-/

namespace Bourse

open Bourse.Action

namespace Ledger

/-- The ledger is balanced, and has room for so many shares more. -/
structure HasRoom (q : Nat) (l : Ledger) : Prop where
  balanced : l.Balanced
  fits : total l.shown + q < 2 ^ 63

variable {l : Ledger} {p q : Nat} {id : OrderId} {j : Array Event}

theorem HasRoom.mono (h : HasRoom q l) (hle : p ≤ q) : HasRoom p l := ⟨h.balanced, by
  have := h.fits
  omega⟩

/-- A ledger with any room shows fewer than 2⁶³ shares. -/
theorem HasRoom.total_lt (h : HasRoom q l) : total l.shown < 2 ^ 63 :=
  (Nat.le_add_right _ q).trans_lt h.fits

/-- An empty ledger has room for any fewer than 2⁶³ shares. -/
theorem hasRoom_empty {i : InstrumentId} {history : Nat} (h : q < 2 ^ 63) :
    HasRoom q (.empty i history) :=
  ⟨balanced_empty i history, (Nat.zero_add q).symm ▸ h⟩

/-- A withdrawal takes no room. -/
theorem HasRoom.ends_withdraw (h : HasRoom q l) :
    Ends (withdraw id) ⟨l, j⟩ (fun _ t => HasRoom q t.state) (fun _ _ => False) := by
  refine (Ledger.ends_withdraw (s := ⟨l, j⟩) h.balanced (fits_of_total (n := 0) h.total_lt)).imp
    (fun _ t ht => ⟨ht.1, ?_⟩)
  rw [ht.2.1]
  exact (Nat.add_le_add_right (total_without_le l.shown id) q).trans_lt h.fits

/-- A trade that is reported takes no room. -/
theorem HasRoom.ends_recordTrade {tr : Trade} (h : HasRoom q l) :
    Ends (recordTrade tr) ⟨l, j⟩ (fun _ t => HasRoom q t.state) (fun _ _ => False) := by
  refine (Ledger.ends_recordTrade (s := ⟨l, j⟩) h.balanced).imp (fun _ t ht => ⟨ht.1, ?_⟩)
  rw [ht.2.1]
  exact h.fits

/-- Bringing the depth of one side in line takes no room. -/
theorem HasRoom.ends_settleShown (h : HasRoom q l) {incoming : Option Side} {side : Side}
    {out : FillOutcome} :
    Ends (settleShown incoming side id out) ⟨l, j⟩ (fun _ t => HasRoom q t.state)
      (fun _ _ => False) := by
  unfold settleShown
  split
  · exact h
  · exact (ends_settleSide (s := ⟨l, j⟩) h.balanced h.total_lt).imp
      (fun _ _ ht => ⟨ht.1, (Nat.add_le_add_right ht.2.1 q).trans_lt h.fits⟩)

/-- Bringing the ledger in line with a match leaves as much room. -/
theorem HasRoom.ends_settlePair (h : HasRoom q l) {a b : OrderId} {out : FillOutcome}
    {incoming : Option Side} :
    Ends (settlePair a b out incoming) ⟨l, j⟩ (fun _ t => HasRoom q t.state)
      (fun _ _ => False) := by
  have hrecord : Ends (recordDeal out.trade) ⟨l, j⟩ (fun _ t => HasRoom q t.state)
      (fun _ _ => False) := by
    cases out.trade with
    | none => exact h
    | some t => exact h.ends_recordTrade
  refine hrecord.bind ?_
  intro _ t ht
  exact (ht.ends_settleShown (j := t.journal)).bind fun _ u hu =>
    hu.ends_settleShown (j := u.journal)

/-- Showing an order takes room for what it has left. -/
theorem HasRoom.ends_add {o : Order} (h : HasRoom q l) (hle : p + o.unfulfilled.toNat ≤ q) :
    Ends (add o) ⟨l, j⟩ (fun _ t => HasRoom p t.state) (fun _ _ => False) := by
  have hfits := h.fits
  have hroom : total l.shown + o.unfulfilled.toNat < 2 ^ 63 := by omega
  refine (Ledger.ends_add (s := ⟨l, j⟩) h.balanced fun _ _ _ => fits_of_total hroom _ _).imp
    (fun _ t ht => ⟨ht.1, ?_⟩)
  rw [ht.2.1, added]
  split
  · rw [total_cons]
    show o.unfulfilled.toNat + total l.shown + p < _
    omega
  · show total l.shown + p < _
    omega

/-- What a call does to the ledger, and the room it leaves if there was any, together. It breaks
off only by an overflow, and only without room. -/
theorem ends_roomy {roomy : Prop} {act : Action Ledger Unit} {P R : Ledger → Prop}
    {E : Failure → Logged Ledger → Prop} (hdoes : Ends act ⟨l, j⟩ (fun _ t => P t.state) E)
    (hbreaks : Ends act ⟨l, j⟩ (fun _ _ => True) (fun f _ => f.IsOverflow))
    (hroom : roomy → Ends act ⟨l, j⟩ (fun _ t => R t.state) (fun _ _ => False)) :
    Ends act ⟨l, j⟩ (fun _ t => P t.state ∧ (roomy → R t.state))
    (fun f _ => f.IsOverflow ∧ ¬ roomy) := by
  by_cases hroomy : roomy
  · exact (hdoes.and (hroom hroomy)).mono (fun _ _ ht => ⟨ht.1, fun _ => ht.2⟩) fun _ _ hf =>
      hf.2.elim
  · exact (hdoes.and hbreaks).mono (fun _ _ ht => ⟨ht.1, fun h => absurd h hroomy⟩)
      fun _ _ hf => ⟨hf.2, hroomy⟩

end Ledger

/-- What an incoming order has still to show, at most. -/
def Office.pending (o : Office Simulated) (inc : Option OrderRef) : Nat :=
  (inc.map fun r => (o.orders.get r).unfulfilled.toNat).getD 0

/-- As orders are filled and closed less of them is pending. -/
theorem Office.pending_le {o o' : Office Simulated} (h : o.orders.Follow o'.orders)
    (inc : Option OrderRef) : o'.pending inc ≤ o.pending inc := by
  cases inc with
  | none => exact le_rfl
  | some r =>
    show (o'.orders.get r).unfulfilled.toNat ≤ (o.orders.get r).unfulfilled.toNat
    rw [Order.toNat_unfulfilled, Order.toNat_unfulfilled, (h r).quantity]
    exact Nat.sub_le_sub_left (h r).fulfilled _

/-- As long as there is room, matching keeps it and is not broken off. -/
theorem Desk.upkeep_hasRoom (known : OrderRef → Prop) :
    Upkeep known (fun inc o l => l.HasRoom (o.pending inc)) (fun _ => False) where
  drop _ _ _ _ _ _ _ h := h.ends_withdraw.mono (fun _ _ ht => ht) fun _ _ hf => hf.elim
  settle incoming ask bid price o l j _ _ hsa hsb _ _ _ _ h := by
    have hfollow : o.orders.Follow (o.dealt ask bid price).orders :=
      Office.follow_dealt (Orders.ne_of_side hsa hsb)
    have hle := Office.pending_le hfollow (incomingOf incoming ask bid)
    exact (h.ends_settlePair (j := j)).mono (fun _ _ ht => ht.mono hle) fun _ _ hf => hf.elim
  fires inc := {
    activate := by
      intro r o l _ h
      have hfollow : o.orders.Follow (o.activated r).orders :=
        Orders.follow_modify Order.follows_activateStopLoss
      exact h.mono (Office.pending_le hfollow inc)
    note := fun _ _ _ _ h => h }
  rest r o l j _ _ h := by
    have h : l.HasRoom (o.orders.get r).unfulfilled.toNat := h
    exact (h.ends_add (Nat.zero_add _).le (j := j)).mono (fun _ _ ht => ht) fun _ _ hf => hf.elim
  finish _ _ _ _ _ h := h.mono (Nat.zero_le _)

end Bourse
