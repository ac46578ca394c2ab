import Bourse.Proofs.Settlement

/-!
# Simulated settlement in a race with cancellations

`Racing` is simulated settlement with cancellations that come in between: after the book has chosen
a pair and before it is settled, and after it is settled and before the book knows. When they come
and which orders they are for is a plan that nothing is supposed of.

A settlement is `Careful` if it never breaks off and logs no error, finishes at least one order of
every pair that it is shown, and leaves all other orders alone, but for closing some. Racing
settlement is.
-/

namespace Bourse

open Bourse.Action

variable {σ : Type}

/-- Settlement never breaks off, logs no error and finishes an order of every open pair. -/
structure Settlement.Careful (S : Settlement σ) : Prop where
  fill : ∀ {ask bid : OrderRef} (price : Price) {q : Quantity} {s : Logged (Office σ)}, ask ≠ bid →
    (s.state.orders.get ask).isOpen = true → (s.state.orders.get bid).isOpen = true →
    q = min (s.state.orders.get ask).unfulfilled (s.state.orders.get bid).unfulfilled →
    Spotless s.journal →
    Ends (S.fill ask bid price q) s
      (fun out t => Spotless t.journal ∧ ∃ view, Filled s.state.orders.get view ask bid out ∧
        Dimmed view t.state.orders.get)
      (fun _ _ => False)
  stopLossTriggered : ∀ (r : OrderRef) {s : Logged (Office σ)}, Spotless s.journal →
    Ends (S.stopLossTriggered r) s
      (fun _ t => Spotless t.journal ∧ Dimmed s.state.orders.get t.state.orders.get)
      (fun _ _ => False)

/-- The state of simulated settlement in a race with cancellations. -/
structure Racing where
  simulated : Simulated
  /-- The orders that are cancelled when there is next an occasion, at the one after it, and so
  on. -/
  plan : List (List OrderRef)

namespace Racing

variable {α : Type}

/-- Takes the orders that are cancelled now off the plan. -/
def occasion : Action Racing (List OrderRef) := do
  let b ← Action.current
  match b.plan with
  | [] => return []
  | now :: later =>
    Action.replace { b with plan := later }
    return now

/-- Cancels the orders whose turn it is. Those that are closed already refuse. -/
def interfere : Action (Office Racing) Unit := do
  let now ← Office.onBackend occasion
  now.forM fun r => do
    let _ ← Office.onOrders (Orders.cancel r)

/-- Runs an action of simulated settlement. -/
def simulating (act : Action (Office Simulated) α) : Action (Office Racing) α :=
  Office.withinBackend (·.simulated) (fun b s => { s with simulated := b }) act

/-- Settles a pair as simulated, with cancellations before and after. -/
def settle (ask bid : OrderRef) (price : Price) (q : Quantity) :
    Action (Office Racing) FillOutcome := do
  interfere
  let outcome ← simulating (Simulated.settle ask bid price q)
  interfere
  return outcome

/-- Notes an activated stop-loss, with cancellations before and after. -/
def noteStopLoss (r : OrderRef) : Action (Office Racing) Unit := do
  interfere
  simulating (Simulated.noteStopLoss r)
  interfere

/-- Simulated settlement in a race with cancellations. -/
def settlement : Settlement Racing where
  fill := settle
  stopLossTriggered := noteStopLoss
  patience _ := 0

end Racing

/-! ## Settling what may have been closed -/

/-- Closing one order closes orders at most. -/
theorem Orders.dimmed_modify (os : Orders) (r : OrderRef) :
    Dimmed os.get (os.modify r Order.close).get := by
  intro r'
  rw [Orders.get_modify]
  split
  · next heq => exact .inr (heq ▸ rfl)
  · exact .inl rfl

/-- A cancellation closes an order at most, and is no error. -/
theorem Office.ends_cancel {s : Logged (Office σ)} {r : OrderRef} (hj : Spotless s.journal) :
    Ends (onOrders (Orders.cancel r)) s
      (fun _ t => Spotless t.journal ∧ Dimmed s.state.orders.get t.state.orders.get)
      (fun _ _ => False) := by
  simp only [onOrders, ends_within, Orders.cancel, ends_bind, ends_current]
  split
  · exact ⟨hj, .refl _⟩
  · exact ⟨hj.push Severity.noConfusion, s.state.orders.dimmed_modify r⟩

namespace Simulated

variable {s : Logged (Office Simulated)} {view : OrderRef → Order} {ask bid : OrderRef}
  {q : Quantity}

/-- A pair that was closed in part since it was chosen is left as it is, and what is closed of it
is called finished. -/
theorem filled_of_closed (hdim : Dimmed view s.state.orders.get) (ha : (view ask).isOpen = true)
    (hb : (view bid).isOpen = true) {a b : FillStatus}
    (hda : a.isDone = (s.state.orders.get ask).closed)
    (hdb : b.isDone = (s.state.orders.get bid).closed)
    (hclosed : (s.state.orders.get ask).closed = true ∨ (s.state.orders.get bid).closed = true) :
    Filled view s.state.orders.get ask bid ⟨a, b, none⟩ where
  leftAsk := hdim.left ha
  leftBid := hdim.left hb
  askDone := hda
  bidDone := hdb
  progress := hclosed
  quantity := nofun
  others r _ _ := hdim r

/-- Settling a pair that was open when it was chosen. -/
theorem ends_settle_of_dimmed (hne : ask ≠ bid) (hdim : Dimmed view s.state.orders.get)
    (ha : (view ask).isOpen = true) (hb : (view bid).isOpen = true) (price : Price)
    (hq : q = min (view ask).unfulfilled (view bid).unfulfilled) :
    Ends (settle ask bid price q) s
      (fun out t => t.journal = s.journal ∧ Filled view t.state.orders.get ask bid out)
      (fun _ _ => False) := by
  cases hca : (s.state.orders.get ask).closed <;> cases hcb : (s.state.orders.get bid).closed
  · have hva := hdim.eq_of_not_closed hca
    have hvb := hdim.eq_of_not_closed hcb
    rw [← hva] at ha hq
    rw [← hvb] at hb hq
    refine (ends_settle hne hca hcb price hq).imp ?_
    rintro out t ⟨rfl, rfl⟩
    have hfilled : Filled s.state.orders.get (s.state.dealt ask bid price).orders.get ask bid _ :=
      filled_dealt hne ha hb
    refine ⟨rfl, hva ▸ hfilled.leftAsk, hvb ▸ hfilled.leftBid, hfilled.askDone, hfilled.bidDone,
      hfilled.progress, hva ▸ hvb ▸ hfilled.quantity, ?_⟩
    intro r hra hrb
    show (s.state.dealt ask bid price).orders.get r = _ ∨
      (s.state.dealt ask bid price).orders.get r = _
    rw [Office.get_dealt_of_ne hne hra hrb]
    exact hdim r
  all_goals
    simp only [settle, ends_bind, ends_current, hca, hcb]
    exact ⟨rfl, filled_of_closed hdim ha hb hca.symm hcb.symm (by simp [hca, hcb])⟩

end Simulated

namespace Racing

variable {α : Type} {s : Logged (Office Racing)}

/-- Taking orders off the plan never breaks off and logs nothing. -/
theorem ends_occasion {s : Logged Racing} : Ends occasion s
    (fun _ t => t.journal = s.journal) (fun _ _ => False) := by
  simp only [occasion, ends_bind, ends_current]
  split <;> exact rfl

/-- What comes in between closes orders at most, and is no error. -/
theorem ends_interfere (hj : Spotless s.journal) : Ends interfere s
    (fun _ t => Spotless t.journal ∧ Dimmed s.state.orders.get t.state.orders.get)
    (fun _ _ => False) := by
  simp only [interfere, Office.onBackend, ends_bind, ends_within]
  refine ends_occasion.imp ?_
  intro now t ht
  refine Ends.forM (P := fun _ (u : Logged (Office Racing)) => Spotless u.journal ∧
    Dimmed s.state.orders.get u.state.orders.get) ?_ ⟨ht.symm ▸ hj, .refl _⟩
  intro r later u hu
  rw [ends_bind]
  exact (Office.ends_cancel hu.1).imp (fun _ v hv => ⟨hv.1, hu.2.trans hv.2⟩)

/-- Racing settlement is careful. -/
theorem careful : settlement.Careful where
  fill := by
    intro ask bid price q s hne ha hb hq hj
    refine (ends_interfere hj).bind ?_
    intro _ t ht
    rw [ends_bind, simulating, Office.withinBackend, ends_within]
    refine (Simulated.ends_settle_of_dimmed
      (s := ⟨⟨t.state.orders, t.state.backend.simulated⟩, _⟩) hne ht.2 ha hb price hq).imp ?_
    intro out u hu
    refine (ends_interfere (hu.1.symm ▸ ht.1)).bind ?_
    exact fun _ v hv => ⟨hv.1, _, hu.2, hv.2⟩
  stopLossTriggered := by
    intro r s hj
    refine (ends_interfere hj).bind ?_
    intro _ t ht
    rw [ends_bind, simulating, Office.withinBackend, ends_within]
    simp only [Simulated.noteStopLoss, ends_bind, ends_current, ends_replace, ends_log]
    refine (ends_interfere (ht.1.push Severity.noConfusion)).imp ?_
    exact fun _ u hu => ⟨hu.1, ht.2.trans hu.2⟩

end Racing

end Bourse
