import Bourse.Proofs.Settlement.Faithful
import Bourse.Proofs.Settlement.Recorded
import Bourse.Proofs.Settlement.Settling

/-!
# Settlement that tells the truth

A settlement is `Truthful` if it calls no order finished that it leaves open, and opens no order
again, wherever it answers. That is all that matching needs to come to an end: a truthful
settlement may fill in parts or not at all, report a trade or none, write any field, and break off.

`Settlement.Counts` says that a measure of the backend goes up by one at most with every call to
fill, as the length of the record of the calls does (`Settlement.counts_recorded`).
-/

namespace Bourse

open Bourse.Action

variable {σ : Type} {S : Settlement σ}

namespace Orders

variable {os os' os'' : Orders}

/-- What is not open in the first table is not open in the second. -/
def StayShut (os os' : Orders) : Prop :=
  ∀ r, (os.get r).isOpen = false → (os'.get r).isOpen = false

theorem StayShut.refl (os : Orders) : StayShut os os := fun _ h => h

theorem StayShut.trans (h : os.StayShut os') (h' : os'.StayShut os'') : os.StayShut os'' :=
  fun r hr => h' r (h r hr)

/-- Filling and closing opens nothing. -/
theorem Follow.stayShut (h : os.Follow os') : os.StayShut os' := fun r => (h r).not_isOpen

end Orders

namespace Settlement

/-- Where settlement answers, it calls no order finished that it leaves open, and no order is open
that was not open before. -/
structure Truthful (S : Settlement σ) : Prop where
  done : ∀ {ask bid : OrderRef} {price : Price} {q : Quantity} {o o' : Office σ}
    {out : FillOutcome}, (S.fill ask bid price q).Leads o (some out) o' →
      (out.ask.isDone = true → (o'.orders.get ask).isOpen = false) ∧
      (out.bid.isDone = true → (o'.orders.get bid).isOpen = false)
  fill : ∀ {ask bid : OrderRef} {price : Price} {q : Quantity} {o o' : Office σ}
    {out : FillOutcome},
    (S.fill ask bid price q).Leads o (some out) o' → o.orders.StayShut o'.orders
  stopLossTriggered : ∀ {r : OrderRef} {o o' : Office σ},
    (S.stopLossTriggered r).Leads o (some ()) o' → o.orders.StayShut o'.orders

/-- A call to fill counts once at most, and nothing else counts. -/
structure Counts (S : Settlement σ) (calls : σ → Nat) : Prop where
  fill : ∀ {ask bid : OrderRef} {price : Price} {q : Quantity} {o o' : Office σ}
    {answer : Option FillOutcome}, (S.fill ask bid price q).Leads o answer o' →
    calls o'.backend ≤ calls o.backend + 1
  stopLossTriggered : ∀ {r : OrderRef} {o o' : Office σ} {answer : Option Unit},
    (S.stopLossTriggered r).Leads o answer o' → calls o'.backend ≤ calls o.backend

/-- It is always possible not to count. -/
theorem counts_nothing (S : Settlement σ) : S.Counts fun _ => 0 :=
  ⟨fun _ => Nat.zero_le _, fun _ => le_rfl⟩

/-- A record of its calls leaves settlement truthful. -/
theorem Truthful.recorded (h : S.Truthful) : S.recorded.Truthful where
  done hl := h.done (Mirrors.leads (S.mirrors_recorded.fill _ _ _ _) hl)
  fill hl := h.fill (Mirrors.leads (S.mirrors_recorded.fill _ _ _ _) hl)
  stopLossTriggered hl :=
    h.stopLossTriggered (Mirrors.leads (S.mirrors_recorded.stopLossTriggered _) hl)

/-- The record counts the calls to fill. -/
theorem counts_recorded (S : Settlement σ) : S.recorded.Counts (·.transcript.fills.length) where
  fill {ask bid price q o o' _} hl := by
    refine hl.of_ends (P := fun _ u => u.backend.transcript.fills.length ≤
      o.backend.transcript.fills.length + 1) fun j => ends_fill_recorded.2 ?_
    refine (Ends.any _ _).mono ?_ ?_
    all_goals
      intro _ t _
      simp [Office.written, Transcript.fills]
  stopLossTriggered {r o o' _} hl := by
    refine hl.of_ends (P := fun _ u => u.backend.transcript.fills.length ≤
      o.backend.transcript.fills.length) fun j => ends_stopLossTriggered_recorded.2 ?_
    refine (Ends.any _ _).mono ?_ ?_
    all_goals
      intro _ t _
      simp [Office.written, Transcript.fills]

end Settlement

namespace Simulated

/-- Simulated settlement tells the truth: what it calls finished is closed. -/
theorem truthful : settlement.Truthful where
  done hl := by
    have hclosed : ∀ {o : Order}, o.closed = true → o.isOpen = false := fun h => by
      simp [Order.isOpen, h]
    cases Settling.of_leads hl with
    | gone closed askDone bidDone trade =>
      exact ⟨fun h => hclosed (askDone ▸ h), fun h => hclosed (bidDone ▸ h)⟩
    | refused ask_closed bid_closed askDone bidDone trade =>
      refine ⟨fun h => hclosed (Office.closed_closeRefused (.inl rfl) (askDone ▸ h)), fun h =>
        hclosed (Office.closed_closeRefused (.inr rfl) (bidDone ▸ h))⟩
    | traded ha hb hra hrb hqa hqb orders askDone bidDone =>
      exact ⟨fun h => hclosed (askDone ▸ h), fun h => hclosed (bidDone ▸ h)⟩
  fill hl := (faithful.fill hl).follow.stayShut
  stopLossTriggered hl := (faithful.stopLossTriggered hl).follow.stayShut

end Simulated

end Bourse
