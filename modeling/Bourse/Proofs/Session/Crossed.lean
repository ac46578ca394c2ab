import Bourse.Proofs.Session.Invariant

/-!
# What reconciliation leaves crossed

Reconciliation stops when the best open ask finds no crossing bid of another user. A bid of that
ask's own user can then still cross an ask of somebody else: the two would trade, but they are not
looked at. This is the only way in which a crossing pair of different users is left
(`Desk.crossed_reconcile`), and it happens (`Session.ownCross_stays_crossed`).
-/

namespace Bourse

open Bourse.Action

namespace Desk

variable {d : Desk Simulated} {r r' : OrderRef}

/-- Some open ask and open bid of different users cross. -/
def Crossed (d : Desk Simulated) : Prop := ∃ a b, CrossingPair d a b

/-- An open bid of the user who owns the best open ask crosses the ask of another user. -/
def CrossedByOwner (d : Desk Simulated) : Prop :=
  ∃ r a b, d.book.best? .ask = some r ∧ (d.order r).isOpen = true ∧
    CrossingPair d a b ∧ (d.order b.order).user = (d.order r).user

/-- The order is in one of the four queues. -/
def Queued (d : Desk Simulated) (r : OrderRef) : Prop :=
  ∃ s i, (i ∈ (d.book.queue s).bag ∨ i ∈ (d.book.stopLossQueue s).bag) ∧ i.order = r

/-- No user has orders on both sides in the queues. -/
def OneSided (d : Desk Simulated) : Prop :=
  ∀ r r', d.Queued r → d.Queued r' → (d.order r).side = .ask → (d.order r').side = .bid →
    (d.order r).user ≠ (d.order r').user

/-- In a sound book all that rest are queued. -/
theorem Sound.queued (hd : Sound (fun _ => True) d) : Sound d.Queued d where
  ordered := hd.ordered
  resting s i hi := { hd.resting s i hi with known := ⟨s, i, .inl hi, rfl⟩ }
  dormant s i hi := ⟨s, i, .inr hi, rfl⟩

/-- In a settled book only orders of one user cross. -/
theorem Settled.crossedByOwner (h : Settled d) (hc : Crossed d) : CrossedByOwner d := by
  obtain ⟨a, b, hp⟩ := hc
  obtain ⟨r, hr, ho, hu⟩ := h a b hp
  exact ⟨r, a, b, hr, ho, hp, hu⟩

/-- The best order of a queue is one of its items. -/
theorem mem_bag_of_best? {s : Side} (h : d.book.best? s = some r) :
    ∃ i ∈ (d.book.queue s).bag, i.order = r := by
  obtain ⟨i, hi, rfl⟩ := Option.map_eq_some_iff.1 h
  exact ⟨i, Queue.mem_bag_of_headItem? hi, rfl⟩

/-- Without users on both sides nothing is left crossed by an owner of the best ask. -/
theorem OneSided.not_crossedByOwner {d' : Desk Simulated} (h : OneSided d)
    (hf : d.office.orders.Follow d'.office.orders) (hd' : Sound d.Queued d') :
    ¬ CrossedByOwner d' := by
  rintro ⟨r, a, b, hr, -, hp, hu⟩
  obtain ⟨i, hi, rfl⟩ := mem_bag_of_best? hr
  have hri := hd'.resting .ask i hi
  have hrb := hd'.resting .bid b hp.bid
  refine h i.order b.order hri.known hrb.known ?_ ?_ ?_
  · rw [← hri.side]
    exact (hf _).side.symm
  · rw [← hrb.side]
    exact (hf _).side.symm
  · exact (hf _).user.symm.trans (hu.symm.trans (hf _).user)

/-- When reconciliation returns, the bids that cross an ask of another user are all of the one user
who owns the best open ask: the book is left crossed just in case this user has such a bid. So
nothing crosses if no user has orders on both sides to begin with. Only an overflow of depth keeps
reconciliation from returning. -/
theorem crossed_reconcile (d : Desk Simulated) (j : Array Event) (hd : Sound (fun _ => True) d) :
    Ends (reconcile Simulated.settlement) ⟨d, j⟩
      (fun _ t => Settled t.state ∧ (Crossed t.state ↔ CrossedByOwner t.state) ∧
        (OneSided d → ¬ Crossed t.state))
      (fun f _ => f.IsOverflow) := by
  refine (ends_reconcile (s := ⟨d, j⟩) (upkeep_true d.Queued) hd.queued trivial).mono ?_
    fun _ _ hf => hf.overflow
  rintro _ t ⟨hon, hsound, -, hsettled⟩
  refine ⟨hsettled, ⟨hsettled.crossedByOwner, ?_⟩, ?_⟩
  · rintro ⟨-, a, b, -, -, hp, -⟩
    exact ⟨a, b, hp⟩
  · intro hone hc
    exact hone.not_crossedByOwner hon.orders hsound (hsettled.crossedByOwner hc)

end Desk

namespace Session

/-- The book of `ownCross` is started and keeps crossing: the best ask is of the user of the bid,
and the bid is not tried on the ask of the other user. -/
theorem ownCross_stays_crossed :
    let d := (ownCrossOpening.run
      [.load .ask ⟨0⟩, .load .ask ⟨1⟩, .load .bid ⟨2⟩, .start]).state
    d.book.phase = .running ∧ d.Crossed := by
  refine ⟨by decide +kernel, .ofOrder ⟨1⟩ (ownCross.get ⟨1⟩), .ofOrder ⟨2⟩ (ownCross.get ⟨2⟩), ?_⟩
  exact ⟨by decide +kernel, by decide +kernel, by decide +kernel, by decide +kernel,
    by decide +kernel, by decide +kernel⟩

/-- What is left crossed in the book of `ownCross` is so by the owner of the best ask. -/
theorem crossedByOwner_of_ownCross :
    let d := (ownCrossOpening.run [.load .ask ⟨0⟩, .load .ask ⟨1⟩, .load .bid ⟨2⟩]).state
    Ends (Desk.reconcile Simulated.settlement) ⟨d, #[]⟩
      (fun _ t => t.state.Settled ∧ (t.state.Crossed ↔ t.state.CrossedByOwner) ∧
        (d.OneSided → ¬ t.state.Crossed))
      (fun f _ => f.IsOverflow) := by
  intro d
  exact Desk.crossed_reconcile d #[] (sound_run _ _ _ _ _ (by decide))

end Session

end Bourse
