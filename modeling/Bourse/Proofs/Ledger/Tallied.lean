import Bourse.Proofs.Ledger

/-!
# Levels that hold what is shown

A ledger is `Tallied` if it shows each number once and each level of its market depth holds what
the orders at the price show. Other than the balance this asks for no room: showing and withdrawing
orders keep it wherever they answer (`Tallied.ends_add`, `Tallied.ends_withdraw`), so what happens
to the levels is read off what is shown.
-/

namespace Bourse.Ledger

open Bourse.Action

variable {s : Logged Ledger} {l : Ledger} {id : OrderId} {o : Order}

/-- Each number is shown once, and the levels hold what the orders at their prices show. -/
structure Tallied (l : Ledger) : Prop where
  distinct : (l.shown.map (·.id)).Nodup
  held : ∀ s p, l.depth.held s p = shownAt l.shown s p

/-- Showing an order keeps the tally wherever it answers. -/
theorem Tallied.ends_add (h : s.state.Tallied) :
    Ends (add o) s (fun _ t => t.state.Tallied) (fun _ _ => True) := by
  simp only [add, ends_bind, ends_current]
  split
  · next hnew =>
    rw [Bool.and_eq_true, Option.isNone_iff_eq_none] at hnew
    simp only [report, ends_bind, ends_replace, ends_change, ends_within]
    refine (MarketDepth.holds_addOrder (s := ⟨s.state.depth, s.journal⟩)).imp fun _ t ht =>
      ⟨?_, fun s' p => ?_⟩
    · refine List.nodup_cons.2 ⟨fun hmem => ?_, h.distinct⟩
      obtain ⟨e, he, hid⟩ := List.mem_map.1 hmem
      exact find?_eq_none.1 hnew.2 e he hid
    · show t.state.held s' p = shownAt (.ofOrder o :: s.state.shown) s' p
      rw [ht s' p, shownAt_cons, h.held, Nat.add_comm]
      rfl
  · exact h

/-- Withdrawing an order keeps the tally wherever it answers. -/
theorem Tallied.ends_withdraw (h : s.state.Tallied) :
    Ends (withdraw id) s (fun _ t => t.state.Tallied) (fun _ _ => True) := by
  simp only [withdraw, ends_bind, ends_current]
  cases he : s.state.find? id with
  | none => exact h
  | some e =>
    simp only [report, ends_bind, ends_replace, ends_change, ends_within]
    refine (MarketDepth.holds_closeOrder (s := ⟨s.state.depth, s.journal⟩)).imp fun _ t ht => ?_
    refine ⟨nodup_without h.distinct id, fun s' p => ?_⟩
    show t.state.held s' p = shownAt (without id s.state.shown) s' p
    rw [ht s' p, h.held, shownAt_of_find? h.distinct he]
    exact Nat.add_sub_cancel_left ..

/-- What some orders show and what the others show is what all show. -/
theorem shownAt_filter (shown : List Shown) (p : Shown → Bool) (s : Side) (price : Price) :
    shownAt (shown.filter p) s price + shownAt (shown.filter fun e => !p e) s price =
      shownAt shown s price := by
  induction shown with
  | nil => rfl
  | cons e rest ih =>
    rw [shownAt_cons, ← ih]
    cases hp : p e <;> simp [hp, Nat.add_assoc, Nat.add_left_comm]

/-- What two lists of entries show together. -/
theorem shownAt_append (l l' : List Shown) (s : Side) (price : Price) :
    shownAt (l ++ l') s price = shownAt l s price + shownAt l' s price := by
  rw [shownAt, List.map_append, List.sum_append, shownAt, shownAt]

end Bourse.Ledger
