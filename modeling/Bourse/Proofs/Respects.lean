import Bourse.Proofs.Ends

/-!
# Actions that respect a relation

An action respects a relation if it leads from every state to a related one, also if it breaks off.
For a relation that is a preorder (`Chains`) this is closed under the ways of putting actions
together.
-/

namespace Bourse

/-- What holds from a state to itself, and of two stretches one after the other. -/
structure Chains {σ : Type} (R : σ → σ → Prop) : Prop where
  refl : ∀ a, R a a
  trans : ∀ {a b c}, R a b → R b c → R a c

namespace Action

variable {σ τ α β γ : Type} {R : σ → σ → Prop}

/-- Wherever the action ends, with an answer or not, it ends in relation to where it began. -/
def Respects (R : σ → σ → Prop) (act : Action σ α) : Prop :=
  ∀ s, Ends act s (fun _ t => R s.state t.state) (fun _ t => R s.state t.state)

variable {act : Action σ α} {next : α → Action σ β}

/-- Actions in sequence lead to a related state if their parts do. -/
theorem Respects.bind (hR : Chains R) (h : Respects R act) (hnext : ∀ a, Respects R (next a)) :
    Respects R (act >>= next) := by
  intro s
  refine Ends.bind (h s) ?_
  intro a t ht
  exact (hnext a t).mono (fun _ _ hu => hR.trans ht hu) fun _ _ hu => hR.trans ht hu

theorem Respects.pure (hR : Chains R) (a : α) : Respects R (pure a : Action σ α) :=
  fun s => hR.refl s.state

theorem Respects.fail (hR : Chains R) (f : Failure) : Respects R (fail f : Action σ α) :=
  fun s => hR.refl s.state

theorem Respects.log (hR : Chains R) (e : Event) : Respects R (log e) := fun s => hR.refl s.state

/-- A change leads to a related state if the function does. -/
theorem Respects.change {f : σ → σ} (h : ∀ a, R a (f a)) : Respects R (change f) :=
  fun s => h s.state

/-- What leads to a related state from each state does so after a look at it. -/
theorem Respects.current {next : σ → Action σ β} (h : ∀ a, Respects R (next a)) :
    Respects R (current >>= next) := fun s => ends_bind.2 (ends_current.2 (h s.state s))

/-- Branches lead to a related state if both do. -/
theorem Respects.ite {c : Prop} [Decidable c] {act' : Action σ α} (h : Respects R act)
    (h' : Respects R act') : Respects R (if c then act else act') := by
  split
  · exact h
  · exact h'

/-- An attempt leads to a related state if the action does. -/
theorem Respects.attempt (h : Respects R act) : Respects R (attempt act) :=
  fun s => ends_attempt.2 (h s)

/-- Actions for each element of a list lead to a related state, by induction on it. -/
theorem Respects.forM (hR : Chains R) {each : γ → Action σ PUnit} (h : ∀ c, Respects R (each c)) :
    ∀ l : List γ, Respects R (l.forM each)
  | [] => .pure hR _
  | c :: rest => (h c).bind hR fun _ => Respects.forM hR h rest

/-- An action on a part of the state. -/
theorem Respects.within {part : τ → σ} {put : σ → τ → τ} {R : τ → τ → Prop}
    (h : ∀ t : Logged τ, Ends act ⟨part t.state, t.journal⟩
      (fun _ s => R t.state (put s.state t.state))
      (fun _ s => R t.state (put s.state t.state))) : Respects R (within part put act) :=
  fun t => ends_within.2 (h t)

end Action

end Bourse
