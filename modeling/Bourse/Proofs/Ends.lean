import Bourse.Action
import Mathlib.Data.List.Induction

/-!
# How an action ends

`Ends act s Q E` says that the action, started in `s`, answers with an answer and a state in `Q`,
or breaks off with a failure and a state in `E`. Each way of putting actions together has one
equation here, so what a function does is read off its parts, and later proofs never unfold the
monad.

`Ends.mono` weakens both conditions and `Ends.imp` the first, `Ends.bind` and `Ends.forM` put
actions in sequence. `inTurn` runs an action for each of a list of calls, and what each call keeps
holds of the run (`Ends.inTurn`). `Leads` says the same of one end, as a relation between states. A
journal without errors is `Spotless`.
-/

namespace Bourse.Action

variable {σ τ α β : Type} {s : Logged σ} {Q : β → Logged σ → Prop} {E : Failure → Logged σ → Prop}

/-- Started in `s`, the action ends in `Q`, or breaks off in `E`. -/
def Ends (act : Action σ α) (s : Logged σ) (Q : α → Logged σ → Prop)
    (E : Failure → Logged σ → Prop) : Prop :=
  match act s with
  | .ok a t => Q a t
  | .error f t => E f t

/-- Two actions in sequence: the second starts where the first answers. -/
theorem ends_bind {act : Action σ α} {next : α → Action σ β} :
    Ends (act >>= next) s Q E ↔ Ends act s (fun a t => Ends (next a) t Q E) E := by
  unfold Ends
  show (match (EStateM.bind act next) s with | .ok a t => Q a t | .error f t => E f t) ↔ _
  unfold EStateM.bind
  cases act s <;> rfl

/-- An answer changes nothing. -/
theorem ends_pure {a : β} : Ends (pure a) s Q E ↔ Q a s := Iff.rfl

/-- Looking at the state changes nothing. -/
theorem ends_current {Q : σ → Logged σ → Prop} : Ends current s Q E ↔ Q s.state s := Iff.rfl

/-- A state is put in place. -/
theorem ends_replace {t : σ} {Q : Unit → Logged σ → Prop} :
    Ends (replace t) s Q E ↔ Q () ⟨t, s.journal⟩ := Iff.rfl

/-- A state is changed by a function. -/
theorem ends_change {f : σ → σ} {Q : Unit → Logged σ → Prop} :
    Ends (change f) s Q E ↔ Q () ⟨f s.state, s.journal⟩ := Iff.rfl

/-- An event comes to the end of the journal. -/
theorem ends_log {e : Event} {Q : Unit → Logged σ → Prop} :
    Ends (log e) s Q E ↔ Q () ⟨s.state, s.journal.push e⟩ := Iff.rfl

/-- A result that was computed is the answer, or the failure. -/
theorem ends_ofExcept {x : Except Failure β} :
    Ends (ofExcept x) s Q E ↔ match x with | .ok a => Q a s | .error f => E f s := by
  cases x <;> rfl

/-- An action on a part of the state changes that part alone. -/
theorem ends_within {part : τ → σ} {put : σ → τ → τ} {act : Action σ β} {t : Logged τ}
    {Q : β → Logged τ → Prop} {E : Failure → Logged τ → Prop} :
    Ends (within part put act) t Q E ↔
      Ends act ⟨part t.state, t.journal⟩ (fun a s => Q a ⟨put s.state t.state, s.journal⟩)
        (fun f s => E f ⟨put s.state t.state, s.journal⟩) := by
  unfold Ends within
  cases act ⟨part t.state, t.journal⟩ <;> rfl

/-- An attempt turns a failure into an answer, and the state stays changed. -/
theorem ends_attempt {act : Action σ α} {Q : Except Failure α → Logged σ → Prop} :
    Ends (attempt act) s Q E ↔ Ends act s (fun a t => Q (.ok a) t)
    (fun f t => Q (.error f) t) := by
  unfold Ends attempt
  cases act s <;> rfl

/-- An action that answers ends well if the answer and the state are as they should be. -/
theorem Ends.of_ok {act : Action σ β} {a : β} {t : Logged σ} (h : act s = .ok a t) (hQ : Q a t) :
    Ends act s Q E := by
  unfold Ends
  rw [h]
  exact hQ

/-- An action that breaks off ends well if the failure and the state are as they should be. -/
theorem Ends.of_error {act : Action σ β} {f : Failure} {t : Logged σ} (h : act s = .error f t)
    (hE : E f t) : Ends act s Q E := by
  unfold Ends
  rw [h]
  exact hE

/-- The only end of an action is the answer it gives. -/
theorem ends_eq_ok {act : Action σ β} {a : β} {t : Logged σ} :
    Ends act s (fun b u => b = a ∧ u = t) (fun _ _ => False) ↔ act s = .ok a t := by
  unfold Ends
  cases act s <;> simp

/-- The only end of an action is the failure it breaks off with. -/
theorem ends_eq_error {act : Action σ β} {f : Failure} {t : Logged σ} :
    Ends act s (fun _ _ => False) (fun g u => g = f ∧ u = t) ↔ act s = .error f t := by
  unfold Ends
  cases act s <;> simp

/-- Every action ends somehow. -/
theorem Ends.any (act : Action σ β) (s : Logged σ) :
    Ends act s (fun _ _ => True) (fun _ _ => True) := by
  unfold Ends
  split <;> trivial

/-- Both conditions can be weakened. -/
theorem Ends.mono {act : Action σ β} {Q' : β → Logged σ → Prop} {E' : Failure → Logged σ → Prop}
    (h : Ends act s Q E) (hQ : ∀ a t, Q a t → Q' a t) (hE : ∀ f t, E f t → E' f t) :
    Ends act s Q' E' := by
  unfold Ends at *
  split
  · next ha => rw [ha] at h; exact hQ _ _ h
  · next ha => rw [ha] at h; exact hE _ _ h

/-- The condition on answers can be weakened. -/
theorem Ends.imp {act : Action σ β} {Q' : β → Logged σ → Prop} (h : Ends act s Q E)
    (hQ : ∀ a t, Q a t → Q' a t) : Ends act s Q' E := h.mono hQ fun _ _ hf => hf

/-- What is said of the ends of an action in two ways is said of them at once. -/
theorem Ends.and {act : Action σ β} {Q' : β → Logged σ → Prop} {E' : Failure → Logged σ → Prop}
    (h : Ends act s Q E) (h' : Ends act s Q' E') :
    Ends act s (fun a t => Q a t ∧ Q' a t) (fun f t => E f t ∧ E' f t) := by
  unfold Ends at *
  cases heq : act s <;> rw [heq] at h h' <;> exact ⟨h, h'⟩

/-- What is said of the ends of an action under an assumption. -/
theorem Ends.assuming {act : Action σ β} {p : Prop} (h : p → Ends act s Q E) :
    Ends act s (fun a t => p → Q a t) (fun f t => p → E f t) := by
  unfold Ends at *
  cases heq : act s <;> rw [heq] at h <;> exact h

/-- The state in which an action ends, whether it answers or breaks off. -/
def endState (act : Action σ α) (s : Logged σ) : Logged σ :=
  match act s with
  | .ok _ t => t
  | .error _ t => t

/-- What is said of all ends of an action holds of the state in which it ends. -/
theorem Ends.endState {act : Action σ α} {P : Logged σ → Prop}
    (h : Ends act s (fun _ t => P t) (fun _ t => P t)) : P (endState act s) := by
  unfold Ends at h
  unfold Action.endState
  cases heq : act s <;> rwa [heq] at h

/-- An action ends somewhere. -/
theorem Ends.exists_end {act : Action σ β} {P : Logged σ → Prop}
    (h : Ends act s (fun _ t => P t) (fun _ t => P t)) : ∃ t, P t := ⟨_, h.endState⟩

/-- An action that does not break off answers. -/
theorem Ends.exists_ok {act : Action σ β} (h : Ends act s Q (fun _ _ => False)) :
    ∃ a t, act s = .ok a t ∧ Q a t := by
  unfold Ends at h
  split at h
  · next heq => exact ⟨_, _, heq, h⟩
  · exact h.elim

/-- What is said of the ends of an action holds of its answer. -/
theorem Ends.answered {act : Action σ β} {a : β} {t : Logged σ} (h : Ends act s Q E)
    (heq : act s = .ok a t) : Q a t := by
  unfold Ends at h
  rwa [heq] at h

/-- How the action ends may be used in saying so. -/
theorem Ends.actual {act : Action σ β} (h : Ends act s Q E) :
    Ends act s (fun a t => act s = .ok a t ∧ Q a t) (fun f t => act s = .error f t ∧ E f t) := by
  unfold Ends at *
  cases heq : act s <;> rw [heq] at h <;> exact ⟨rfl, h⟩

/-- The action leads from one state to another, with an answer, or with none if it breaks off. -/
def Leads (act : Action σ α) (a : σ) (answer : Option α) (b : σ) : Prop :=
  ∃ j, Ends act ⟨a, j⟩ (fun x t => answer = some x ∧ t.state = b)
    (fun _ t => answer = none ∧ t.state = b)

/-- What is said of all ends of an action holds where it leads. -/
theorem Leads.of_ends {act : Action σ α} {a b : σ} {answer : Option α} {P : Option α → σ → Prop}
    (h : Leads act a answer b)
    (hends : ∀ j, Ends act ⟨a, j⟩ (fun x t => P (some x) t.state) (fun _ t => P none t.state)) :
    P answer b := by
  obtain ⟨j, h⟩ := h
  have hends := hends j
  unfold Ends at h hends
  split at h
  · next heq =>
    obtain ⟨rfl, rfl⟩ := h
    rwa [heq] at hends
  · next heq =>
    obtain ⟨rfl, rfl⟩ := h
    rwa [heq] at hends

/-- Every end of an action is led to. -/
theorem ends_leads (act : Action σ α) (s : Logged σ) :
    Ends act s (fun x t => Leads act s.state (some x) t.state)
      (fun _ t => Leads act s.state none t.state) := by
  have hself : Ends act s (fun x t => act s = .ok x t) (fun f t => act s = .error f t) := by
    unfold Ends
    split <;> assumption
  refine hself.mono ?_ ?_
  · exact fun x t h => ⟨s.journal, .of_ok h ⟨rfl, rfl⟩⟩
  · exact fun f t h => ⟨s.journal, .of_error h ⟨rfl, rfl⟩⟩

/-- Putting actions in sequence: the first ends in the states from which the second is proved. -/
theorem Ends.bind {act : Action σ α} {next : α → Action σ β} {P : α → Logged σ → Prop}
    (h : Ends act s P E) (hnext : ∀ a t, P a t → Ends (next a) t Q E) :
    Ends (act >>= next) s Q E := by
  rw [ends_bind]
  exact h.mono hnext fun _ _ hf => hf

/-- What follows an action matters only where the action ends. -/
theorem Ends.bind_congr {act : Action σ α} {next next' : α → Action σ β}
    (h : Ends act s (fun a t => next a t = next' a t) (fun _ _ => True)) :
    (act >>= next) s = (act >>= next') s := by
  show EStateM.bind act next s = EStateM.bind act next' s
  unfold Ends at h
  unfold EStateM.bind
  cases ha : act s with
  | ok a t =>
    rw [ha] at h
    exact h
  | error f t => rfl

/-- Actions that do the same from here are followed up in the same way. -/
theorem bind_apply_congr {act act' : Action σ α} (h : act s = act' s) (next : α → Action σ β) :
    (act >>= next) s = (act' >>= next) s := by
  show EStateM.bind act next s = EStateM.bind act' next s
  unfold EStateM.bind
  rw [h]

/-- Running an action on each element of a list keeps what each single run keeps. -/
theorem Ends.forM {γ : Type} {act : γ → Action σ PUnit} {P : List γ → Logged σ → Prop}
    (hstep : ∀ c rest t, P (c :: rest) t → Ends (act c) t (fun _ u => P rest u) E) :
    ∀ {l : List γ} {t : Logged σ}, P l t → Ends (l.forM act) t (fun _ u => P [] u) E
  | [], _, h => h
  | c :: rest, t, h => by
    show Ends (act c >>= fun _ => rest.forM act) t _ E
    exact (hstep c rest t h).bind fun _ u hu => Ends.forM hstep hu

/-- Carries out an action for each call of a list, the first first, and answers with all
answers. -/
def inTurn {γ : Type} (act : γ → Action σ α) : List γ → Action σ (List α)
  | [] => pure []
  | c :: rest => do
    let a ← act c
    let answers ← inTurn act rest
    return a :: answers

/-- The calls of two lists, one list after the other. -/
theorem ends_inTurn_append {γ : Type} {act : γ → Action σ α} {calls calls' : List γ}
    {Q : List α → Logged σ → Prop} : Ends (inTurn act (calls ++ calls')) s Q E ↔
    Ends (inTurn act calls) s
      (fun answers t => Ends (inTurn act calls') t (fun more u => Q (answers ++ more) u) E) E := by
  induction calls generalizing s Q with
  | nil => rfl
  | cons c rest ih => simp only [List.cons_append, inTurn, ends_bind, ends_pure, ih]

/-- The last call of a list comes after the others. -/
theorem ends_inTurn_concat {γ : Type} {act : γ → Action σ α} {calls : List γ} {c : γ}
    {Q : List α → Logged σ → Prop} : Ends (inTurn act (calls ++ [c])) s Q E ↔
    Ends (inTurn act calls) s
      (fun answers t => Ends (act c) t (fun a u => Q (answers ++ [a]) u) E) E := by
  simp only [ends_inTurn_append, inTurn, ends_bind, ends_pure]

/-- What holds of no calls and is kept by each call after those before it holds of all calls. -/
theorem Ends.inTurn {γ : Type} {act : γ → Action σ α} {P : List γ → List α → Logged σ → Prop}
    (h : P [] [] s) {calls : List γ}
    (hstep : ∀ pre c answers t, pre ++ [c] <+: calls → Action.inTurn act pre s = .ok answers t →
      P pre answers t → Ends (act c) t (fun a u => P (pre ++ [c]) (answers ++ [a]) u) E) :
    Ends (Action.inTurn act calls) s (P calls) E := by
  induction calls using List.reverseRecOn with
  | nil => exact h
  | append_singleton calls c ih =>
    have hcalls := ih fun pre c' answers t hpre => hstep pre c' answers t
      (hpre.trans (List.prefix_append _ _))
    rw [ends_inTurn_concat]
    exact hcalls.actual.mono
      (fun answers t ht => hstep calls c answers t (List.prefix_refl _) ht.1 ht.2)
      fun _ _ hf => hf.2

/-- After calls that were answered, the last call ends where all calls do. -/
theorem endState_concat {γ : Type} {act : γ → Action σ α} {calls : List γ} {c : γ}
    {answers : List α} {t : Logged σ} (h : inTurn act calls s = .ok answers t) :
    endState (inTurn act (calls ++ [c])) s = endState (act c) t := by
  refine Ends.endState (P := fun u => u = endState (act c) t) (ends_inTurn_concat.2 (.of_ok h ?_))
  unfold Ends endState
  cases act c t <;> rfl

end Bourse.Action

namespace Bourse

/-- The journal has no errors. -/
def Spotless (journal : Array Event) : Prop := ∀ e ∈ journal, e.severity ≠ .error

/-- A journal stays spotless as what is no error comes to it. -/
theorem Spotless.push {journal : Array Event} (h : Spotless journal) {e : Event}
    (he : e.severity ≠ .error) : Spotless (journal.push e) := by
  intro e' he'
  rcases Array.mem_push.1 he' with he' | rfl
  · exact h e' he'
  · exact he

end Bourse
