import Bourse.Event
import Bourse.Failure

/-!
# Actions

An `Action σ α` works on a state `σ`, writes events into the journal and either answers with an `α`
or is broken off by a failure. The state and the journal it had reached are there in both cases
(`Logged`): a failure takes nothing back.

An action on a part of a state is run on the whole by `Action.within`; `Action.attempt` turns the
failure of an action into an answer.
-/

namespace Bourse

/-- A state with the journal of the events that led to it, the oldest first. -/
structure Logged (σ : Type) where
  state : σ
  journal : Array Event

/-- A step of the exchange on a state of type `σ`. -/
abbrev Action (σ : Type) : Type → Type := EStateM Failure (Logged σ)

namespace Action

variable {σ τ α : Type}

/-- The state. -/
def current : Action σ σ := fun s => .ok s.state s

/-- Puts another state in place. -/
def replace (t : σ) : Action σ Unit := fun s => .ok () { s with state := t }

/-- Changes the state. -/
def change (f : σ → σ) : Action σ Unit := fun s => .ok () { s with state := f s.state }

/-- Writes an event into the journal. -/
def log (e : Event) : Action σ Unit := fun s => .ok () { s with journal := s.journal.push e }

/-- Breaks off. -/
def fail (f : Failure) : Action σ α := fun s => .error f s

/-- The answer of a computation that may fail. -/
def ofExcept : Except Failure α → Action σ α
  | .ok a => pure a
  | .error f => fail f

/-- Runs an action on a part of the state. What it reached is put back also if it fails. -/
def within (part : τ → σ) (put : σ → τ → τ) (act : Action σ α) : Action τ α := fun t =>
  match act ⟨part t.state, t.journal⟩ with
  | .ok a s => .ok a ⟨put s.state t.state, s.journal⟩
  | .error f s => .error f ⟨put s.state t.state, s.journal⟩

/-- Runs an action and answers with its failure if it fails. -/
def attempt (act : Action σ α) : Action σ (Except Failure α) := fun s =>
  match act s with
  | .ok a t => .ok (.ok a) t
  | .error f t => .ok (.error f) t

end Action

end Bourse
