import Bourse.Engine.Bootstrap
import Bourse.Proofs.Book.Rules
import Bourse.Settlement.Simulated

/-!
# Runs of an engine

A run of an engine with simulated settlement is a sequence of `Operation`s, to the engine itself
and to settlement, on a table of orders that nobody else writes. It goes on also after an operation
broke off.

`Exchange.Rules` carries over to engines what all single things that a book does have in common: if
these lead to related offices then so does all that the engine does.
-/

namespace Bourse

open Bourse.Action

/-- What is asked of an engine and its settlement from outside. -/
inductive Operation where
  /-- The engine is brought up. -/
  | bootstrap (source : OrderSource) (history : Nat)
  /-- An order is handed in. -/
  | submit (side : Side) (r : OrderRef)
  /-- The depth of an order is taken away. -/
  | withdraw (side : Side) (r : OrderRef)
  /-- Settlement cancels an order. -/
  | cancel (r : OrderRef)
  /-- A user is flagged as unable to settle. -/
  | reject (u : UserId)
  /-- Time passes. -/
  | tick (now : Timestamp)
  /-- Everything submitted is waited for. -/
  | flush
  /-- The books are stopped. -/
  | shutdown

namespace Exchange

variable {σ α : Type}

/-- An order as it is now. -/
def order (x : Exchange σ) (r : OrderRef) : Order := x.office.orders.get r

/-- Runs an action on the office. -/
def onOffice (act : Action (Office σ) α) : Action (Exchange σ) α :=
  act.within (·.office) fun o x => { x with office := o }

/-- An engine that has not been brought up, on a table of orders. -/
def opening (config : EngineConfig) (os : Orders) : Logged (Exchange Simulated) :=
  ⟨.empty ⟨os, .empty⟩ config, #[]⟩

/-- Carries out an action, also if it breaks off. -/
def perform (act : Action (Exchange σ) α) (x : Logged (Exchange σ)) : Logged (Exchange σ) :=
  match act x with
  | .ok _ y | .error _ y => y

/-- Carries out an operation. -/
def apply (x : Logged (Exchange Simulated)) : Operation → Logged (Exchange Simulated)
  | .bootstrap source history => perform (bootstrap Simulated.settlement source history) x
  | .submit side r => perform (submit Simulated.settlement side r) x
  | .withdraw side r => perform (withdraw side r) x
  | .cancel r => perform (onOffice (Office.onOrders (Orders.cancel r))) x
  | .reject u => perform (onOffice (Office.onBackend (Action.change (·.reject u)))) x
  | .tick now => perform (onOffice (Office.onBackend (Action.change ({ · with now })))) x
  | .flush => perform flush x
  | .shutdown => perform shutdown x

/-- Carries out operations, the first first. -/
def run (x : Logged (Exchange Simulated)) (operations : List Operation) :
    Logged (Exchange Simulated) :=
  operations.foldl apply x

/-- Operations of two lists are carried out one list after the other. -/
theorem run_append (x : Logged (Exchange Simulated)) (operations operations' : List Operation) :
    run x (operations ++ operations') = run (run x operations) operations' := List.foldl_append

/-- What all ends of an action have in common holds of the engine afterwards. -/
theorem perform_of_ends {act : Action (Exchange σ) α} {x : Logged (Exchange σ)}
    {P : Logged (Exchange σ) → Prop} (h : Ends act x (fun _ y => P y) (fun _ y => P y)) :
    P (perform act x) := by
  unfold Ends at h
  unfold perform
  cases heq : act x <;> rw [heq] at h <;> exact h

/-! ## What everything that an engine does has in common -/

/-- What a book does leads to a related office. -/
structure Rules (S : Settlement σ) (R : Office σ → Office σ → Prop) : Prop extends Chains R where
  book : Desk.Rules S fun d d' => R d.office d'.office

variable {S : Settlement σ} {R : Office σ → Office σ → Prop}

/-- The action leads to a related office. -/
abbrev Respects (R : Office σ → Office σ → Prop) (act : Action (Exchange σ) α) : Prop :=
  Action.Respects (fun x x' => R x.office x'.office) act

/-- What chains for offices chains for engines. -/
theorem chains_office (h : Chains R) : Chains fun x x' : Exchange σ => R x.office x'.office :=
  ⟨fun x => h.refl x.office, h.trans⟩

/-- What is done on one book leads to a related office. -/
theorem respects_onBook {act : Action (Desk σ) α} (b : Book)
    (h : Action.Respects (fun d d' => R d.office d'.office) act) : Respects R (onBook b act) :=
  .within fun t => h ⟨⟨t.state.office, b⟩, t.journal⟩

namespace Rules

variable (h : Rules S R)

include h

/-- Visiting books in turn leads to a related office, by induction on their list. -/
theorem visitBooks {act : Action (Desk σ) (Except EngineError α)}
    (hact : Action.Respects (fun d d' => R d.office d'.office) act) (books : List Book) :
    Respects R (visitBooks act books) := by
  have hR := chains_office h.toChains
  induction books with
  | nil => exact .pure hR _
  | cons b rest ih =>
    refine (respects_onBook b hact).bind hR ?_
    rintro (e | a)
    · exact .pure hR _
    · exact ih

/-- An order that is routed to its book leads to a related office. -/
theorem route {act : Action (Desk σ) (Except EngineError α)} (r : OrderRef)
    (hact : Action.Respects (fun d d' => R d.office d'.office) act) :
    Respects R (route r act) := by
  refine Action.Respects.current fun x => ?_
  dsimp only
  split
  · exact respects_onBook _ hact
  · exact .pure (chains_office h.toChains) _

/-- Handing in an order leads to a related office. -/
theorem submit (side : Side) (r : OrderRef) : Respects R (submit S side r) :=
  h.route r h.book.submit

/-- Withdrawing an order leads to a related office. -/
theorem withdraw (side : Side) (r : OrderRef) :
    Respects R (withdraw side r : Action (Exchange σ) _) :=
  h.route r h.book.withdraw

/-- Waiting for all books leads to a related office. -/
theorem flush : Respects R (flush : Action (Exchange σ) _) :=
  Action.Respects.current fun x => h.visitBooks h.book.flush x.books

/-- Stopping all books leads to a related office. -/
theorem shutdown : Respects R (shutdown : Action (Exchange σ) _) := by
  have hR := chains_office h.toChains
  refine Action.Respects.current fun x => (h.visitBooks h.book.shutdown x.books).bind hR ?_
  rintro (e | ⟨⟩)
  · exact .pure hR _
  · exact (Action.Respects.log hR _).bind hR fun _ => .pure hR _

/-! ## Bootstrap -/

/-- Loading orders leads to a related office, by induction on their list. -/
theorem loadOrders (rs : List OrderRef) : Respects R (loadOrders rs : Action (Exchange σ) _) := by
  have hR := chains_office h.toChains
  induction rs with
  | nil => exact .pure hR _
  | cons r rest ih =>
    refine Action.Respects.current fun x => ?_
    dsimp only
    split
    · exact (Action.Respects.log hR _).bind hR fun _ => ih
    · refine (respects_onBook _ h.book.load).bind hR ?_
      rintro (e | ⟨⟩)
      · exact .pure hR _
      · exact ih

/-- Replaying the trades of each book leads to a related office, by induction on their list. -/
theorem loadTrades (source : OrderSource) (books : List Book) :
    Respects R (loadTrades source books : Action (Exchange σ) _) := by
  have hR := chains_office h.toChains
  induction books with
  | nil => exact .pure hR _
  | cons b rest ih =>
    refine Action.Respects.current fun x => ?_
    split
    · exact .pure hR _
    · exact (respects_onBook b (h.book.loadTrades (fun d _ => h.refl d.office) _)).bind hR
        fun _ => ih

/-- Starting books in turn leads to a related office, by induction on their list. -/
theorem startBooks (books : List Book) : Respects R (startBooks S books) := by
  have hR := chains_office h.toChains
  induction books with
  | nil => exact .pure hR _
  | cons b rest ih =>
    exact (respects_onBook b h.book.start).bind hR fun _ => ih.bind hR fun _ => .pure hR _

/-- Starting all books leads to a related office. -/
theorem startAll : Respects R (startAll S) := by
  have hR := chains_office h.toChains
  refine Action.Respects.current fun x => (h.startBooks x.books).bind hR ?_
  rintro (_ | e)
  · exact Action.Respects.current fun _ => (Action.Respects.log hR _).bind hR fun _ => .pure hR _
  · refine (Action.Respects.log hR _).bind hR fun _ => h.shutdown.bind hR ?_
    rintro (e' | ⟨⟩) <;> exact .pure hR _

/-- Bringing up an engine leads to a related office. -/
theorem bootstrap (source : OrderSource) (history : Nat) :
    Respects R (bootstrap S source history) := by
  have hR := chains_office h.toChains
  unfold Exchange.bootstrap
  split
  · exact .pure hR _
  · next instruments _ =>
    have hbooks : Respects R (Action.change fun x : Exchange σ =>
        { x with books := makeBooks x.config history instruments }) := fun t =>
          h.refl t.state.office
    refine hbooks.bind hR fun _ => Action.Respects.current fun x => ?_
    split
    · exact .pure hR _
    · exact .pure hR _
    · refine (Action.Respects.log hR _).bind hR fun _ => (h.loadOrders _).bind hR ?_
      rintro (e | ⟨⟩)
      · exact .pure hR _
      · refine Action.Respects.current fun y => (h.loadTrades source y.books).bind hR ?_
        rintro (e | ⟨⟩)
        · exact .pure hR _
        · exact h.startAll

end Rules

end Exchange

end Bourse
