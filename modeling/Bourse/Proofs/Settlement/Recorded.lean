import Bourse.Proofs.Ends
import Bourse.Proofs.Mirrors

/-!
# Settlement with a record of its calls

`Settlement.recorded` lets a settlement keep a `Transcript`: every call, with the table of orders
before it, and for a fill also the answer and the table after it. A call that breaks off is
recorded too.

The record makes no difference to what is settled (`Settlement.mirrors_recorded`), so what a
transcript says of a book holds of the book without it. The transcript tells the reports of
settlement that are not true: of which orders a fill said that they were finished while they were
not (`Transcript.Misreported`).
-/

namespace Bourse

open Bourse.Action

/-- A call of settlement to fill a pair. -/
structure FillCall where
  ask : OrderRef
  bid : OrderRef
  price : Price
  quantity : Quantity
  before : Orders
  /-- The answer; nothing if the call broke off. -/
  outcome : Option FillOutcome
  after : Orders

namespace FillCall

/-- The trade that settlement answered with. -/
def trade? (c : FillCall) : Option Trade := c.outcome.bind (·.trade)

/-- Settlement answered that the order of the pair is finished. -/
def Finishes (c : FillCall) (r : OrderRef) : Prop :=
  ∃ out, c.outcome = some out ∧
    (c.ask = r ∧ out.ask.isDone = true ∨ c.bid = r ∧ out.bid.isDone = true)

end FillCall

/-- A call of settlement. -/
inductive Entry where
  | fill (c : FillCall)
  /-- A stop-loss was reported that became active, with the orders of that moment. -/
  | triggered (r : OrderRef) (orders : Orders)

/-- The calls of settlement, the first first. -/
abbrev Transcript : Type := List Entry

namespace Transcript

/-- Settlement answered some time that the order is finished. -/
def Finished (log : Transcript) (r : OrderRef) : Prop := ∃ c, .fill c ∈ log ∧ c.Finishes r

/-- Settlement answered some time that the order is finished, and left it open. -/
def Misreported (log : Transcript) (r : OrderRef) : Prop :=
  ∃ c, .fill c ∈ log ∧ c.Finishes r ∧ (c.after.get r).isOpen = true

/-- The calls to fill a pair, the first first. -/
def fills (log : Transcript) : List FillCall :=
  log.filterMap fun
    | .fill c => some c
    | .triggered _ _ => none

/-- The stop-losses that were reported, the first first. -/
def reported (log : Transcript) : List OrderRef :=
  log.filterMap fun
    | .fill _ => none
    | .triggered r _ => some r

variable {log log' : Transcript} {r : OrderRef} {c : FillCall}

@[simp] theorem mem_fills : c ∈ log.fills ↔ .fill c ∈ log := by
  unfold fills
  rw [List.mem_filterMap]
  constructor
  · rintro ⟨e | e, he, heq⟩
    · cases heq
      exact he
    · cases heq
  · exact fun hc => ⟨_, hc, rfl⟩

/-- A fill is the last of the fills. -/
theorem fills_snoc_fill (log : Transcript) (c : FillCall) :
    fills (log ++ [.fill c]) = log.fills ++ [c] := by
  simp [fills]

/-- A stop-loss that is noted is no fill. -/
theorem fills_snoc_triggered (log : Transcript) (r : OrderRef) (os : Orders) :
    fills (log ++ [.triggered r os]) = log.fills := by
  simp [fills]

/-- A fill reports no stop-loss. -/
theorem reported_snoc_fill (log : Transcript) (c : FillCall) :
    reported (log ++ [.fill c]) = log.reported := by
  simp [reported]

/-- A stop-loss that is noted is the last reported. -/
theorem reported_snoc_triggered (log : Transcript) (r : OrderRef) (os : Orders) :
    reported (log ++ [.triggered r os]) = log.reported ++ [r] := by
  simp [reported]

/-- What two records report one after the other. -/
theorem reported_append (log log' : Transcript) :
    reported (log ++ log') = log.reported ++ log'.reported := List.filterMap_append

theorem Misreported.mono (h : log.Misreported r) (hp : log <+: log') : log'.Misreported r := by
  obtain ⟨c, hc, hr⟩ := h
  exact ⟨c, hp.subset hc, hr⟩

end Transcript

/-- A backend with the record of the calls of its settlement. -/
structure Recorded (σ : Type) where
  inner : σ
  transcript : Transcript

variable {σ α : Type}

namespace Office

/-- The office without the record. -/
def forget (o : Office (Recorded σ)) : Office σ := o.seen (·.inner)

/-- The office that another one without record has become, after one more call. -/
def written (o : Office (Recorded σ)) (e : Entry) (o' : Office σ) : Office (Recorded σ) :=
  ⟨o'.orders, o'.backend, o.backend.transcript ++ [e]⟩

end Office

/-- The settlement with a record of its calls. -/
def Settlement.recorded (S : Settlement σ) : Settlement (Recorded σ) where
  fill ask bid price q := do
    let o ← Action.current
    let answer ← Action.attempt (Office.withinBackend (·.inner) (fun b r => { r with inner := b })
      (S.fill ask bid price q))
    let o' ← Action.current
    Action.replace (o.written
      (.fill ⟨ask, bid, price, q, o.orders, answer.toOption, o'.orders⟩) o'.forget)
    Action.ofExcept answer
  stopLossTriggered r := do
    let o ← Action.current
    Action.replace (o.written (.triggered r o.orders) o.forget)
    Office.withinBackend (·.inner) (fun b r => { r with inner := b }) (S.stopLossTriggered r)
  patience b := S.patience b.inner

namespace Settlement

variable {S : Settlement σ} {s : Logged (Office (Recorded σ))} {ask bid r : OrderRef}
  {price : Price} {q : Quantity}

/-- A fill is recorded, also one that breaks off. -/
theorem ends_fill_recorded {Q : FillOutcome → Logged (Office (Recorded σ)) → Prop}
    {E : Failure → Logged (Office (Recorded σ)) → Prop} :
    Ends (S.recorded.fill ask bid price q) s Q E ↔
      Ends (S.fill ask bid price q) ⟨s.state.forget, s.journal⟩
        (fun out t => Q out ⟨s.state.written
          (.fill ⟨ask, bid, price, q, s.state.orders, some out, t.state.orders⟩) t.state,
          t.journal⟩)
        (fun f t => E f ⟨s.state.written
          (.fill ⟨ask, bid, price, q, s.state.orders, none, t.state.orders⟩) t.state,
          t.journal⟩) := by
  simp only [recorded, Office.withinBackend, ends_bind, ends_current, ends_attempt, ends_within,
    ends_replace, ends_ofExcept]
  rfl

/-- The report of a stop-loss is recorded before it is made. -/
theorem ends_stopLossTriggered_recorded {Q : Unit → Logged (Office (Recorded σ)) → Prop}
    {E : Failure → Logged (Office (Recorded σ)) → Prop} :
    Ends (S.recorded.stopLossTriggered r) s Q E ↔
      Ends (S.stopLossTriggered r) ⟨s.state.forget, s.journal⟩
        (fun _ t => Q () ⟨s.state.written (.triggered r s.state.orders) t.state, t.journal⟩)
        (fun f t => E f ⟨s.state.written (.triggered r s.state.orders) t.state, t.journal⟩) := by
  simp only [recorded, Office.withinBackend, ends_bind, ends_current, ends_within, ends_replace]
  rfl

/-- Without the record, settlement does what it did. -/
theorem mirrors_recorded (S : Settlement σ) : S.recorded.Mirrors Recorded.inner S where
  fill ask bid price q := by
    intro t
    show _ = S.fill ask bid price q ⟨t.state.forget, t.journal⟩
    cases h : S.fill ask bid price q ⟨t.state.forget, t.journal⟩ with
    | ok out u => rw [ends_eq_ok.1 (ends_fill_recorded.2 (.of_ok h ⟨rfl, rfl⟩))]; rfl
    | error f u => rw [ends_eq_error.1 (ends_fill_recorded.2 (.of_error h ⟨rfl, rfl⟩))]; rfl
  stopLossTriggered r := by
    intro t
    show _ = S.stopLossTriggered r ⟨t.state.forget, t.journal⟩
    cases h : S.stopLossTriggered r ⟨t.state.forget, t.journal⟩ with
    | ok out u => rw [ends_eq_ok.1 (ends_stopLossTriggered_recorded.2 (.of_ok h ⟨rfl, rfl⟩))]; rfl
    | error f u =>
      rw [ends_eq_error.1 (ends_stopLossTriggered_recorded.2 (.of_error h ⟨rfl, rfl⟩))]; rfl
  patience _ := rfl

end Settlement

end Bourse
