import Bourse.Proofs.Book.Ended
import Bourse.Proofs.Engine.Visits

/-!
# Refused calls

A book refuses an order that is on another side than the call is for; it also refuses to match once
it has ended, and to be started again (`Desk.refusal?`). An engine refuses an order of an
instrument that it has no book for, and passes every other call on (`Exchange.refusal?`). A call is
refused for these reasons and no others, and a refused call leaves everything as it was
(`Action.Refuses`), whatever the state.

A submission that waits for the start of the book may be refused later, when matching breaks off
before its turn comes. The start then goes as if it had not been handed in
(`Desk.exists_start_waiting`).
-/

namespace Bourse

open Bourse.Action

variable {σ τ α : Type} {S : Settlement σ}

namespace Action

/-- The action answers with an error just in case it is this refusal, and changes nothing then. -/
def Refuses (act : Action τ (Except EngineError α)) (s : Logged τ) (refusal : Option EngineError) :
    Prop :=
  ∀ e t, act s = .ok (.error e) t ↔ refusal = some e ∧ t = s

variable {act : Action τ (Except EngineError α)} {s : Logged τ} {refusal : Option EngineError}

/-- An action that answers with an error and changes nothing refuses. -/
theorem Refuses.of_refused {e : EngineError} (h : act s = .ok (.error e) s) :
    Refuses act s (some e) := by
  intro e' t
  rw [h]
  constructor
  · intro heq
    cases heq
    exact ⟨rfl, rfl⟩
  · rintro ⟨heq, rfl⟩
    rw [Option.some.inj heq]

/-- An action that answers with something else takes the call. -/
theorem Refuses.of_taken (h : Ends act s (fun answer _ => ∃ a, answer = .ok a) (fun _ _ => True)) :
    Refuses act s none := by
  refine fun e t => ⟨fun heq => ?_, ?_⟩
  · obtain ⟨a, ha⟩ := h.answered heq
    cases ha
  · rintro ⟨⟨⟩, -⟩

/-- What a part refuses the whole refuses, if the part is put back where it was. -/
theorem Refuses.within {part : σ → τ} {put : τ → σ → σ} {x : Logged σ}
    (h : Refuses act ⟨part x.state, x.journal⟩ refusal)
    (hput : put (part x.state) x.state = x.state) :
    Refuses (Action.within part put act) x refusal := by
  intro e y
  unfold Action.within
  cases hact : act ⟨part x.state, x.journal⟩ with
  | error f t =>
    refine ⟨nofun, fun hy => ?_⟩
    cases hact.symm.trans ((h e _).2 ⟨hy.1, rfl⟩)
  | ok answer t =>
    constructor
    · intro heq
      cases heq
      obtain ⟨hrefusal, rfl⟩ := (h e t).1 hact
      exact ⟨hrefusal, by rw [hput]⟩
    · rintro ⟨hrefusal, rfl⟩
      cases hact.symm.trans ((h e _).2 ⟨hrefusal, rfl⟩)
      simp only [hput]

end Action

/-! ## Calls to a book -/

/-- A call to a book that it may refuse. -/
inductive BookCall where
  | submit (side : Side) (r : OrderRef)
  | withdraw (side : Side) (r : OrderRef)
  | load (side : Side) (r : OrderRef)
  | start

/-- The answer to a start. One that broke off was not refused. -/
def StartResult.answer : StartResult → Except EngineError Receipt
  | refused e => .error e
  | started | broken _ => .ok .done

namespace Desk

/-- Carries out a call. -/
def serve (S : Settlement σ) : BookCall → Action (Desk σ) (Except EngineError Receipt)
  | .submit side r => submit S side r
  | .withdraw side r => do return (← withdraw side r).map fun _ => .done
  | .load side r => do return (← load side r).map fun _ => .done
  | .start => do return (← start S).result.answer

/-- The refusal of an order that is on another side than the call is for. -/
def sideError? (d : Desk σ) (side : Side) (r : OrderRef) : Option EngineError :=
  if (d.order r).side = side then none
  else some (.sideMismatch (d.order r).id side (d.order r).side)

/-- Why the book refuses a call, if it does. -/
def refusal? (d : Desk σ) : BookCall → Option EngineError
  | .submit side r => (d.sideError? side r).or <|
    if (d.order r).closed = false ∧ (d.order r).type ≠ .stopLoss ∧ d.book.phase.isEnded = true
    then some d.stoppedError else none
  | .withdraw side r | .load side r => d.sideError? side r
  | .start => if d.book.phase.stage = 0 then none else some (.alreadyStarted d.book.instrument)

/-- The call hands in a closed order, on the right side. -/
def PassesOver (d : Desk σ) : BookCall → Prop
  | .submit side r | .load side r => (d.order r).side = side ∧ (d.order r).closed = true
  | .withdraw _ _ | .start => False

variable {d : Desk σ} {j : Array Event} {side : Side} {r : OrderRef} {c : BookCall}

/-- The side that is expected raises no error. -/
theorem sideError?_of_eq (h : (d.order r).side = side) : d.sideError? side r = none := if_pos h

/-- Another side than expected is named in the error. -/
theorem sideError?_of_ne (h : (d.order r).side ≠ side) :
    d.sideError? side r = some (.sideMismatch (d.order r).id side (d.order r).side) := if_neg h

/-- The side of the order is looked at first, and nothing else is done if it is another one. -/
theorem ends_checkSide {Q : Option EngineError → Logged (Desk σ) → Prop} {E} :
    Ends (checkSide side r) ⟨d, j⟩ Q E ↔ Q (d.sideError? side r) ⟨d, j⟩ := Iff.rfl

/-- An order on another side is refused. -/
theorem serve_of_otherSide (h : (d.order r).side ≠ side) :
    ∀ c ∈ [BookCall.submit side r, .withdraw side r, .load side r], serve S c ⟨d, j⟩ =
      .ok (.error (.sideMismatch (d.order r).id side (d.order r).side)) ⟨d, j⟩ := by
  intro c hc
  simp only [List.mem_cons, List.not_mem_nil, or_false] at hc
  rcases hc with rfl | rfl | rfl <;>
  · refine ends_eq_ok.1 ?_
    simp only [serve, submit, withdraw, load, ends_bind, ends_checkSide, sideError?_of_ne h]
    exact ⟨rfl, rfl⟩

/-- A closed order is passed over. -/
theorem serve_of_passesOver (h : d.PassesOver c) :
    ∃ e, serve S c ⟨d, j⟩ = .ok (.ok .done) ⟨d, j.push e⟩ := by
  cases c with
  | submit side r =>
    refine ⟨.closedOrderIgnored d.book.instrument (d.order r).id, ends_eq_ok.1 ?_⟩
    simp only [serve, submit, ends_bind, ends_checkSide, sideError?_of_eq h.1,
      ends_current, if_pos h.2, ends_log]
    exact ⟨rfl, rfl⟩
  | load side r =>
    refine ⟨.closedOrderSkipped d.book.instrument (d.order r).id, ends_eq_ok.1 ?_⟩
    simp only [serve, load, ends_bind, ends_checkSide, sideError?_of_eq h.1,
      ends_current, if_pos h.2, ends_log]
    exact ⟨rfl, rfl⟩
  | withdraw side r => exact h.elim
  | start => exact h.elim

/-- A withdrawal is refused for a wrong side only. -/
theorem refuses_withdraw :
    Refuses (serve S (.withdraw side r)) ⟨d, j⟩ (d.refusal? (.withdraw side r)) := by
  rw [refusal?]
  by_cases hside : (d.order r).side = side
  · rw [sideError?_of_eq hside]
    refine .of_taken ?_
    simp only [serve, withdraw, ends_bind, ends_checkSide, sideError?_of_eq hside, ends_current]
    exact (Ends.any _ _).imp fun _ _ _ => ⟨_, rfl⟩
  · rw [sideError?_of_ne hside]
    exact .of_refused (serve_of_otherSide hside _ (by simp))

/-- A load is refused for a wrong side only. -/
theorem refuses_load : Refuses (serve S (.load side r)) ⟨d, j⟩ (d.refusal? (.load side r)) := by
  rw [refusal?]
  by_cases hside : (d.order r).side = side
  · rw [sideError?_of_eq hside]
    refine .of_taken ?_
    simp only [serve, load, ends_bind, ends_checkSide, sideError?_of_eq hside, ends_current]
    split
    · exact ⟨_, rfl⟩
    · rw [ends_bind]
      exact (Ends.any _ _).imp fun _ _ _ => ⟨_, rfl⟩
  · rw [sideError?_of_ne hside]
    exact .of_refused (serve_of_otherSide hside _ (by simp))

/-- A start is refused if the book was started before. -/
theorem refuses_start : Refuses (serve S .start) ⟨d, j⟩ (d.refusal? .start) := by
  rw [refusal?]
  split
  · next hstage =>
    refine .of_taken ?_
    simp only [serve, start, ends_bind, ends_current]
    cases hp : d.book.phase with
    | waiting submissions =>
      simp only [ends_bind, ends_attempt]
      refine (Ends.any _ _).imp fun _ t _ => (Ends.any _ _).mono (fun _ u _ => ?_) fun _ u _ => ?_
      · simp only [enter, ends_changeBook, ends_log]
        exact (Ends.any _ _).imp fun _ _ _ => ⟨_, rfl⟩
      · exact (Ends.any _ _).imp fun _ _ _ => ⟨_, rfl⟩
    | running | crashed cause | stopped =>
      rw [hp] at hstage
      cases hstage
  · next hstage =>
    refine .of_refused (ends_eq_ok.1 ?_)
    simp only [serve, start, ends_bind, ends_current]
    cases hp : d.book.phase with
    | waiting submissions =>
      rw [hp] at hstage
      exact absurd rfl hstage
    | running | crashed cause | stopped => exact ⟨rfl, rfl⟩

/-- A submission is refused for a wrong side, or by a book that has ended. -/
theorem refuses_submit : Refuses (serve S (.submit side r)) ⟨d, j⟩
    (d.refusal? (.submit side r)) := by
  rw [refusal?]
  by_cases hside : (d.order r).side = side
  · rw [sideError?_of_eq hside, Option.none_or]
    split
    · next h =>
      obtain ⟨hopen, htype, hended⟩ := h
      refine .of_refused (ends_eq_ok.1 ?_)
      exact ends_submit_of_ended (s := ⟨d, j⟩) hended hside hopen htype
    · next h =>
      refine .of_taken ?_
      simp only [serve, submit, ends_bind, ends_checkSide, sideError?_of_eq hside, ends_current]
      split
      · exact ⟨_, rfl⟩
      next hopen =>
      split
      · rw [ends_bind]
        exact (Ends.any _ _).imp fun _ _ _ => ⟨_, rfl⟩
      next htype =>
      have hgoing : ¬ d.book.phase.isEnded = true := fun hended =>
        h ⟨Bool.eq_false_iff.2 hopen, htype, hended⟩
      cases hp : d.book.phase with
      | waiting submissions => exact ⟨_, rfl⟩
      | running =>
        rw [ends_bind]
        exact (Ends.any _ _).imp fun _ _ _ => ⟨_, rfl⟩
      | crashed cause | stopped =>
        rw [hp] at hgoing
        exact absurd rfl hgoing
  · rw [sideError?_of_ne hside, Option.some_or]
    exact .of_refused (serve_of_otherSide hside _ (by simp))

/-- A book refuses a call for a reason of its own only, and changes nothing then. -/
theorem refuses_serve (S : Settlement σ) (c : BookCall) (s : Logged (Desk σ)) :
    Refuses (serve S c) s (s.state.refusal? c) := by
  cases c with
  | submit side r => exact refuses_submit
  | withdraw side r => exact refuses_withdraw
  | load side r => exact refuses_load
  | start => exact refuses_start

/-! ## Submissions that are refused later -/

/-- The same answer to each of the submitters that are still there. -/
def answersTo (answer : Except EngineError Receipt) (submissions : List Submission) :
    List (Except EngineError Receipt) :=
  (submissions.filter (!·.abandoned)).map fun _ => answer

/-- Those who have given up get no answer. -/
theorem answersTo_cons (answer : Except EngineError Receipt) (sub : Submission)
    (rest : List Submission) : answersTo answer (sub :: rest) =
      if sub.abandoned then answersTo answer rest else answer :: answersTo answer rest := by
  cases habandoned : sub.abandoned <;> simp [answersTo, habandoned]

/-- The desk while its book waits with these submissions. -/
def waitingFor (d : Desk σ) (submissions : List Submission) : Desk σ :=
  { d with book := { d.book with phase := .waiting submissions } }

/-- Taking a submission does not break off, whether or not matching it does. -/
theorem exists_takeOne (S : Settlement σ) (sub : Submission) (s : Logged (Desk σ)) :
    ∃ t, takeOne S sub s = .ok () t ∧ t.state.book.instrument = s.state.book.instrument := by
  have hany : Ends (takeOne S sub) s (fun _ _ => True) (fun _ _ => False) := by
    simp only [takeOne, announce, ends_bind, ends_current]
    split
    · refine Ends.bind (P := fun _ _ => True) (by split <;> trivial) fun _ t _ => ?_
      simp only [runTask, ends_bind, ends_attempt]
      exact (Ends.any _ _).mono (fun _ _ _ => trivial) fun _ _ _ => trivial
    · trivial
  obtain ⟨_, t, ht, -⟩ := hany.exists_ok
  exact ⟨t, ht, ((rules_instrument (S := S)).takeOne sub s).answered ht⟩

/-- A book that does not match refuses all of its submissions. -/
theorem takeSubmissions_of_not (S : Settlement σ) (submissions : List Submission)
    {s : Logged (Desk σ)} (h : s.state.book.isRunning = false) : takeSubmissions S submissions s =
      .ok (answersTo (.error (.bookStopped s.state.book.instrument)) submissions) s := by
  induction submissions with
  | nil => rfl
  | cons sub rest ih =>
    refine ends_eq_ok.1 ?_
    simp only [takeSubmissions_cons, takeOne, ends_bind, ends_current, h,
      Bool.false_eq_true, if_false, ends_pure]
    refine .of_ok ih ⟨?_, rfl⟩
    rw [answersTo_cons]
    rfl

/-- Of the submissions the first are matched and the others are refused. Without those the same is
done. -/
theorem exists_takeSubmissions (S : Settlement σ) (submissions : List Submission)
    (s : Logged (Desk σ)) : ∃ taken refused t, submissions = taken ++ refused ∧
      takeSubmissions S submissions s = .ok (answersTo (.ok .done) taken ++
        answersTo (.error (.bookStopped s.state.book.instrument)) refused) t ∧
      takeSubmissions S taken s = .ok (answersTo (.ok .done) taken) t := by
  induction submissions generalizing s with
  | nil => exact ⟨[], [], s, rfl, rfl, rfl⟩
  | cons sub rest ih =>
    cases hrunning : s.state.book.isRunning with
    | false => exact ⟨[], sub :: rest, s, rfl, takeSubmissions_of_not S _ hrunning, rfl⟩
    | true =>
      obtain ⟨u, hu, hinstrument⟩ := exists_takeOne S sub s
      obtain ⟨taken, refused, t, rfl, hall, htaken⟩ := ih u
      rw [hinstrument] at hall
      have hfirst : ∀ (more : List Submission) (answers : List (Except EngineError Receipt)),
          takeSubmissions S more u = .ok (answersTo (.ok .done) taken ++ answers) t →
          takeSubmissions S (sub :: more) s = .ok (answersTo (.ok .done) (sub :: taken) ++
            answers) t := by
        intro more answers hmore
        refine ends_eq_ok.1 ?_
        simp only [takeSubmissions_cons, ends_bind, ends_current, hrunning, if_true]
        refine .of_ok hu (.of_ok hmore ⟨?_, rfl⟩)
        rw [answersTo_cons]
        split <;> rfl
      refine ⟨sub :: taken, refused, t, rfl, hfirst _ _ hall, ?_⟩
      have hself := hfirst taken [] (by rwa [List.append_nil])
      rwa [List.append_nil] at hself

/-- What is done at the start before any submission is taken does not depend on what waits. -/
theorem exists_reconciled (S : Settlement σ) (d : Desk σ) (j : Array Event) :
    ∃ result s, s.state.book.instrument = d.book.instrument ∧
      ∀ {submissions answers t}, takeSubmissions S submissions s = .ok answers t →
        start S ⟨d.waitingFor submissions, j⟩ = .ok ⟨result, answers⟩ t := by
  have hinstrument := (rules_instrument (S := S)).reconcile
    ⟨{ d with book := { d.book with phase := .stopped } }, j⟩
  unfold Ends at hinstrument
  cases hr : reconcile S ⟨{ d with book := { d.book with phase := .stopped } }, j⟩ with
  | ok _ u =>
    rw [hr] at hinstrument
    refine ⟨.started, ⟨{ u.state with book := { u.state.book with phase := .running } },
      u.journal.push (.matchingStarted d.book.instrument)⟩, hinstrument, ?_⟩
    intro submissions answers t ht
    refine ends_eq_ok.1 ?_
    simp only [start, waitingFor, enter, ends_bind, ends_current, ends_changeBook, ends_attempt]
    refine .of_ok hr ?_
    rw [ends_log]
    exact .of_ok ht ⟨rfl, rfl⟩
  | error cause u =>
    rw [hr] at hinstrument
    refine ⟨.broken cause, u, hinstrument, ?_⟩
    intro submissions answers t ht
    refine ends_eq_ok.1 ?_
    simp only [start, waitingFor, enter, ends_bind, ends_current, ends_changeBook, ends_attempt]
    exact .of_error hr (.of_ok ht ⟨rfl, rfl⟩)

/-- However a book is started, of the submissions that waited for it the first are matched and the
others are refused, and the start goes as if these had not been handed in. -/
theorem exists_start_waiting (S : Settlement σ) (d : Desk σ) (j : Array Event)
    (submissions : List Submission) :
    ∃ taken refused result t, submissions = taken ++ refused ∧
      start S ⟨d.waitingFor submissions, j⟩ = .ok ⟨result, answersTo (.ok .done) taken ++
        answersTo (.error (.bookStopped d.book.instrument)) refused⟩ t ∧
      start S ⟨d.waitingFor taken, j⟩ = .ok ⟨result, answersTo (.ok .done) taken⟩ t := by
  obtain ⟨result, s, hinstrument, hstart⟩ := exists_reconciled S d j
  obtain ⟨taken, refused, t, rfl, hall, htaken⟩ := exists_takeSubmissions S submissions s
  rw [hinstrument] at hall
  exact ⟨taken, refused, result, t, rfl, hstart hall, hstart htaken⟩

end Desk

/-! ## Calls to an engine -/

/-- A call to an engine, or to one of its books, that may be refused. -/
inductive EngineCall where
  | submit (side : Side) (r : OrderRef)
  | withdraw (side : Side) (r : OrderRef)
  /-- The book of the instrument is called. -/
  | toBook (i : InstrumentId) (c : BookCall)

namespace Exchange

/-- Carries out a call. There is nothing to call where there is no book. -/
def serve (S : Settlement σ) : EngineCall → Action (Exchange σ) (Except EngineError Receipt)
  | .submit side r => submit S side r
  | .withdraw side r => do return (← withdraw side r).map fun _ => .done
  | .toBook i c => do
    match (← Action.current).book? i with
    | some b => onBook b (Desk.serve S c)
    | none => return .ok .done

/-- The book that a call goes to, and the call to it. -/
def target? (x : Exchange σ) : EngineCall → Option (Book × BookCall)
  | .submit side r => (x.book? (x.order r).instrument).map (·, .submit side r)
  | .withdraw side r => (x.book? (x.order r).instrument).map (·, .withdraw side r)
  | .toBook i c => (x.book? i).map (·, c)

/-- Why the engine refuses a call that goes to none of its books, if it does. -/
def lost? (x : Exchange σ) : EngineCall → Option EngineError
  | .submit _ r | .withdraw _ r => some (.unknownInstrument (x.order r).instrument)
  | .toBook _ _ => none

/-- Why the engine refuses a call, if it does. -/
def refusal? (x : Exchange σ) (c : EngineCall) : Option EngineError :=
  match x.target? c with
  | some (b, call) => Desk.refusal? ⟨x.office, b⟩ call
  | none => x.lost? c

/-- The call hands in a closed order to a book of the engine, on the right side. -/
def PassesOver (x : Exchange σ) (c : EngineCall) : Prop :=
  ∃ b call, x.target? c = some (b, call) ∧ Desk.PassesOver ⟨x.office, b⟩ call

variable {x : Exchange σ} {j : Array Event} {c : EngineCall} {b : Book} {call : BookCall}

/-- A book that is in its place is put where it is. -/
theorem putBook_of_find? {books : List Book}
    (h : books.find? (·.instrument = b.instrument) = some b) : putBook b books = books := by
  induction books with
  | nil => cases h
  | cons c rest ih =>
    unfold putBook
    split
    · next hc =>
      rw [List.find?_cons_of_pos (by simpa using hc)] at h
      rw [Option.some.inj h]
    · next hc =>
      rw [List.find?_cons_of_neg (by simpa using hc)] at h
      rw [ih h]

/-- A call goes to a book of the engine. -/
theorem book?_of_target? (h : x.target? c = some (b, call)) : x.book? b.instrument = some b := by
  have hbook : ∃ i, x.book? i = some b := by
    cases c <;> obtain ⟨b', hb, heq⟩ := Option.map_eq_some_iff.1 h <;> cases heq <;> exact ⟨_, hb⟩
  obtain ⟨i, hi⟩ := hbook
  have : b.instrument = i := by simpa using List.find?_some hi
  rwa [this]

/-- What a book answers is passed on. -/
theorem onBook_map {β : Type} (b : Book) (act : Action (Desk σ) α) (f : α → β)
    (y : Logged (Exchange σ)) :
    onBook b (do return f (← act)) y = (do return f (← onBook b act)) y := by
  show Action.within _ _ (EStateM.bind act _) y = EStateM.bind (Action.within _ _ act) _ y
  unfold Action.within EStateM.bind
  dsimp only
  cases act ⟨⟨y.state.office, b⟩, y.journal⟩ <;> rfl

/-- An order is routed to the book of its instrument. -/
theorem route_of_book? {r : OrderRef} {act : Action (Desk σ) (Except EngineError α)}
    (h : x.book? (x.order r).instrument = some b) : route r act ⟨x, j⟩ = onBook b act ⟨x, j⟩ := by
  show (match x.book? (x.order r).instrument with
    | some b => onBook b act
    | none => pure (.error (.unknownInstrument (x.order r).instrument))) ⟨x, j⟩ = _
  rw [h]

/-- An order of an unknown instrument is routed nowhere. -/
theorem route_of_lost {r : OrderRef} {act : Action (Desk σ) (Except EngineError α)}
    (h : x.book? (x.order r).instrument = none) :
    route r act ⟨x, j⟩ = .ok (.error (.unknownInstrument (x.order r).instrument)) ⟨x, j⟩ := by
  show (match x.book? (x.order r).instrument with
    | some b => onBook b act
    | none => pure (.error (.unknownInstrument (x.order r).instrument))) ⟨x, j⟩ = _
  rw [h]
  rfl

/-- A call of the engine is one of the book it is for. -/
theorem serve_of_target? (h : x.target? c = some (b, call)) :
    serve S c ⟨x, j⟩ = onBook b (Desk.serve S call) ⟨x, j⟩ := by
  cases c with
  | submit side r =>
    obtain ⟨_, hb, heq⟩ := Option.map_eq_some_iff.1 h
    cases heq
    exact route_of_book? hb
  | withdraw side r =>
    obtain ⟨_, hb, heq⟩ := Option.map_eq_some_iff.1 h
    cases heq
    exact (bind_apply_congr (route_of_book? hb) _).trans (onBook_map ..).symm
  | toBook i c =>
    obtain ⟨_, hb, heq⟩ := Option.map_eq_some_iff.1 h
    cases heq
    show (match x.book? i with
      | some b => onBook b (Desk.serve S call)
      | none => pure (.ok .done)) ⟨x, j⟩ = _
    rw [hb]

/-- A call that goes to no book is refused if it is for an order. -/
theorem refuses_of_lost (h : x.target? c = none) : Refuses (serve S c) ⟨x, j⟩ (x.lost? c) := by
  cases c with
  | submit side r => exact .of_refused (route_of_lost (Option.map_eq_none_iff.1 h))
  | withdraw side r =>
    refine .of_refused (ends_eq_ok.1 (ends_bind.2 (.of_ok (route_of_lost ?_) ⟨rfl, rfl⟩)))
    exact Option.map_eq_none_iff.1 h
  | toBook i c =>
    refine .of_taken ?_
    simp only [serve, ends_bind, ends_current, Option.map_eq_none_iff.1 h]
    exact ⟨_, rfl⟩

/-- An engine refuses a call for a reason of its own or of a book only, and changes nothing
then. -/
theorem refuses_serve (S : Settlement σ) (c : EngineCall) (y : Logged (Exchange σ)) :
    Refuses (serve S c) y (y.state.refusal? c) := by
  obtain ⟨x, j⟩ := y
  unfold refusal?
  cases htarget : x.target? c with
  | some target =>
    obtain ⟨b, call⟩ := target
    have hput : { x with books := putBook b x.books } = x := by
      rw [putBook_of_find? (book?_of_target? htarget)]
    have hbook : Refuses (onBook b (Desk.serve S call)) ⟨x, j⟩
        (Desk.refusal? ⟨x.office, b⟩ call) :=
      .within (Desk.refuses_serve S call ⟨⟨x.office, b⟩, j⟩) hput
    unfold Refuses at hbook ⊢
    rwa [serve_of_target? htarget]
  | none => exact refuses_of_lost htarget

/-- A closed order is passed over. -/
theorem serve_of_passesOver (h : x.PassesOver c) :
    ∃ e, serve S c ⟨x, j⟩ = .ok (.ok .done) ⟨x, j.push e⟩ := by
  obtain ⟨b, call, htarget, hpasses⟩ := h
  obtain ⟨e, he⟩ := Desk.serve_of_passesOver (S := S) (j := j) hpasses
  refine ⟨e, ?_⟩
  rw [serve_of_target? htarget, onBook, Action.within, he]
  simp only [putBook_of_find? (book?_of_target? htarget)]

end Exchange

/-- A book refuses a call only because of the order's side, because it has ended or because it was
started before, and an engine also because it has no book for the order's instrument. Nothing is
changed then: not the orders, nor settlement, nor anything of any book. A closed order that is
handed in on the right side is taken, and also changes nothing. Of the submissions that waited for
the start of a book those that are refused in the end have changed nothing. -/
theorem refused_calls_change_nothing (S : Settlement σ) :
    (∀ c (s : Logged (Desk σ)), Refuses (Desk.serve S c) s (s.state.refusal? c)) ∧
    (∀ c (y : Logged (Exchange σ)), Refuses (Exchange.serve S c) y (y.state.refusal? c)) ∧
    (∀ c (d : Desk σ) j, d.PassesOver c →
      ∃ e, Desk.serve S c ⟨d, j⟩ = .ok (.ok .done) ⟨d, j.push e⟩) ∧
    (∀ c (x : Exchange σ) j, x.PassesOver c →
      ∃ e, Exchange.serve S c ⟨x, j⟩ = .ok (.ok .done) ⟨x, j.push e⟩) ∧
    ∀ (d : Desk σ) j submissions, ∃ taken refused result t, submissions = taken ++ refused ∧
      Desk.start S ⟨d.waitingFor submissions, j⟩ = .ok ⟨result, Desk.answersTo (.ok .done) taken ++
        Desk.answersTo (.error (.bookStopped d.book.instrument)) refused⟩ t ∧
      Desk.start S ⟨d.waitingFor taken, j⟩ = .ok ⟨result, Desk.answersTo (.ok .done) taken⟩ t :=
  ⟨Desk.refuses_serve S, Exchange.refuses_serve S, fun _ _ _ => Desk.serve_of_passesOver,
    fun _ _ _ => Exchange.serve_of_passesOver, Desk.exists_start_waiting S⟩

/-- An open ask and a closed one, with a book that has ended. -/
def endedDesk : Desk Simulated where
  office := ⟨⟨#[{ Order.blank with side := .ask, closed := false },
    { Order.blank with side := .ask }]⟩, .empty⟩
  book := { Book.new ⟨⟨1⟩, .ofUInt64 100⟩ 10 1 with phase := .stopped }

/-- The book refuses the open ask, passes over the closed one, and is not started again. -/
theorem refused_calls_of_endedDesk :
    Desk.serve Simulated.settlement (.submit .ask ⟨0⟩) ⟨endedDesk, #[]⟩ =
      .ok (.error (.bookStopped ⟨1⟩)) ⟨endedDesk, #[]⟩ ∧
    (∃ e, Desk.serve Simulated.settlement (.submit .ask ⟨1⟩) ⟨endedDesk, #[]⟩ =
      .ok (.ok .done) ⟨endedDesk, #[e]⟩) ∧
    Desk.serve Simulated.settlement .start ⟨endedDesk, #[]⟩ =
      .ok (.error (.alreadyStarted ⟨1⟩)) ⟨endedDesk, #[]⟩ := by
  obtain ⟨hbook, -, hclosed, -⟩ := refused_calls_change_nothing Simulated.settlement
  exact ⟨(hbook _ _ _ _).2 ⟨rfl, rfl⟩, hclosed (.submit .ask ⟨1⟩) endedDesk #[] ⟨rfl, rfl⟩,
    (hbook _ _ _ _).2 ⟨rfl, rfl⟩⟩

end Bourse
