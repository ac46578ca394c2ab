import Bourse.Book.Lifecycle
import Bourse.Proofs.Ends

/-!
# Rounds of matching

Both matching loops repeat one round: look for a pair, let settlement try it, trigger what its
trade reaches. `Desk.matchRound` and `Desk.reconcileRound` are these rounds on their own. Their
answers tell whether the loop goes on, and the loops are what their rounds make of them
(`matchIncoming_succ`, `reconcileSteps_succ`), so what is to be said of a loop is said of a round
first. `process_eq` and `takeSubmissions_cons` are the same for the pieces of what comes around the
loops.
-/

namespace Bourse.Desk

variable {σ : Type}

/-- How a round of matching ended. -/
structure RoundResult where
  /-- A stop-loss was activated. -/
  fired : Bool
  /-- Another round follows. -/
  goesOn : Bool

/-- One round of matching an incoming order of a side and user. -/
def matchRound (S : Settlement σ) (s : Side) (user : UserId) (incoming : OrderRef) :
    Action (Desk σ) RoundResult := do
  if !((← Action.current).order incoming).isOpen then
    return ⟨false, false⟩
  let (top, aside) ← findTop s.opposite (some user)
  match top with
  | none =>
    restore s.opposite aside
    return ⟨false, false⟩
  | some resting =>
    let (ask, bid) := pair s incoming resting
    let d ← Action.current
    if !crosses (d.order ask) (d.order bid) then
      restore s.opposite aside
      return ⟨false, false⟩
    match ← makeTrade S ask bid (some s) with
    | .ok step =>
      if step.isDone s.opposite then
        popResting s.opposite resting
      restore s.opposite aside
      return ⟨← triggerAfter S step.trade, true⟩
    | .error fault =>
      Action.log (.matchAbandoned d.book.instrument fault)
      restore s.opposite aside
      return ⟨← triggerAfter S fault.trade, false⟩

/-- One round of matching resting orders with each other. -/
def reconcileRound (S : Settlement σ) : Action (Desk σ) RoundResult := do
  let (topAsk, _) ← findTop .ask none
  let some ask := topAsk | return ⟨false, false⟩
  let (topBid, aside) ← findTop .bid (some ((← Action.current).order ask).user)
  match topBid with
  | none =>
    restore .bid aside
    return ⟨false, false⟩
  | some bid =>
    let d ← Action.current
    if !crosses (d.order ask) (d.order bid) then
      restore .bid aside
      return ⟨false, false⟩
    match ← makeTrade S ask bid none with
    | .ok step =>
      if step.askDone then
        popResting .ask ask
      if step.bidDone then
        popResting .bid bid
      restore .bid aside
      return ⟨← triggerAfter S step.trade, true⟩
    | .error fault =>
      Action.log (.reconciliationAbandoned d.book.instrument fault)
      restore .bid aside
      return ⟨← triggerAfter S fault.trade, false⟩

/-- How many rounds matching an incoming order may take. -/
def processLimit (S : Settlement σ) (d : Desk σ) : Nat :=
  d.book.itemCount + S.patience d.office.backend + 2

/-- Lets what is left of an incoming order rest. -/
def restLeft (s : Side) (r : OrderRef) : Action (Desk σ) Unit := do
  if ((← Action.current).order r).isOpen then
    rest s r

/-- The first part of processing an order: it is matched, and what is left of it rests. The answer
tells whether a stop-loss was activated. -/
def intake (S : Settlement σ) (r : OrderRef) : Action (Desk σ) Bool := do
  let d ← Action.current
  let activated ← matchIncoming S (d.order r).side (d.order r).user r (processLimit S d) false
  restLeft (d.order r).side r
  return activated

variable (S : Settlement σ) (side : Side) (user : UserId) (r : OrderRef)

/-- Processing an order is matching it, letting what is left of it rest, and reconciling the book
if a stop-loss was activated. -/
theorem process_eq : process S r = (do
    let d ← Action.current
    let activated ←
      matchIncoming S (d.order r).side (d.order r).user r (processLimit S d) false
    restLeft (d.order r).side r
    if activated then reconcile S) := by
  unfold process restLeft
  simp only [bind_assoc]
  refine bind_congr ?_
  intro d
  refine bind_congr ?_
  intro activated
  refine bind_congr ?_
  intro d'
  cases (d'.order r).isOpen <;> simp

/-- Processing an order is taking it in, and reconciling the book if a stop-loss was activated. -/
theorem process_eq_intake : process S r = (do if ← intake S r then reconcile S) := by
  rw [process_eq]
  simp only [intake, bind_assoc, pure_bind]

/-- Matching an incoming order is a round, and then the same again if the round goes on. -/
theorem matchIncoming_succ (limit : Nat) (activated : Bool) :
    matchIncoming S side user r (limit + 1) activated = (do
      let result ← matchRound S side user r
      if result.goesOn then
        matchIncoming S side user r limit (activated || result.fired)
      else
        return activated || result.fired) := by
  simp only [matchIncoming, matchRound, bind_assoc]
  refine bind_congr ?_
  intro d
  split
  · simp
  rw [bind_assoc]
  refine bind_congr ?_
  rintro ⟨_ | resting, aside⟩
  · simp
  simp only [bind_assoc]
  refine bind_congr ?_
  intro d
  split
  · simp
  rw [bind_assoc]
  refine bind_congr ?_
  rintro (fault | step)
  · simp
  · cases hdone : step.isDone side.opposite <;> simp [hdone]

/-- Matching resting orders with each other is a round, and then the same again if the round goes
on. -/
theorem reconcileSteps_succ (limit : Nat) :
    reconcileSteps S (limit + 1) = (do
      if (← reconcileRound S).goesOn then reconcileSteps S limit else return) := by
  simp only [reconcileSteps, reconcileRound, bind_assoc]
  refine bind_congr ?_
  rintro ⟨_ | ask, -⟩
  · simp
  simp only [bind_assoc]
  refine bind_congr ?_
  intro d
  refine bind_congr ?_
  rintro ⟨_ | bid, aside⟩
  · simp
  simp only [bind_assoc]
  refine bind_congr ?_
  intro d
  split
  · simp
  rw [bind_assoc]
  refine bind_congr ?_
  rintro (fault | step)
  · simp
  · cases hask : step.askDone <;> cases hbid : step.bidDone <;> simp [hask, hbid]

/-- A loop that does not run into its limit does the same with a higher one. -/
theorem matchIncoming_add {limit : Nat} {activated : Bool} {s : Logged (Desk σ)}
    (h : Action.Ends (matchIncoming S side user r limit activated) s (fun _ _ => True)
      (fun f _ => f ≠ .stepLimit)) (more : Nat) :
    matchIncoming S side user r (limit + more) activated s =
      matchIncoming S side user r limit activated s := by
  induction limit generalizing s activated with
  | zero => exact absurd rfl h
  | succ limit ih =>
    rw [Nat.add_right_comm, matchIncoming_succ, matchIncoming_succ]
    rw [matchIncoming_succ, Action.ends_bind] at h
    refine Action.Ends.bind_congr (h.mono ?_ fun _ _ _ => trivial)
    intro result t ht
    cases hgo : result.goesOn with
    | false => rfl
    | true =>
      rw [hgo] at ht
      exact ih ht

/-- The same of reconciling. -/
theorem reconcileSteps_add {limit : Nat} {s : Logged (Desk σ)}
    (h : Action.Ends (reconcileSteps S limit) s (fun _ _ => True) (fun f _ => f ≠ .stepLimit))
    (more : Nat) : reconcileSteps S (limit + more) s = reconcileSteps S limit s := by
  induction limit generalizing s with
  | zero => exact absurd rfl h
  | succ limit ih =>
    rw [Nat.add_right_comm, reconcileSteps_succ, reconcileSteps_succ]
    rw [reconcileSteps_succ, Action.ends_bind] at h
    refine Action.Ends.bind_congr (h.mono ?_ fun _ _ _ => trivial)
    intro result t ht
    cases hgo : result.goesOn with
    | false => rfl
    | true =>
      rw [hgo] at ht
      exact ih ht

/-- Tells that nobody waits any more for the answer to a submission, if that is so. -/
def announce (d : Desk σ) (sub : Submission) : Action (Desk σ) Unit :=
  if sub.abandoned then
    Action.log (.submitterGone d.book.instrument (d.order sub.order).id)
  else pure ()

/-- Matches one submission that waited for the start, unless matching broke off before. -/
def takeOne (sub : Submission) : Action (Desk σ) Unit := do
  let d ← Action.current
  if d.book.isRunning then
    announce d sub
    runTask S sub.order

/-- Submissions are matched one after the other. -/
theorem takeSubmissions_cons (sub : Submission) (rest : List Submission) :
    takeSubmissions S (sub :: rest) = (do
      let d ← Action.current
      takeOne S sub
      let answers ← takeSubmissions S rest
      return if sub.abandoned then answers
        else (if d.book.isRunning then .ok .done else .error d.stoppedError) :: answers) := by
  have hcurrent : ∀ f : Desk σ → Desk σ → Action (Desk σ) (List (Except EngineError Receipt)),
      (Action.current >>= fun d => Action.current >>= fun d' => f d d') =
        (Action.current >>= fun d => f d d) := fun _ => rfl
  simp only [takeSubmissions, takeOne, announce, bind_assoc]
  rw [hcurrent]
  refine bind_congr ?_
  intro d
  cases d.book.isRunning <;> cases sub.abandoned <;> simp

end Bourse.Desk
