import Bourse.Proofs.Book.Rounds
import Bourse.Proofs.Book.Trade

/-!
# Actions seen through a view

A state can carry more than an action needs. `Action.Mirrors view big small` says that an action on
the bigger state does, seen through `view`, what another one does on the smaller: the same answers,
the same failures, the same journal. There is one lemma for each way of putting actions together,
and `Desk.Mirrors` follows them through the code of the book: nothing in it looks at the backend
but the settlement, so two settlements that mirror each other run the same book.
-/

namespace Bourse

/-- What an end of an action looks like through a view of the state. -/
def seen {σ τ α : Type} (view : τ → σ) :
    EStateM.Result Failure (Logged τ) α → EStateM.Result Failure (Logged σ) α
  | .ok a t => .ok a ⟨view t.state, t.journal⟩
  | .error f t => .error f ⟨view t.state, t.journal⟩

namespace Action

variable {σ τ α β : Type} {view : τ → σ}

/-- Seen through the view, the first action does what the second does. -/
def Mirrors (view : τ → σ) (big : Action τ α) (small : Action σ α) : Prop :=
  ∀ t : Logged τ, seen view (big t) = small ⟨view t.state, t.journal⟩

/-- Every action mirrors itself. -/
theorem mirrors_self (act : Action σ α) : Mirrors id act act := by
  intro t
  show seen id (act t) = act t
  cases act t <;> rfl

/-- An answer mirrors itself. -/
theorem mirrors_pure (a : α) : Mirrors view (pure a) (pure a) := fun _ => rfl

/-- An event mirrors itself. -/
theorem mirrors_log (e : Event) : Mirrors view (log e) (log e) := fun _ => rfl

/-- A failure mirrors itself. -/
theorem mirrors_fail (f : Failure) : Mirrors view (fail f : Action τ α) (fail f) := fun _ => rfl

/-- What mirrors from each state mirrors after a look at it. -/
theorem mirrors_current {next : τ → Action τ β} {next' : σ → Action σ β}
    (h : ∀ t, Mirrors view (next t) (next' (view t))) :
    Mirrors view (current >>= next) (current >>= next') := fun t => h t.state t

/-- A change mirrors the change of what is seen. -/
theorem mirrors_change {f : τ → τ} {g : σ → σ} (h : ∀ t, view (f t) = g (view t)) :
    Mirrors view (change f) (change g) := fun t => by
  show EStateM.Result.ok () (Logged.mk (view (f t.state)) t.journal) = _
  rw [h]
  rfl

/-- Actions in sequence mirror each other if their parts do. -/
theorem Mirrors.bind {big : Action τ α} {small : Action σ α} {next : α → Action τ β}
    {next' : α → Action σ β} (h : Mirrors view big small)
    (hnext : ∀ a, Mirrors view (next a) (next' a)) :
    Mirrors view (big >>= next) (small >>= next') := by
  intro t
  have ht := h t
  show seen view (EStateM.bind big next t) = EStateM.bind small next' _
  unfold EStateM.bind
  rw [← ht]
  cases big t with
  | ok a u => exact hnext a u
  | error f u => rfl

/-- Branches mirror each other if they branch alike. -/
theorem Mirrors.ite {c : Prop} [Decidable c] {big big' : Action τ α} {small small' : Action σ α}
    (h : Mirrors view big small) (h' : Mirrors view big' small') :
    Mirrors view (if c then big else big') (if c then small else small') := by
  split
  · exact h
  · exact h'

/-- Attempts mirror each other if the actions do. -/
theorem Mirrors.attempt {big : Action τ α} {small : Action σ α} (h : Mirrors view big small) :
    Mirrors view (attempt big) (attempt small) := by
  intro t
  unfold Action.attempt
  rw [← h t]
  cases big t <;> rfl

/-- Actions for each element of a list mirror each other, by induction on it. -/
theorem Mirrors.forM {γ : Type} {big : γ → Action τ PUnit} {small : γ → Action σ PUnit}
    (h : ∀ c, Mirrors view (big c) (small c)) :
    ∀ l : List γ, Mirrors view (l.forM big) (l.forM small)
  | [] => mirrors_pure _
  | c :: rest => (h c).bind fun _ => Mirrors.forM h rest

/-- An action on a part of the state, if the view goes to a view of that part. -/
theorem Mirrors.within {σ' τ' : Type} {part : τ → τ'} {put : τ' → τ → τ} {part' : σ → σ'}
    {put' : σ' → σ → σ} {inner : τ' → σ'} {big : Action τ' α} {small : Action σ' α}
    (h : Mirrors inner big small) (hpart : ∀ t, inner (part t) = part' (view t))
    (hput : ∀ p t, view (put p t) = put' (inner p) (view t)) :
    Mirrors view (within part put big) (within part' put' small) := by
  intro t
  have ht := h ⟨part t.state, t.journal⟩
  unfold Action.within
  rw [← hpart, ← ht]
  cases big ⟨part t.state, t.journal⟩ with
  | ok a u => simp only [seen, hput]
  | error f u => simp only [seen, hput]

/-- The end of the smaller action is that of the bigger one. -/
theorem Mirrors.eq {big : Action τ α} {small : Action σ α} (h : Mirrors view big small)
    (t : Logged τ) : small ⟨view t.state, t.journal⟩ = seen view (big t) := (h t).symm

/-- Where the bigger action leads, the smaller one does, seen through the view. -/
theorem Mirrors.leads {big : Action τ α} {small : Action σ α} {a b : τ} {answer : Option α}
    (h : Mirrors view big small) (hl : Leads big a answer b) :
    Leads small (view a) answer (view b) := by
  obtain ⟨j, hl⟩ := hl
  refine ⟨j, ?_⟩
  unfold Ends at *
  rw [h.eq ⟨a, j⟩]
  cases hbig : big ⟨a, j⟩ <;> rw [hbig] at hl <;> exact ⟨hl.1, congrArg view hl.2⟩

end Action

open Bourse.Action

/-- An office seen through a view of its backend. -/
def Office.seen {σ τ : Type} (view : τ → σ) (o : Office τ) : Office σ := ⟨o.orders, view o.backend⟩

/-- A desk seen through a view of the backend. -/
def Desk.seen {σ τ : Type} (view : τ → σ) (d : Desk τ) : Desk σ := ⟨d.office.seen view, d.book⟩

/-- Seen through a view of the backend, one settlement does what the other does. -/
structure Settlement.Mirrors {σ τ : Type} (view : τ → σ) (T : Settlement τ) (S : Settlement σ) :
    Prop where
  fill : ∀ ask bid price q,
    Action.Mirrors (Office.seen view) (T.fill ask bid price q) (S.fill ask bid price q)
  stopLossTriggered : ∀ r,
    Action.Mirrors (Office.seen view) (T.stopLossTriggered r) (S.stopLossTriggered r)
  patience : ∀ b, T.patience b = S.patience (view b)

namespace Desk

variable {σ τ α : Type} {view : τ → σ} {T : Settlement τ} {S : Settlement σ} {side : Side}
  {user : UserId} {r ask bid : OrderRef} {exclude : Option UserId} {price : Price}

/-- Seen through a view of the backend, the first action on desks does what the second does. -/
abbrev Mirrors (view : τ → σ) (big : Action (Desk τ) α) (small : Action (Desk σ) α) : Prop :=
  Action.Mirrors (Desk.seen view) big small

/-- A change of the book mirrors itself. -/
theorem mirrors_changeBook (f : Book → Book) : Mirrors view (changeBook f) (changeBook f) :=
  mirrors_change fun _ => rfl

/-- What the ledger does mirrors itself. -/
theorem mirrors_onLedger (act : Action Ledger α) : Mirrors view (onLedger act) (onLedger act) :=
  (mirrors_self act).within (fun _ => rfl) fun _ _ => rfl

/-- What settlement does is mirrored if it is so in the office. -/
theorem mirrors_onOffice {big : Action (Office τ) α} {small : Action (Office σ) α}
    (h : Action.Mirrors (Office.seen view) big small) :
    Mirrors view (onOffice big) (onOffice small) := h.within (fun _ => rfl) fun _ _ => rfl

/-- What is done to orders mirrors itself. -/
theorem mirrors_onOrders (act : Action Orders α) :
    Mirrors view (onOffice (Office.onOrders act)) (onOffice (Office.onOrders act)) :=
  mirrors_onOffice ((mirrors_self act).within (fun _ => rfl) fun _ _ => rfl)

@[simp] theorem book_seen (view : τ → σ) (d : Desk τ) : (d.seen view).book = d.book := rfl

@[simp] theorem order_seen (view : τ → σ) (d : Desk τ) (r : OrderRef) :
    (d.seen view).order r = d.order r := rfl

/-! ## The code of the book -/

/-- A change of a queue of resting orders mirrors itself. -/
theorem mirrors_changeQueue (f : Queue → Queue) :
    Mirrors view (changeQueue side f) (changeQueue side f) := mirrors_changeBook _

/-- A change of a queue of dormant stop-losses mirrors itself. -/
theorem mirrors_changeStopLossQueue (f : Queue → Queue) :
    Mirrors view (changeStopLossQueue side f) (changeStopLossQueue side f) := mirrors_changeBook _

/-- Entering a phase mirrors itself. -/
theorem mirrors_enter (p : Phase) : Mirrors view (enter p) (enter p) := mirrors_changeBook _

/-- Letting an order rest mirrors itself. -/
theorem mirrors_rest : Mirrors view (rest side r) (rest side r) :=
  mirrors_current fun _ => (mirrors_changeQueue _).bind fun _ => mirrors_onLedger _

/-- Putting a stop-loss aside mirrors itself. -/
theorem mirrors_parkStopLoss : Mirrors view (parkStopLoss r) (parkStopLoss r) :=
  mirrors_current fun _ => (mirrors_changeStopLossQueue _).bind fun _ => mirrors_log _

/-- Each step of a search mirrors itself. -/
theorem mirrors_topMatching (n : Nat) (aside : List Item) :
    Mirrors view (topMatching side exclude n aside) (topMatching side exclude n aside) := by
  induction n generalizing aside with
  | zero => exact mirrors_pure _
  | succ n ih =>
    refine mirrors_current ?_
    intro d
    simp only [book_seen, order_seen]
    cases (d.book.queue side).headItem? with
    | none => exact mirrors_pure _
    | some head =>
      refine .ite ?_ (.ite ?_ (mirrors_pure _))
      · exact (mirrors_changeQueue _).bind fun _ => (mirrors_onLedger _).bind fun _ =>
          (mirrors_log _).bind fun _ => ih _
      · exact (mirrors_changeQueue _).bind fun _ => ih _

/-- A search mirrors itself. -/
theorem mirrors_findTop : Mirrors view (findTop side exclude) (findTop side exclude) :=
  mirrors_current fun _ => mirrors_topMatching _ _

/-- Putting back what was set aside mirrors itself. -/
theorem mirrors_restore (aside : List Item) :
    Mirrors view (restore side aside) (restore side aside) := mirrors_changeQueue _

/-- Taking a finished order off its queue mirrors itself. -/
theorem mirrors_popResting : Mirrors view (popResting side r) (popResting side r) :=
  mirrors_current fun _ => .ite (mirrors_changeQueue _) (mirrors_log _)

/-- Bringing the depth of one side in line mirrors itself. -/
theorem mirrors_settleShown (incoming : Option Side) (id : OrderId) (out : FillOutcome) :
    Mirrors view (settleShown incoming side id out) (settleShown incoming side id out) := by
  refine .ite ?_ (mirrors_pure _)
  unfold settleDepth
  have hdone : Mirrors view
      (if (out.status side).isDone then onLedger (Ledger.withdraw id) else pure ())
      (if (out.status side).isDone then onLedger (Ledger.withdraw id) else pure ()) :=
    .ite (mirrors_onLedger _) (mirrors_pure _)
  cases out.trade with
  | none => exact hdone
  | some t => exact (mirrors_onLedger _).bind fun _ => hdone

/-- A match step is mirrored if settlement is. -/
theorem mirrors_makeTrade (h : T.Mirrors view S) (incoming : Option Side) :
    Mirrors view (makeTrade T ask bid incoming) (makeTrade S ask bid incoming) := by
  rw [makeTrade_eq, makeTrade_eq]
  refine mirrors_current ?_
  intro d
  refine (mirrors_onOffice (h.fill _ _ _ _)).bind ?_
  intro out
  have hrecord :
      Mirrors view (recordDeal d.book.instrument (d.order ask).id (d.order bid).id out.trade)
        (recordDeal d.book.instrument (d.order ask).id (d.order bid).id out.trade) := by
    cases out.trade with
    | none => exact mirrors_pure _
    | some t =>
      exact (mirrors_log _).bind fun _ => (mirrors_onLedger _).bind fun _ => mirrors_changeBook _
  exact hrecord.bind fun _ => (mirrors_settleShown _ _ _).bind fun _ =>
    (mirrors_settleShown _ _ _).bind fun _ => mirrors_pure _

/-- Activating stop-losses mirrors itself. -/
theorem mirrors_takeReached (n : Nat) :
    Mirrors view (takeReached side price n) (takeReached side price n) := by
  induction n with
  | zero => exact mirrors_pure _
  | succ n ih =>
    refine mirrors_current ?_
    intro d
    simp only [book_seen, order_seen]
    obtain ⟨_ | item, q⟩ := (d.book.stopLossQueue side).popIf fun r =>
      (d.order r).closed || (d.order r).isReachedBy price
    · exact mirrors_pure _
    · refine (mirrors_changeStopLossQueue _).bind fun _ => .ite ?_ ?_
      · exact (mirrors_log _).bind fun _ => ih
      · exact (mirrors_onOrders _).bind fun _ => ih.bind fun _ => mirrors_pure _

/-- A stop-loss that joins the resting orders is mirrored if settlement is. -/
theorem mirrors_promote (h : T.Mirrors view S) :
    Mirrors view (promote T price r) (promote S price r) :=
  mirrors_current fun _ => (mirrors_log _).bind fun _ =>
    (mirrors_onOffice (h.stopLossTriggered r)).bind fun _ =>
      mirrors_current fun _ => mirrors_changeQueue _

/-- What a trade price triggers is mirrored if settlement is. -/
theorem mirrors_triggerStopLosses (h : T.Mirrors view S) :
    Mirrors view (triggerStopLosses T price) (triggerStopLosses S price) :=
  mirrors_current fun _ => (mirrors_takeReached _).bind fun _ =>
    mirrors_current fun _ => (mirrors_takeReached _).bind fun _ =>
      (Action.Mirrors.forM (fun _ => mirrors_promote h) _).bind fun _ => mirrors_pure _

/-- What a trade triggers is mirrored if settlement is. -/
theorem mirrors_triggerAfter (h : T.Mirrors view S) (trade : Option Trade) :
    Mirrors view (triggerAfter T trade) (triggerAfter S trade) := by
  cases trade with
  | none => exact mirrors_pure _
  | some t => exact mirrors_triggerStopLosses h

/-- A round of matching is mirrored if settlement is. -/
theorem mirrors_matchRound (h : T.Mirrors view S) :
    Mirrors view (matchRound T side user r) (matchRound S side user r) := by
  refine mirrors_current fun d => .ite (mirrors_pure _) (mirrors_findTop.bind ?_)
  rintro ⟨_ | resting, aside⟩
  · exact (mirrors_restore _).bind fun _ => mirrors_pure _
  refine mirrors_current fun d => .ite ?_ ((mirrors_makeTrade h _).bind ?_)
  · exact (mirrors_restore _).bind fun _ => mirrors_pure _
  have hlast : ∀ (trade : Option Trade) (goesOn : Bool),
      Mirrors view (restore side.opposite aside >>= fun _ => triggerAfter T trade >>= fun fired =>
          pure (⟨fired, goesOn⟩ : RoundResult))
        (restore side.opposite aside >>= fun _ => triggerAfter S trade >>= fun fired =>
          pure ⟨fired, goesOn⟩) := fun trade goesOn =>
    (mirrors_restore _).bind fun _ => (mirrors_triggerAfter h trade).bind fun _ => mirrors_pure _
  rintro (fault | step)
  · exact (mirrors_log _).bind fun _ => hlast fault.trade false
  · exact .ite (mirrors_popResting.bind fun _ => hlast step.trade true) (hlast step.trade true)

/-- A round of reconciling is mirrored if settlement is. -/
theorem mirrors_reconcileRound (h : T.Mirrors view S) :
    Mirrors view (reconcileRound T) (reconcileRound S) := by
  refine mirrors_findTop.bind ?_
  rintro ⟨_ | topAsk, -⟩
  · exact mirrors_pure _
  refine mirrors_current fun d => mirrors_findTop.bind ?_
  rintro ⟨_ | topBid, aside⟩
  · exact (mirrors_restore _).bind fun _ => mirrors_pure _
  refine mirrors_current fun d => .ite ?_ ((mirrors_makeTrade h _).bind ?_)
  · exact (mirrors_restore _).bind fun _ => mirrors_pure _
  have hlast : ∀ (trade : Option Trade) (goesOn : Bool),
      Mirrors view (restore .bid aside >>= fun _ => triggerAfter T trade >>= fun fired =>
          pure (⟨fired, goesOn⟩ : RoundResult))
        (restore .bid aside >>= fun _ => triggerAfter S trade >>= fun fired =>
          pure ⟨fired, goesOn⟩) := fun trade goesOn =>
    (mirrors_restore _).bind fun _ => (mirrors_triggerAfter h trade).bind fun _ => mirrors_pure _
  rintro (fault | step)
  · exact (mirrors_log _).bind fun _ => hlast fault.trade false
  · refine .ite (mirrors_popResting.bind fun _ => ?_) ?_
    · exact .ite (mirrors_popResting.bind fun _ => hlast step.trade true) (hlast step.trade true)
    · exact .ite (mirrors_popResting.bind fun _ => hlast step.trade true) (hlast step.trade true)

/-- Matching an order is mirrored if settlement is, by induction on the limit. -/
theorem mirrors_matchIncoming (h : T.Mirrors view S) (limit : Nat) (activated : Bool) :
    Mirrors view (matchIncoming T side user r limit activated)
      (matchIncoming S side user r limit activated) := by
  induction limit generalizing activated with
  | zero => exact mirrors_fail _
  | succ limit ih =>
    rw [matchIncoming_succ, matchIncoming_succ]
    exact (mirrors_matchRound h).bind fun _ => .ite (ih _) (mirrors_pure _)

/-- Reconciling is mirrored if settlement is, by induction on the limit. -/
theorem mirrors_reconcileSteps (h : T.Mirrors view S) (limit : Nat) :
    Mirrors view (reconcileSteps T limit) (reconcileSteps S limit) := by
  induction limit with
  | zero => exact mirrors_fail _
  | succ limit ih =>
    rw [reconcileSteps_succ, reconcileSteps_succ]
    exact (mirrors_reconcileRound h).bind fun _ => .ite ih (mirrors_pure _)

/-- Reconciling the whole book is mirrored if settlement is. -/
theorem mirrors_reconcile (h : T.Mirrors view S) : Mirrors view (reconcile T) (reconcile S) :=
  mirrors_current fun _ => mirrors_reconcileSteps h _

/-- Processing an order is mirrored if settlement is. -/
theorem mirrors_process (h : T.Mirrors view S) : Mirrors view (process T r) (process S r) := by
  rw [process_eq, process_eq]
  refine mirrors_current ?_
  intro d
  have hlimit : processLimit T d = processLimit S (d.seen view) := by
    unfold processLimit
    rw [h.patience]
    rfl
  rw [hlimit]
  refine (mirrors_matchIncoming h _ _).bind fun _ => Action.Mirrors.bind ?_ fun _ =>
    .ite (mirrors_reconcile h) (mirrors_pure _)
  exact mirrors_current fun _ => .ite mirrors_rest (mirrors_pure _)

/-- Matching one submission is mirrored if settlement is. -/
theorem mirrors_runTask (h : T.Mirrors view S) : Mirrors view (runTask T r) (runTask S r) := by
  refine (mirrors_process h).attempt.bind ?_
  rintro (cause | ⟨⟩)
  · exact mirrors_enter _
  · exact mirrors_pure _

/-- Matching submissions is mirrored if settlement is, by induction on their list. -/
theorem mirrors_takeSubmissions (h : T.Mirrors view S) (submissions : List Submission) :
    Mirrors view (takeSubmissions T submissions) (takeSubmissions S submissions) := by
  induction submissions with
  | nil => exact mirrors_pure _
  | cons sub rest ih =>
    rw [takeSubmissions_cons, takeSubmissions_cons]
    refine mirrors_current fun d => Action.Mirrors.bind ?_ fun _ => ih.bind fun _ => mirrors_pure _
    refine mirrors_current fun d => .ite (Action.Mirrors.bind ?_ fun _ => mirrors_runTask h)
      (mirrors_pure _)
    exact .ite (mirrors_log _) (mirrors_pure _)

/-- Checking a side mirrors itself. -/
theorem mirrors_checkSide : Mirrors view (checkSide side r) (checkSide side r) :=
  mirrors_current fun _ => mirrors_pure _

/-- Handing an order in is mirrored if settlement is. -/
theorem mirrors_submit (h : T.Mirrors view S) :
    Mirrors view (submit T side r) (submit S side r) := by
  refine mirrors_checkSide.bind ?_
  rintro (_ | error)
  · refine mirrors_current fun d => .ite ?_ (.ite ?_ ?_)
    · exact (mirrors_log _).bind fun _ => mirrors_pure _
    · exact mirrors_parkStopLoss.bind fun _ => mirrors_pure _
    · simp only [book_seen]
      cases d.book.phase with
      | waiting submissions => exact (mirrors_enter _).bind fun _ => mirrors_pure _
      | running => exact (mirrors_runTask h).bind fun _ => mirrors_pure _
      | crashed cause => exact mirrors_pure _
      | stopped => exact mirrors_pure _
  · exact mirrors_pure _

/-- A withdrawal mirrors itself. -/
theorem mirrors_withdraw : Mirrors view (withdraw side r) (withdraw side r) := by
  refine mirrors_checkSide.bind ?_
  rintro (_ | error)
  · exact mirrors_current fun _ => (mirrors_onLedger _).bind fun _ =>
      (mirrors_log _).bind fun _ => mirrors_pure _
  · exact mirrors_pure _

/-- A load mirrors itself. -/
theorem mirrors_load : Mirrors view (load side r) (load side r) := by
  refine mirrors_checkSide.bind ?_
  rintro (_ | error)
  · refine mirrors_current fun d => .ite ((mirrors_log _).bind fun _ => mirrors_pure _)
      (Action.Mirrors.bind ?_ fun _ => mirrors_pure _)
    exact mirrors_current fun d => .ite mirrors_parkStopLoss mirrors_rest
  · exact mirrors_pure _

/-- A replay of trades mirrors itself. -/
theorem mirrors_loadTrades (trades : List Trade) :
    Mirrors view (loadTrades trades) (loadTrades trades) := by
  refine mirrors_current fun d => (mirrors_log _).bind fun _ => Action.Mirrors.bind
    (.forM (fun _ => mirrors_onLedger _) _) fun _ => ?_
  cases (trades.mergeSort fun a b => a.createdAt ≤ b.createdAt).getLast? with
  | none => exact mirrors_pure _
  | some latest => exact mirrors_changeBook _

/-- A start is mirrored if settlement is. -/
theorem mirrors_start (h : T.Mirrors view S) : Mirrors view (start T) (start S) := by
  refine mirrors_current ?_
  intro d
  simp only [book_seen]
  cases d.book.phase with
  | waiting submissions =>
    refine (mirrors_enter _).bind fun _ => (mirrors_reconcile h).attempt.bind ?_
    rintro (cause | ⟨⟩)
    · exact (mirrors_takeSubmissions h _).bind fun _ => mirrors_pure _
    · exact (mirrors_enter _).bind fun _ => (mirrors_log _).bind fun _ =>
        (mirrors_takeSubmissions h _).bind fun _ => mirrors_pure _
  | running => exact mirrors_pure _
  | crashed cause => exact mirrors_pure _
  | stopped => exact mirrors_pure _

/-- A stop mirrors itself. -/
theorem mirrors_shutdown : Mirrors view shutdown shutdown := by
  refine mirrors_current ?_
  intro d
  simp only [book_seen]
  cases d.book.phase with
  | waiting submissions => exact mirrors_pure _
  | running => exact (mirrors_log _).bind fun _ => (mirrors_enter _).bind fun _ => mirrors_pure _
  | crashed cause =>
    exact (mirrors_log _).bind fun _ => (mirrors_enter _).bind fun _ => mirrors_pure _
  | stopped => exact mirrors_pure _

/-- Giving up mirrors itself. -/
theorem mirrors_abandon : Mirrors view abandon abandon := by
  refine mirrors_current ?_
  intro d
  simp only [book_seen]
  cases d.book.phase with
  | waiting submissions => exact (mirrors_enter _).bind fun _ => mirrors_pure _
  | running => exact mirrors_pure _
  | crashed cause => exact mirrors_pure _
  | stopped => exact mirrors_pure _

end Desk

end Bourse
