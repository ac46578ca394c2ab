import Bourse.Proofs.Book.Rounds
import Bourse.Proofs.Book.Trade
import Bourse.Proofs.Respects

/-!
# What everything that a book does has in common

`Desk.Matching S R` lists the single things that matching does to a desk: it changes the queues and
the ledger, it lets settlement fill a pair and then shows the price of the trade as the last one,
it activates a stop-loss and reports it. A book also changes its phase (`Desk.Rules`). If all of it
leads to related desks then so does everything that a book does, one lemma a function, whether or
not it breaks off.
-/

namespace Bourse.Desk

open Bourse.Action

variable {σ α : Type} {S : Settlement σ} {R : Desk σ → Desk σ → Prop} {side : Side} {user : UserId}
  {r ask bid : OrderRef} {price : Price} {exclude : Option UserId} {incoming : Option Side}

/-! ## Calls that do not match -/

/-- Checking a side changes nothing. -/
theorem respects_checkSide (hR : Chains R) : Respects R (checkSide side r) :=
  Respects.current fun _ => .pure hR _

/-- Withdrawing an order leads to a related desk if all changes of the ledger do. -/
theorem respects_withdraw (hR : Chains R)
    (hledger : ∀ act : Action Ledger Unit, Respects R (onLedger act)) :
    Respects R (withdraw side r) := by
  refine (respects_checkSide hR).bind hR ?_
  rintro (_ | error)
  · exact Respects.current fun _ => (hledger _).bind hR fun _ =>
      (Respects.log hR _).bind hR fun _ => .pure hR _
  · exact .pure hR _

/-- Loading an order leads to a related desk if resting and parking do. -/
theorem respects_load (hR : Chains R) (hrest : ∀ {side r}, Respects R (rest side r))
    (hpark : ∀ {r}, Respects R (parkStopLoss r)) : Respects R (load side r) := by
  refine (respects_checkSide hR).bind hR ?_
  rintro (_ | error)
  · refine Respects.current fun d => .ite ?_ (Respects.bind hR ?_ fun _ => .pure hR _)
    · exact (Respects.log hR _).bind hR fun _ => .pure hR _
    · exact Respects.current fun d => .ite hpark hrest
  · exact .pure hR _

/-- Replaying trades leads to a related desk if changes of the ledger and the last price do. -/
theorem respects_loadTrades (hR : Chains R)
    (hledger : ∀ act : Action Ledger Unit, Respects R (onLedger act))
    (hprice : ∀ (d : Desk σ) (p : Price), R d { d with book := { d.book with lastPrice := p } })
    (trades : List Trade) : Respects R (loadTrades trades) := by
  refine Respects.current fun d => (Respects.log hR _).bind hR fun _ =>
    Respects.bind hR (.forM hR (fun _ => hledger _) _) fun _ => ?_
  cases (trades.mergeSort fun a b => a.createdAt ≤ b.createdAt).getLast? with
  | none => exact .pure hR _
  | some latest => exact .change fun d => hprice d _

/-- The submitters that wait give up: at most the phase changes. -/
theorem respects_abandon_of_enter (hR : Chains R) (henter : ∀ p, Respects R (enter p)) :
    Respects R abandon := by
  refine Respects.current fun d => ?_
  cases d.book.phase with
  | waiting submissions => exact (henter _).bind hR fun _ => .pure hR _
  | running => exact .pure hR _
  | crashed cause => exact .pure hR _
  | stopped => exact .pure hR _

/-- The book is stopped: at most the phase changes. -/
theorem respects_shutdown_of_enter (hR : Chains R) (henter : ∀ p, Respects R (enter p)) :
    Respects R shutdown := by
  refine Respects.current fun d => ?_
  cases d.book.phase with
  | waiting submissions => exact .pure hR _
  | running =>
    exact (Respects.log hR _).bind hR fun _ => (henter _).bind hR fun _ => .pure hR _
  | crashed cause =>
    exact (Respects.log hR _).bind hR fun _ => (henter _).bind hR fun _ => .pure hR _
  | stopped => exact .pure hR _

/-! ## Matching -/

/-- The single things that matching does lead to a related desk. -/
structure Matching (S : Settlement σ) (R : Desk σ → Desk σ → Prop) : Prop extends Chains R where
  queue : ∀ (d : Desk σ) (q : Queue) (side : Side), R d { d with book := d.book.withQueue q side }
  dormant : ∀ (d : Desk σ) (q : Queue) (side : Side),
    R d { d with book := d.book.withStopLossQueue q side }
  ledger : ∀ (d : Desk σ) (l : Ledger), R d { d with book := { d.book with ledger := l } }
  /-- A dormant stop-loss becomes active. -/
  activate : ∀ (d : Desk σ) (r : OrderRef), R d { d with office := ⟨d.office.orders.modify r
    (·.activateStopLoss.2), d.office.backend⟩ }
  note : ∀ {d : Desk σ} {r : OrderRef} {answer : Option Unit} {o : Office σ},
    (S.stopLossTriggered r).Leads d.office answer o → R d { d with office := o }
  /-- Settlement answers, and the last price is that of the trade, if there was one. -/
  fill : ∀ {d : Desk σ} {ask bid : OrderRef} {q : Quantity} {out : FillOutcome} {o : Office σ},
    (S.fill ask bid (d.dealPrice ask bid) q).Leads d.office (some out) o →
    R d ⟨o, { d.book with lastPrice := (out.trade.map (·.price)).getD d.book.lastPrice }⟩
  /-- Settlement breaks off. -/
  breakOff : ∀ {d : Desk σ} {ask bid : OrderRef} {q : Quantity} {o : Office σ},
    (S.fill ask bid (d.dealPrice ask bid) q).Leads d.office none o → R d { d with office := o }

/-- The single things that a book does lead to a related desk. -/
structure Rules (S : Settlement σ) (R : Desk σ → Desk σ → Prop) : Prop extends Matching S R where
  phase : ∀ (d : Desk σ) (p : Phase), R d { d with book := { d.book with phase := p } }

namespace Matching

variable (h : Matching S R)

include h

/-- Changing a queue of resting orders leads to a related desk. -/
theorem changeQueue (f : Queue → Queue) : Respects R (changeQueue side f) :=
  fun s => h.queue s.state _ side

/-- Changing a queue of dormant stop-losses leads to a related desk. -/
theorem changeStopLossQueue (f : Queue → Queue) : Respects R (changeStopLossQueue side f) :=
  fun s => h.dormant s.state _ side

/-- What the ledger does leads to a related desk. -/
theorem onLedger (act : Action Ledger α) : Respects R (onLedger act) :=
  .within fun _ => (Ends.any _ _).mono (fun _ _ _ => h.ledger _ _) fun _ _ _ => h.ledger _ _

/-- Letting an order rest leads to a related desk. -/
theorem rest : Respects R (rest side r) :=
  Respects.current fun _ => (h.changeQueue _).bind h.toChains fun _ => h.onLedger _

/-- Putting a stop-loss aside leads to a related desk. -/
theorem parkStopLoss : Respects R (parkStopLoss r) :=
  Respects.current fun _ => (h.changeStopLossQueue _).bind h.toChains fun _ => .log h.toChains _

/-- Each step of a search leads to a related desk. -/
theorem topMatching (n : Nat) (aside : List Item) :
    Respects R (topMatching side exclude n aside) := by
  induction n generalizing aside with
  | zero => exact .pure h.toChains _
  | succ n ih =>
    refine Respects.current fun d => ?_
    cases (d.book.queue side).headItem? with
    | none => exact .pure h.toChains _
    | some head =>
      refine .ite ?_ (.ite ?_ (.pure h.toChains _))
      · exact (h.changeQueue _).bind h.toChains fun _ => (h.onLedger _).bind h.toChains fun _ =>
          (Respects.log h.toChains _).bind h.toChains fun _ => ih _
      · exact (h.changeQueue _).bind h.toChains fun _ => ih _

/-- A search leads to a related desk. -/
theorem findTop : Respects R (findTop side exclude) := Respects.current fun _ => h.topMatching _ _

/-- Putting back what was set aside leads to a related desk. -/
theorem restore (aside : List Item) : Respects R (restore side aside) := h.changeQueue _

/-- Taking a finished order off its queue leads to a related desk. -/
theorem popResting : Respects R (popResting side r) :=
  Respects.current fun _ => .ite (h.changeQueue _) (.log h.toChains _)

/-- Bringing the depth of one side in line leads to a related desk. -/
theorem settleShown (id : OrderId) (out : FillOutcome) :
    Respects R (settleShown incoming side id out) := by
  intro s
  rw [ends_settleShown]
  exact (Ends.any _ _).mono (fun _ _ _ => h.ledger _ _) fun _ _ _ => h.ledger _ _

/-- What a match step does after settlement has answered. -/
theorem recordDeal (i : InstrumentId) (a b : OrderId) {trade : Option Trade} {d : Desk σ}
    {s : Logged (Desk σ)} (hs : R d ⟨s.state.office, { s.state.book with
      lastPrice := (trade.map (·.price)).getD s.state.book.lastPrice }⟩) :
    Ends (recordDeal i a b trade) s (fun _ t => R d t.state) (fun _ _ => False) := by
  refine ends_recordDeal fun j _ => ?_
  have hrecord : Ends (Ledger.recordDeal trade) ⟨s.state.book.ledger, j⟩ (fun _ _ => True)
      (fun _ _ => False) := by
    cases trade <;> trivial
  exact hrecord.mono (fun _ u _ => h.trans hs (h.ledger _ u.state)) fun _ _ hf => hf.elim

/-- Once settlement has answered, the rest of a match step leads to related desks. -/
theorem afterFill (i : InstrumentId) (a b : OrderId) (out : FillOutcome) {d : Desk σ}
    {s : Logged (Desk σ)} (hs : R d ⟨s.state.office, { s.state.book with
      lastPrice := (out.trade.map (·.price)).getD s.state.book.lastPrice }⟩) :
    Ends (Desk.recordDeal i a b out.trade >>= fun _ =>
        Desk.settleShown incoming .ask a out >>= fun _ =>
      Desk.settleShown incoming .bid b out >>= fun _ => pure (answer a b out)) s
      (fun _ t => R d t.state) (fun _ t => R d t.state) := by
  refine ends_bind.2 ((h.recordDeal i a b hs).mono ?_ fun _ _ hf => hf.elim)
  intro _ t ht
  have hshown : Respects R (Desk.settleShown incoming .ask a out >>= fun _ =>
      Desk.settleShown incoming .bid b out >>= fun _ => pure (answer a b out)) :=
    (h.settleShown _ _).bind h.toChains fun _ => (h.settleShown _ _).bind h.toChains fun _ =>
      .pure h.toChains _
  exact (hshown t).mono (fun _ _ hu => h.trans ht hu) fun _ _ hu => h.trans ht hu

/-- A match step leads to a related desk, also where it breaks off. -/
theorem makeTrade : Respects R (makeTrade S ask bid incoming) := by
  intro s
  rw [makeTrade_eq, ends_bind, ends_current, ends_bind, ends_onOffice]
  exact (ends_leads _ _).mono (fun out _ hl => h.afterFill _ _ _ out (h.fill hl)) fun _ _ hl =>
    h.breakOff hl

/-- Activating stop-losses leads to a related desk. -/
theorem takeReached (n : Nat) : Respects R (takeReached side price n) := by
  induction n with
  | zero => exact .pure h.toChains _
  | succ n ih =>
    refine Respects.current fun d => ?_
    dsimp only
    obtain ⟨_ | item, q⟩ := (d.book.stopLossQueue side).popIf fun r =>
      (d.order r).closed || (d.order r).isReachedBy price
    · exact .pure h.toChains _
    · refine (h.changeStopLossQueue _).bind h.toChains fun _ => .ite ?_ ?_
      · exact (Respects.log h.toChains _).bind h.toChains fun _ => ih
      · have hactivate : Respects R (onOffice (Office.onOrders
            (Action.change (·.modify item.order (·.activateStopLoss.2))))) :=
          .within fun t => h.activate t.state item.order
        exact hactivate.bind h.toChains fun _ => ih.bind h.toChains fun _ => .pure h.toChains _

/-- A stop-loss that joins the resting orders leads to a related desk. -/
theorem promote : Respects R (promote S price r) := by
  have hnote : Respects R (onOffice (S.stopLossTriggered r)) :=
    .within fun t => (ends_leads _ _).mono (fun _ _ hl => h.note hl) fun _ _ hl => h.note hl
  exact Respects.current fun _ => (Respects.log h.toChains _).bind h.toChains fun _ =>
    hnote.bind h.toChains fun _ => Respects.current fun _ => h.changeQueue _

/-- What a trade triggers leads to a related desk. -/
theorem triggerAfter (trade : Option Trade) : Respects R (triggerAfter S trade) := by
  cases trade with
  | none => exact .pure h.toChains _
  | some t =>
    exact Respects.current fun _ => (h.takeReached _).bind h.toChains fun _ =>
      Respects.current fun _ => (h.takeReached _).bind h.toChains fun _ =>
        (Respects.forM h.toChains (fun _ => h.promote) _).bind h.toChains fun _ =>
          .pure h.toChains _

/-- The end of a round leads to a related desk. -/
theorem endRound (aside : List Item) (trade : Option Trade) (goesOn : Bool) :
    Respects R (Desk.restore side aside >>= fun _ => Desk.triggerAfter S trade >>= fun fired =>
      pure (⟨fired, goesOn⟩ : RoundResult)) :=
  (h.restore _).bind h.toChains fun _ => (h.triggerAfter _).bind h.toChains fun _ =>
    .pure h.toChains _

/-- A round of matching leads to a related desk. -/
theorem matchRound : Respects R (matchRound S side user r) := by
  refine Respects.current fun d => .ite (.pure h.toChains _) (h.findTop.bind h.toChains ?_)
  rintro ⟨_ | resting, aside⟩
  · exact (h.restore _).bind h.toChains fun _ => .pure h.toChains _
  refine Respects.current fun d => .ite ?_ (h.makeTrade.bind h.toChains ?_)
  · exact (h.restore _).bind h.toChains fun _ => .pure h.toChains _
  rintro (fault | step)
  · exact (Respects.log h.toChains _).bind h.toChains fun _ => h.endRound _ _ _
  · exact .ite (h.popResting.bind h.toChains fun _ => h.endRound _ _ _) (h.endRound _ _ _)

/-- A round of reconciling leads to a related desk. -/
theorem reconcileRound : Respects R (reconcileRound S) := by
  refine h.findTop.bind h.toChains ?_
  rintro ⟨_ | ask, -⟩
  · exact .pure h.toChains _
  refine Respects.current fun d => h.findTop.bind h.toChains ?_
  rintro ⟨_ | bid, aside⟩
  · exact (h.restore _).bind h.toChains fun _ => .pure h.toChains _
  refine Respects.current fun d => .ite ?_ (h.makeTrade.bind h.toChains ?_)
  · exact (h.restore _).bind h.toChains fun _ => .pure h.toChains _
  rintro (fault | step)
  · exact (Respects.log h.toChains _).bind h.toChains fun _ => h.endRound _ _ _
  · refine .ite (h.popResting.bind h.toChains fun _ => ?_) ?_
    · exact .ite (h.popResting.bind h.toChains fun _ => h.endRound _ _ _) (h.endRound _ _ _)
    · exact .ite (h.popResting.bind h.toChains fun _ => h.endRound _ _ _) (h.endRound _ _ _)

/-- Matching an order leads to a related desk, by induction on the limit. -/
theorem matchIncoming (limit : Nat) (activated : Bool) :
    Respects R (matchIncoming S side user r limit activated) := by
  induction limit generalizing activated with
  | zero => exact .fail h.toChains _
  | succ limit ih =>
    rw [matchIncoming_succ]
    exact h.matchRound.bind h.toChains fun _ => .ite (ih _) (.pure h.toChains _)

/-- Reconciling leads to a related desk, by induction on the limit. -/
theorem reconcileSteps (limit : Nat) : Respects R (reconcileSteps S limit) := by
  induction limit with
  | zero => exact .fail h.toChains _
  | succ limit ih =>
    rw [reconcileSteps_succ]
    exact h.reconcileRound.bind h.toChains fun _ => .ite ih (.pure h.toChains _)

/-- Reconciling the whole book leads to a related desk. -/
theorem reconcile : Respects R (reconcile S) := Respects.current fun _ => h.reconcileSteps _

/-- What is left of an order rests on a related desk. -/
theorem restLeft : Respects R (restLeft side r) :=
  Respects.current fun _ => .ite h.rest (.pure h.toChains _)

/-- Processing an order leads to a related desk. -/
theorem process : Respects R (process S r) := by
  rw [process_eq]
  exact Respects.current fun _ => (h.matchIncoming _ _).bind h.toChains fun _ =>
    h.restLeft.bind h.toChains fun _ => .ite h.reconcile (.pure h.toChains _)

/-! ## Calls that leave the phase -/

/-- Withdrawing an order leads to a related desk. -/
theorem withdraw : Respects R (withdraw side r) := respects_withdraw h.toChains h.onLedger

/-- Loading an order leads to a related desk. -/
theorem load : Respects R (load side r) := respects_load h.toChains h.rest h.parkStopLoss

/-- Waiting for all that was submitted changes nothing. -/
theorem flush : Respects R flush := by
  refine Respects.current fun d => ?_
  cases d.book.phase <;> exact .pure h.toChains _

/-- Replayed trades may set the last price. -/
theorem loadTrades (hprice : ∀ (d : Desk σ) (p : Price),
    R d { d with book := { d.book with lastPrice := p } }) (trades : List Trade) :
    Respects R (loadTrades trades) := respects_loadTrades h.toChains h.onLedger hprice trades

end Matching

/-! ## Calls that change the phase -/

namespace Rules

variable (h : Rules S R)

include h

/-- Entering a phase leads to a related desk. -/
theorem enter (p : Phase) : Respects R (enter p) := .change fun d => h.phase d p

/-- Matching one order leads to a related desk, also where the book crashes. -/
theorem runTask : Respects R (runTask S r) := by
  refine h.process.attempt.bind h.toChains ?_
  rintro (cause | ⟨⟩)
  · exact h.enter _
  · exact .pure h.toChains _

/-- Matching one submission leads to a related desk. -/
theorem takeOne (sub : Submission) : Respects R (takeOne S sub) := by
  refine Respects.current fun d => .ite (Respects.bind h.toChains ?_ fun _ => h.runTask)
    (.pure h.toChains _)
  exact .ite (.log h.toChains _) (.pure h.toChains _)

/-- Matching the submissions that waited leads to a related desk. -/
theorem takeSubmissions (submissions : List Submission) :
    Respects R (takeSubmissions S submissions) := by
  induction submissions with
  | nil => exact .pure h.toChains _
  | cons sub rest ih =>
    rw [takeSubmissions_cons]
    exact Respects.current fun d => (h.takeOne sub).bind h.toChains fun _ =>
      ih.bind h.toChains fun _ => .pure h.toChains _

/-- Handing an order in leads to a related desk. -/
theorem submit : Respects R (submit S side r) := by
  refine (respects_checkSide h.toChains).bind h.toChains ?_
  rintro (_ | error)
  · refine Respects.current fun d => .ite ?_ (.ite ?_ ?_)
    · exact (Respects.log h.toChains _).bind h.toChains fun _ => .pure h.toChains _
    · exact h.parkStopLoss.bind h.toChains fun _ => .pure h.toChains _
    · cases d.book.phase with
      | waiting submissions => exact (h.enter _).bind h.toChains fun _ => .pure h.toChains _
      | running => exact h.runTask.bind h.toChains fun _ => .pure h.toChains _
      | crashed cause => exact .pure h.toChains _
      | stopped => exact .pure h.toChains _
  · exact .pure h.toChains _

/-- Starting the book leads to a related desk. -/
theorem start : Respects R (start S) := by
  refine Respects.current fun d => ?_
  cases d.book.phase with
  | waiting submissions =>
    refine (h.enter _).bind h.toChains fun _ => h.reconcile.attempt.bind h.toChains ?_
    rintro (cause | ⟨⟩)
    · exact (h.takeSubmissions _).bind h.toChains fun _ => .pure h.toChains _
    · exact (h.enter _).bind h.toChains fun _ =>
        (Respects.log h.toChains _).bind h.toChains fun _ =>
        (h.takeSubmissions _).bind h.toChains fun _ => .pure h.toChains _
  | running => exact .pure h.toChains _
  | crashed cause => exact .pure h.toChains _
  | stopped => exact .pure h.toChains _

/-- Stopping the book leads to a related desk. -/
theorem shutdown : Respects R shutdown := respects_shutdown_of_enter h.toChains h.enter

/-- Those who give up leave a related desk. -/
theorem abandon : Respects R abandon := respects_abandon_of_enter h.toChains h.enter

end Rules

end Bourse.Desk
