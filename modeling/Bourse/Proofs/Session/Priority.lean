import Bourse.Proofs.Book.Priority
import Bourse.Proofs.Session.Invariant

/-!
# Price priority in sessions

Every trade of a session was made in a round of matching, and is the deal of the best pair that the
round could choose when it began (`Session.trades_by_rank`). What is best is said by the orders:
each that is queued was put in by a piece of work of the session, and counts as what it was then.
The pieces of work are those of the orders that a session loads and processes and of the
reconciliation at its start: `Desk.TakeBegins` and `Session.CallBegins` say call by call when one
begins.

The other calls leave the office and the queues of resting orders as they are (`Desk.Undisturbed`),
or change there neither a trade nor a queue.
-/

namespace Bourse

open Bourse.Action

namespace Desk

variable {s t : Logged (Desk Simulated)} {r : OrderRef} {side : Side} {known : OrderRef → Prop}

/-! ## Calls that match nothing -/

/-- The office and the queues of resting orders are as they were. -/
structure Undisturbed {σ : Type} (d d' : Desk σ) : Prop where
  office : d'.office = d.office
  queue : ∀ side, d'.book.queue side = d.book.queue side

/-- Stretches that disturb nothing follow each other. -/
theorem chains_undisturbed {σ : Type} : Chains (Undisturbed (σ := σ)) where
  refl _ := ⟨rfl, fun _ => rfl⟩
  trans h h' := ⟨h'.office.trans h.office, fun side => (h'.queue side).trans (h.queue side)⟩

/-- The ledger disturbs neither orders nor queues. -/
theorem undisturbed_onLedger {σ α : Type} (act : Action Ledger α) :
    Respects Undisturbed (onLedger act : Action (Desk σ) α) :=
  .within fun _ => (Ends.any _ _).mono (fun _ _ _ => ⟨rfl, fun _ => Book.queue_withLedger ..⟩)
    fun _ _ _ => ⟨rfl, fun _ => Book.queue_withLedger ..⟩

/-- Another phase disturbs neither orders nor queues. -/
theorem undisturbed_enter {σ : Type} (p : Phase) :
    Respects Undisturbed (enter p : Action (Desk σ) Unit) :=
  fun _ => ⟨rfl, fun side => by cases side <;> rfl⟩

/-- Replaying trades disturbs neither orders nor queues. -/
theorem undisturbed_loadTrades {σ : Type} (trades : List Trade) :
    Respects Undisturbed (loadTrades trades : Action (Desk σ) Unit) :=
  respects_loadTrades chains_undisturbed undisturbed_onLedger
    (fun _ _ => ⟨rfl, fun side => by cases side <;> rfl⟩) trades

/-- A withdrawal disturbs neither orders nor queues. -/
theorem undisturbed_withdraw {σ : Type} :
    Respects Undisturbed (withdraw side r : Action (Desk σ) _) :=
  respects_withdraw chains_undisturbed undisturbed_onLedger

/-- Those who give up disturb neither orders nor queues. -/
theorem undisturbed_abandon {σ : Type} : Respects Undisturbed (abandon : Action (Desk σ) _) :=
  respects_abandon_of_enter chains_undisturbed undisturbed_enter

/-- Stopping the book disturbs neither orders nor queues. -/
theorem undisturbed_shutdown {σ : Type} : Respects Undisturbed (shutdown : Action (Desk σ) _) :=
  respects_shutdown_of_enter chains_undisturbed undisturbed_enter

/-! ## Calls that match -/

/-- Matching one order makes its trades in the rounds that it begins. -/
theorem led_runTask (hd : Sound known s.state) (hr : known r)
    (ht : (s.state.order r).type ≠ .stopLoss) :
    Ends (runTask Simulated.settlement r) s (fun _ t => Led known (ProcessBegins r s) s t)
      (fun _ _ => False) := by
  simp only [runTask, ends_bind, ends_attempt]
  refine (led_process hd hr ht).mono ?_ ?_
  · exact fun _ t hled => hled
  · exact fun f t hled => hled.enter (p := .crashed f) (List.nil_subset _) t.journal

/-- A piece of work begins while submissions are matched: while one of them is processed. -/
inductive TakeBegins : List Submission → Logged (Desk Simulated) → Round →
    Logged (Desk Simulated) → Prop
  | here {sub : Submission} {rest : List Submission} {s t m : Logged (Desk Simulated)} {k : Round}
    (running : s.state.book.isRunning = true) (announced : announce s.state sub s = .ok () t)
    (begins : ProcessBegins sub.order t k m) : TakeBegins (sub :: rest) s k m
  | later {sub : Submission} {rest : List Submission} {s t m : Logged (Desk Simulated)} {k : Round}
    (taken : takeOne Simulated.settlement sub s = .ok () t) (begins : TakeBegins rest t k m) :
    TakeBegins (sub :: rest) s k m

/-- Matching one submission makes its trades in the rounds that it begins. -/
theorem led_takeOne {sub : Submission} {rest : List Submission}
    (hd : Sound known s.state) (hr : known sub.order)
    (ht : (s.state.order sub.order).type ≠ .stopLoss) :
    Ends (takeOne Simulated.settlement sub) s
      (fun _ t => Led known (TakeBegins (sub :: rest) s) s t) (fun _ _ => False) := by
  simp only [takeOne, ends_bind, ends_current]
  split
  · next hrun =>
    have hann : Ends (announce s.state sub) s (fun _ t => t.state = s.state)
        (fun _ _ => False) := by
      unfold announce
      split <;> exact rfl
    rw [ends_bind]
    refine hann.actual.mono ?_ fun _ _ hf => hf.2
    rintro _ ⟨t, j⟩ ⟨hann, rfl⟩
    have hled : Led known (TakeBegins (sub :: rest) s) s ⟨s.state, j⟩ :=
      .of_same (.refl _) hd rfl rfl fun _ => rfl
    refine (led_runTask (s := ⟨s.state, j⟩) hd hr ht).imp ?_
    exact fun _ u hu => hled.trans (hu.mono fun _ _ => .here hrun hann)
  · exact .refl hd

/-- Matching the submissions that waited makes its trades in their rounds, by induction on their
list. -/
theorem led_takeSubmissions (submissions : List Submission) (hd : Sound known s.state)
    (hsub : ∀ sub ∈ submissions, known sub.order ∧ (s.state.order sub.order).type ≠ .stopLoss) :
    Ends (takeSubmissions Simulated.settlement submissions) s
      (fun _ t => Led known (TakeBegins submissions s) s t) (fun _ _ => False) := by
  induction submissions generalizing s with
  | nil => exact .refl hd
  | cons sub rest ih =>
    obtain ⟨hr, ht⟩ := hsub sub List.mem_cons_self
    have hone : Ends (takeOne Simulated.settlement sub) s
        (fun _ t => Led known (TakeBegins (sub :: rest) s) s t) (fun _ _ => False) :=
      led_takeOne hd hr ht
    rw [takeSubmissions_cons, ends_bind, ends_current, ends_bind]
    refine hone.actual.mono ?_ fun _ _ hf => hf.2
    rintro _ t ⟨htaken, hled⟩
    rw [ends_bind]
    refine (ih hled.sound ?_).imp ?_
    · intro sub' hmem
      obtain ⟨hr', ht'⟩ := hsub sub' (List.mem_cons_of_mem _ hmem)
      exact ⟨hr', (hled.orders _).type_ne ht'⟩
    · exact fun _ u hu => hled.trans (hu.mono fun _ _ => .later htaken)

end Desk

namespace Session

open Desk

variable {s : Session} {c : Call} {known : OrderRef → Prop}

/-- A piece of work begins while a call is carried out. -/
inductive CallBegins (s : Session) : Call → Round → Logged (Desk Simulated) → Prop
  | loading {side : Side} {r : OrderRef} (side_eq : (s.state.order r).side = side)
    (closed : (s.state.order r).closed = false) (type : (s.state.order r).type ≠ .stopLoss) :
    CallBegins s (.load side r) (.entering side r) s.desk
  | reconciling {submissions : List Submission} {t m : Logged (Desk Simulated)} {k : Round}
    (waiting : s.state.book.phase = .waiting submissions)
    (entered : enter .stopped s.desk = .ok () t) (begins : ReconcileBegins t k m) :
    CallBegins s .start k m
  | taking {submissions : List Submission} {t u v m : Logged (Desk Simulated)} {k : Round}
    (waiting : s.state.book.phase = .waiting submissions)
    (entered : enter .stopped s.desk = .ok () t)
    (reconciled : reconcile Simulated.settlement t = .ok () u)
    (opened : enter .running u = .ok () v)
    (begins : TakeBegins submissions
      ⟨v.state, v.journal.push (.matchingStarted s.state.book.instrument)⟩ k m) :
    CallBegins s .start k m
  | matching {side : Side} {r : OrderRef} {m : Logged (Desk Simulated)} {k : Round}
    (running : s.state.book.phase = .running) (side_eq : (s.state.order r).side = side)
    (closed : (s.state.order r).closed = false) (type : (s.state.order r).type ≠ .stopLoss)
    (begins : ProcessBegins r s.desk k m) : CallBegins s (.submit side r) k m

/-- A piece of work begins in the course of a session. -/
def RunBegins (s : Session) (calls : List Call) (k : Round) (m : Logged (Desk Simulated)) : Prop :=
  ∃ done c rest, calls = done ++ c :: rest ∧ CallBegins (s.run done) c k m

/-- Starting the book makes its trades in the rounds that it begins. -/
theorem led_start (hd : Sound known s.state)
    (hwait : ∀ r ∈ s.waiting, known r ∧ (s.state.order r).type ≠ .stopLoss) :
    Ends (start Simulated.settlement) s.desk (fun _ t => Led known (CallBegins s .start) s.desk t)
      (fun _ _ => False) := by
  simp only [start, ends_bind, ends_current]
  cases hphase : s.desk.state.book.phase with
  | waiting submissions =>
    have hsub : ∀ sub ∈ submissions,
        known sub.order ∧ (s.state.order sub.order).type ≠ .stopLoss := by
      intro sub hmem
      refine hwait sub.order ?_
      show sub.order ∈ s.desk.state.book.phase.orders
      rw [hphase]
      exact List.mem_map_of_mem hmem
    have hstopped : Led known (CallBegins s .start) s.desk _ :=
      (Led.refl hd).enter (p := .stopped) (List.nil_subset _) s.desk.journal
    simp only [ends_bind, ends_attempt]
    refine ((led_reconcile hstopped.sound).and (ends_reconcile (upkeep_true known)
      hstopped.sound trivial)).actual.mono ?_ ?_
    · rintro _ t ⟨hreconciled, hled, -⟩
      have hled : Led known (CallBegins s .start) s.desk t :=
        hstopped.trans (hled.mono fun _ _ => .reconciling hphase rfl)
      have hrunning := hled.enter (p := .running) (List.nil_subset _)
        (t.journal.push (.matchingStarted s.desk.state.book.instrument))
      refine (led_takeSubmissions submissions hrunning.sound ?_).imp ?_
      · exact fun sub hmem => ⟨(hsub sub hmem).1, (hrunning.orders _).type_ne (hsub sub hmem).2⟩
      · exact fun _ u hu => hrunning.trans (hu.mono fun _ _ => .taking hphase rfl hreconciled rfl)
    · rintro f t ⟨-, hled, hf⟩
      have hp : t.state.book.phase = .stopped := hf.onward.phase
      refine (ends_takeSubmissions_of_not submissions (by rw [Book.isRunning, hp]; rfl)).imp ?_
      rintro _ u rfl
      exact hstopped.trans (hled.mono fun _ _ => .reconciling hphase rfl)
  | running => exact .refl hd
  | crashed cause => exact .refl hd
  | stopped => exact .refl hd

/-- Loading an order that is not a stop-loss lets it rest. -/
theorem led_load {side : Side} {r : OrderRef} (hd : Sound known s.state) (hr : known r) :
    Ends (load side r) s.desk (fun _ t => Led known (CallBegins s (.load side r)) s.desk t)
      (fun _ t => Led known (CallBegins s (.load side r)) s.desk t) := by
  simp only [load, loadOld, checkSide, ends_bind, ends_current, ends_pure]
  by_cases hside : (s.desk.state.order r).side = side
  · simp only [hside, if_true, ends_bind, ends_current]
    split
    · exact .of_same (.refl _) hd rfl rfl fun _ => rfl
    · next hc =>
      simp only [ends_bind, ends_current, ends_pure]
      split
      · simp only [parkStopLoss, ends_bind, ends_current, ends_changeStopLossQueue, ends_log]
        exact .of_same (.of_office rfl (Book.phase_withStopLossQueue ..)) (hd.parked hr) rfl
          (Book.lastPrice_withStopLossQueue ..) fun _ => Book.queue_withStopLossQueue ..
      · next ht =>
        subst hside
        exact led_rest hd ⟨hr, rfl, ht⟩ (.loading rfl (Bool.eq_false_iff.2 hc) ht)
  · simp only [hside, if_false]
    exact .refl hd

/-- Handing in an order matches it if the book runs, and queues nothing if it does not. -/
theorem made_submit {side : Side} {r : OrderRef} (hd : Sound known s.state) (hr : known r) :
    Ends (submit Simulated.settlement side r) s.desk
      (fun _ t => MadeIn (fun k m => CallBegins s (.submit side r) k m ∧
          Ready known (CallBegins s (.submit side r)) s.desk k m) s.state.trades t.state.trades ∧
        Supplied (CallBegins s (.submit side r)) s.state t.state)
      (fun _ _ => False) := by
  have hsame : ∀ {t : Logged (Desk Simulated)}, t.state.trades = s.state.trades →
      (∀ side, t.state.book.queue side = s.state.book.queue side) →
      MadeIn (fun k m => CallBegins s (.submit side r) k m ∧
          Ready known (CallBegins s (.submit side r)) s.desk k m) s.state.trades t.state.trades ∧
        Supplied (CallBegins s (.submit side r)) s.state t.state :=
    fun htrades hqueue => ⟨htrades ▸ .refl _, .of_queue hqueue⟩
  simp only [submit, checkSide, ends_bind, ends_current, ends_pure]
  by_cases hside : (s.desk.state.order r).side = side
  · simp only [hside, if_true, ends_bind, ends_current]
    split
    · exact hsame rfl fun _ => rfl
    · next hc =>
      split
      · exact hsame rfl fun _ => Book.queue_withStopLossQueue ..
      · next ht =>
        cases hphase : s.desk.state.book.phase with
        | waiting submissions => exact hsame rfl fun side => by cases side <;> rfl
        | running =>
          simp only [ends_bind]
          refine (led_runTask hd hr ht).imp fun _ t hled => ?_
          have hled : Led known (CallBegins s (.submit side r)) s.desk t := hled.mono fun _ _ =>
            .matching hphase hside (Bool.eq_false_iff.2 hc) ht
          exact ⟨hled.made, hled.supplied⟩
        | crashed cause => exact hsame rfl fun _ => rfl
        | stopped => exact hsame rfl fun _ => rfl
  · simp only [hside, if_false]
    exact hsame rfl fun _ => rfl

/-- From one state of a session to another: the queues are sound, no dormant stop-loss waits for
the start, no order was taken back, the trades were made in rounds that began at these moments and
were ready then, and what came into the queues was put in at these moments. -/
structure Came (known : OrderRef → Prop) (moments ready : Round → Logged (Desk Simulated) → Prop)
    (s s' : Session) : Prop where
  sound : Sound known s'.state
  waiting : ∀ r ∈ s'.waiting, known r ∧ (s'.state.order r).type ≠ .stopLoss
  orders : s.state.office.orders.Follow s'.state.office.orders
  made : MadeIn (fun k m => moments k m ∧ ready k m) s.state.trades s'.state.trades
  supplied : Supplied moments s.state s'.state

/-- What a call comes to. -/
abbrev CameBy (known : OrderRef → Prop) (s : Session) (c : Call) (s' : Session) : Prop :=
  Came known (CallBegins s c) (Ready known (CallBegins s c) s.desk) s s'

/-- A call that makes no trade and queues nothing. -/
theorem came_of_kept {moments ready : Round → Logged (Desk Simulated) → Prop}
    {Inv : Office Simulated → Ledger → Prop}
    (hwait : ∀ r ∈ s.waiting, known r ∧ (s.state.order r).type ≠ .stopLoss)
    {t : Logged (Desk Simulated)} {g : Register} (hk : Kept known Inv s.state t.state)
    (hp : t.state.book.phase.orders ⊆ s.waiting) (htrades : t.state.trades = s.state.trades)
    (hqueue : ∀ side, t.state.book.queue side = s.state.book.queue side) :
    Came known moments ready s ⟨t, g⟩ where
  sound := hk.sound
  waiting r hr := ⟨(hwait r (hp hr)).1, (hk.orders r).type_ne (hwait r (hp hr)).2⟩
  orders := hk.orders
  made := htrades ▸ .refl _
  supplied := .of_queue hqueue

/-- A call that is led through its pieces of work. -/
theorem came_of_led {moments : Round → Logged (Desk Simulated) → Prop}
    (hwait : ∀ r ∈ s.waiting, known r ∧ (s.state.order r).type ≠ .stopLoss)
    {t : Logged (Desk Simulated)} {g : Register} (hled : Led known moments s.desk t) :
    Came known moments (Ready known moments s.desk) s ⟨t, g⟩ where
  sound := hled.sound
  waiting r hr :=
    have hr := hwait r (hled.waiting hr)
    ⟨hr.1, (hled.orders r).type_ne hr.2⟩
  orders := hled.orders
  made := hled.made
  supplied := hled.supplied

/-- A change of settlement that leaves its trades makes none and queues nothing. -/
theorem came_backend {c : Call} {f : Simulated → Simulated} (hd : Sound known s.state)
    (hwait : ∀ r ∈ s.waiting, known r ∧ (s.state.order r).type ≠ .stopLoss)
    (hf : ∀ b, (f b).trades = b.trades) :
    Ends (onOffice (Office.onBackend (Action.change f))) s.desk
      (fun _ t => ∀ g, CameBy known s c ⟨t, g⟩) (fun _ _ => False) := by
  obtain ⟨hk, -⟩ := ends_backend (keeps_true known fun _ => True) (g := .empty) hd trivial hf
  exact fun g => came_of_kept hwait hk (List.Subset.refl _) (congrArg Array.toList (hf _))
    fun _ => rfl

/-- The trades of a call are made in rounds that begin while it is carried out, and that could
begin; and so is put in what it queues. -/
theorem came_apply (hd : Sound known s.state)
    (hwait : ∀ r ∈ s.waiting, known r ∧ (s.state.order r).type ≠ .stopLoss) (c : Call)
    (hc : ∀ r, c.handed? = some r → known r) : CameBy known s c (s.apply c) := by
  obtain ⟨I, keeps, hI⟩ : ∃ I, Keeps known (fun _ => True) I (fun _ => True) ∧
      I .empty none s.state.office s.state.book.ledger :=
    ⟨fun _ _ _ _ => True, keeps_true _ _, trivial⟩
  have hfresh : ∀ r, r ∉ Register.empty.accepted := fun _ => List.not_mem_nil
  have hsame : ∀ {t : Logged (Desk Simulated)}, t.state.book.phase = s.state.book.phase →
      t.state.book.phase.orders ⊆ s.waiting := fun hp => hp ▸ List.Subset.refl _
  -- a call that disturbs neither office nor queues
  have hidle : ∀ {t : Logged (Desk Simulated)} {Inv : Office Simulated → Ledger → Prop}
      {g : Register}, Kept known Inv s.state t.state → t.state.book.phase.orders ⊆ s.waiting →
      Undisturbed s.state t.state → CameBy known s c ⟨t, g⟩ := fun hk hp hu =>
    came_of_kept hwait hk hp (congrArg (·.backend.trades.toList) hu.office) hu.queue
  unfold apply
  cases c with
  | load side r =>
    exact perform_of_ends (R := CameBy known s _) (led_load hd (hc r rfl))
      (fun _ t hled => came_of_led hwait hled) fun _ t hled => came_of_led hwait hled
  | loadTrades trades =>
    refine perform_of_ends (R := CameBy known s _)
      ((ends_loadTrades keeps trades hd hI).and (undisturbed_loadTrades trades s.desk)) ?_ ?_
    · exact fun _ t ht => hidle ht.1.1 (hsame ht.1.2) ht.2
    · exact fun _ t ht => hidle ht.1.1 (hsame ht.1.2) ht.2
  | start =>
    exact perform_of_ends (R := CameBy known s _) (led_start hd hwait)
      (fun _ t hled => came_of_led hwait hled) fun _ _ hf => hf.elim
  | submit side r =>
    refine perform_of_ends (R := CameBy known s _)
      ((ends_submit keeps hd (hc r rfl) (hfresh r) hI).and (made_submit hd (hc r rfl))) ?_
      fun _ _ hf => hf.1.elim
    rintro answer t ⟨⟨hk, hp⟩, hmade, hsupplied⟩
    have hold : ∀ r ∈ s.waiting, known r ∧ (t.state.order r).type ≠ .stopLoss :=
      fun r hr => ⟨(hwait r hr).1, (hk.orders r).type_ne (hwait r hr).2⟩
    refine ⟨hk.sound, ?_, hk.orders, hmade, hsupplied⟩
    intro r' hr'
    have hr' : r' ∈ t.state.book.phase.orders := hr'
    rcases hp with hp | ⟨-, ht, hp⟩
    · exact hold r' (by rw [hp] at hr'; exact hr')
    · rw [hp, List.mem_append, List.mem_singleton] at hr'
      rcases hr' with hr' | rfl
      · exact hold r' hr'
      · exact ⟨hc r' rfl, (hk.orders r').type_ne ht⟩
  | reject u =>
    exact perform_of_ends (R := CameBy known s _)
      (came_backend (f := (·.reject u)) hd hwait fun _ => rfl) (fun _ _ ht => ht _)
      fun _ _ hf => hf.elim
  | cancel r =>
    refine perform_of_ends (R := CameBy known s _) ((ends_cancel keeps hd hI).and
      (?_ : Ends _ _ (fun _ t => t.state.trades = s.state.trades ∧ t.state.book = s.state.book)
        fun _ _ => False)) ?_ fun _ _ hf => hf.1.elim
    · simp only [ends_onOffice, Office.onOrders, ends_within, Orders.cancel,
        ends_bind, ends_current]
      split <;> exact ⟨rfl, rfl⟩
    · exact fun _ t ht => came_of_kept hwait ht.1.1 (hsame ht.1.2) ht.2.1 fun _ => ht.2.2 ▸ rfl
  | withdraw side r =>
    refine perform_of_ends (R := CameBy known s _)
      ((ends_withdraw keeps hd trivial hI).and (undisturbed_withdraw s.desk)) ?_ ?_
    · exact fun _ t ht => hidle ht.1.1 (hsame ht.1.2) ht.2
    · exact fun _ t ht => hidle ht.1.1 (hsame ht.1.2) ht.2
  | abandon =>
    refine perform_of_ends (R := CameBy known s _) ((ends_abandon hd hI).and
      (undisturbed_abandon s.desk)) ?_ fun _ _ hf => hf.1.elim
    exact fun _ t ht => hidle ht.1.1 ht.1.2.subset ht.2
  | shutdown =>
    refine perform_of_ends (R := CameBy known s _) ((ends_shutdown hd hI).and
      (undisturbed_shutdown s.desk)) ?_ fun _ _ hf => hf.1.elim
    exact fun _ t ht => hidle ht.1.1 (ht.1.2 ▸ List.Subset.refl _) ht.2
  | tick now =>
    exact perform_of_ends (R := CameBy known s _)
      (came_backend (f := ({ · with now })) hd hwait fun _ => rfl) (fun _ _ ht => ht _)
      fun _ _ hf => hf.elim

/-- Throughout a session that hands in known orders, trades are made and orders queued by pieces of
work that begin in its course. When one begins, all that is queued was put in by those before. -/
theorem came_calls (i : Instrument) (history buffer : Nat) (os : Orders) (calls : List Call)
    (hknown : ∀ r ∈ handed calls, known r) :
    Came known (RunBegins (opening i history buffer os) calls)
      (fun _ m => Sound known m.state ∧ Supplied (RunBegins (opening i history buffer os) calls)
        (opening i history buffer os).state m.state)
      (opening i history buffer os) ((opening i history buffer os).run calls) := by
  induction calls using List.reverseRecOn with
  | nil =>
    exact ⟨sound_new .., fun _ hr => absurd hr List.not_mem_nil, .refl _, .refl _,
      .of_queue fun _ => rfl⟩
  | append_singleton calls c ih =>
    rw [handed_append] at hknown
    have ih := ih fun r hr => hknown r (List.mem_append_left _ hr)
    have hlast := came_apply ih.sound ih.waiting c fun r hr =>
      hknown r (List.mem_append_right _ (by rw [hr]; simp))
    rw [run_append]
    have hbefore : ∀ k m, RunBegins (opening i history buffer os) calls k m →
        RunBegins (opening i history buffer os) (calls ++ [c]) k m := by
      rintro k m ⟨done, c', rest, rfl, hbegins⟩
      exact ⟨done, c', rest ++ [c], by simp, hbegins⟩
    have hnow : ∀ k m, CallBegins ((opening i history buffer os).run calls) c k m →
        RunBegins (opening i history buffer os) (calls ++ [c]) k m :=
      fun k m hbegins => ⟨calls, c, [], rfl, hbegins⟩
    have hsupplied := ih.supplied.mono hbefore
    refine ⟨hlast.sound, hlast.waiting, ih.orders.trans hlast.orders, ?_, ?_⟩
    · refine (ih.made.mono ?_).trans (hlast.made.mono ?_)
      · exact fun k m hm => ⟨hbefore k m hm.1, hm.2.1, hm.2.2.mono hbefore⟩
      · rintro k m ⟨hbegins, hready⟩
        exact ⟨hnow k m hbegins, hready.sound,
          hsupplied.trans (hready.supplied.mono hnow) hready.later⟩
    · exact hsupplied.trans (hlast.supplied.mono hnow) ⟨hlast.orders, hlast.made.isPrefix⟩

/-- The trades of a session are made in rounds that begin in its course. -/
theorem came_run (i : Instrument) (history buffer : Nat) (os : Orders) (calls : List Call) :
    Came (fun _ => True) (RunBegins (opening i history buffer os) calls)
      (fun _ m => Sound (fun _ => True) m.state ∧
        Supplied (RunBegins (opening i history buffer os) calls)
          (opening i history buffer os).state m.state)
      (opening i history buffer os) ((opening i history buffer os).run calls) :=
  came_calls i history buffer os calls fun _ _ => trivial

/-- For all that is queued at once there are the states in which it was put in: an item is in the
queue of one side only. -/
theorem exists_was {moments : Round → Logged (Desk Simulated) → Prop} {d : Desk Simulated}
    (hd : Sound known d)
    (hput : ∀ side, ∀ i ∈ (d.book.queue side).bag, ∃ o, PutIn moments d side i o) :
    ∃ was : Item → Order, ∀ side, ∀ i ∈ (d.book.queue side).bag,
    PutIn moments d side i (was i) := by
  have hitem : ∀ i, ∃ o, ∀ side, i ∈ (d.book.queue side).bag → PutIn moments d side i o := by
    intro i
    by_cases hqueued : ∃ side, i ∈ (d.book.queue side).bag
    · obtain ⟨side, hi⟩ := hqueued
      obtain ⟨o, ho⟩ := hput side i hi
      refine ⟨o, fun side' hi' => ?_⟩
      obtain rfl : side = side' :=
        (hd.resting side i hi).side.symm.trans (hd.resting side' i hi').side
      exact ho
    · exact ⟨.blank, fun side hi => absurd ⟨side, hi⟩ hqueued⟩
  choose was hwas using hitem
  exact ⟨was, fun side i hi => hwas i side hi⟩

/-- Every trade of a session is made in a round that begins in its course, after the trades before
it. Whatever is queued then was put in by a piece of work of the session before that, and `was`
tells each order as it was when it was put in. The trade is the deal of the foremost pair by these:
of an incoming order and the foremost open order of another user on the other side, or of the
foremost open ask and the foremost open bid of another user. Nothing is supposed of the calls, and
a round that breaks off is no exception. -/
theorem trades_by_rank (i : Instrument) (history buffer : Nat) (os : Orders) (calls : List Call)
    (before after : List Trade) (t : Trade)
    (h : ((opening i history buffer os).run calls).state.trades = before ++ t :: after) :
    ∃ k m, RunBegins (opening i history buffer os) calls k m ∧ ∃ was : Item → Order,
      (∀ side, ∀ j ∈ (m.state.book.queue side).bag,
        PutIn (RunBegins (opening i history buffer os) calls) m.state side j (was j)) ∧
      k.Makes (k.Foremost was) m before t := by
  obtain ⟨k, m, ⟨hbegins, hsound, hsupplied⟩, hmakes⟩ :=
    (came_run i history buffer os calls).made.exists_makes h
  have hempty : ∀ side, ((opening i history buffer os).state.book.queue side).bag = 0 :=
    fun side => by
    cases side <;> rfl
  obtain ⟨was, hwas⟩ := exists_was hsound fun side j hj =>
    (hsupplied side j hj).resolve_left fun hj => absurd (hempty side ▸ hj) (Multiset.notMem_zero j)
  obtain ⟨ask, bid, hbest, hdeal⟩ := hmakes.pair
  refine ⟨k, m, hbegins, was, hwas, hmakes.start, ⟨ask, bid, ?_, hdeal⟩, hmakes.finish⟩
  exact hbest.foremost fun side j hj => (hwas side j hj).shows

/-- The one trade in the book of `ownCross` is made by rank. -/
theorem trade_by_rank_of_ownCross :
    let calls := [.load .ask ⟨0⟩, .start, .submit .ask ⟨1⟩, .submit .bid ⟨2⟩]
    let t : Trade := ⟨⟨2⟩, ⟨3⟩, .ofUInt64 100, ⟨4⟩, ⟨0⟩⟩
    (ownCrossOpening.run calls).state.trades = [t] ∧
      ∃ k m, RunBegins ownCrossOpening calls k m ∧ ∃ was : Item → Order,
        (∀ side, ∀ j ∈ (m.state.book.queue side).bag,
          PutIn (RunBegins ownCrossOpening calls) m.state side j (was j)) ∧
        k.Makes (k.Foremost was) m [] t := by
  intro calls t
  have htrades : (ownCrossOpening.run calls).state.trades = [t] := by decide +kernel
  exact ⟨htrades, trades_by_rank ⟨⟨0⟩, .ofUInt64 90⟩ 10 10 ownCross calls [] [] t htrades⟩

end Session

end Bourse
