import Bourse.Proofs.Floor.Basic
import Bourse.Proofs.Floor.Steps

/-!
# Moves go by paths

Each move on a book first receives the order it brings, if it brings one, and then follows a path
to the stage that the next move finds (`Floor.leads_apply`). Unless something broke off, the path
has no collapse. A property that receiving an order and the links of a path keep is therefore kept
by moves (`Floor.holds_apply`).
-/

namespace Bourse

open Bourse.Action Desk Stage

variable {σ α : Type} {S : Settlement σ} {st st' : Stage σ} {j : Array Event} {mayFall : Bool}

/-- A path that nothing broke off on is one on which something may. -/
theorem Path.of_intact (h : Path S false st st') : Path S mayFall st st' := by
  cases mayFall
  · exact h
  · exact h.fall

/-- Where something breaks off the book is in the phase that it was in. -/
theorem Stage.Broke.phase {d : Desk (Recorded σ)} (h : st.Broke S d) :
    d.book.phase = st.desk.book.phase := by
  obtain ⟨d', hand, hsteps, hbreak⟩ := h
  refine Eq.trans ?_ hsteps.phase
  cases hbreak with
  | beside h => exact h.phase
  | fill asked broken => rfl
  | promote leads => rfl

/-- Those who waited are taken in one after the other, unless the book crashes. -/
theorem Desk.path_takeSubmissions (submissions : List Submission) (d : Desk (Recorded σ))
    (hrunning : d.book.phase = .running) (brought accepted : List OrderRef) :
    Ends (takeSubmissions S.recorded submissions) ⟨d, j⟩
      (fun _ t => (t.state.book.phase = .running ∧
          Path S false ⟨d, .idle, submissions.map (·.order), brought, accepted⟩
            ⟨t.state, .idle, [], brought, (submissions.map (·.order)).reverse ++ accepted⟩) ∨
        t.state.book.phase.isCrashed = true ∧ ∀ waiting brought' accepted',
          Path S true ⟨d, .idle, submissions.map (·.order), brought, accepted⟩
            ⟨t.state, .idle, waiting, brought', accepted'⟩)
      (fun _ _ => False) := by
  induction submissions generalizing d j accepted with
  | nil => exact .inl ⟨hrunning, .refl⟩
  | cons sub rest ih =>
    -- the stage once the first of them is called
    have hcall : ∀ {mayFall}, Path S mayFall
        ⟨d, .idle, (sub :: rest).map (·.order), brought, accepted⟩
        ⟨d, .holding (some (d.newcomer sub.order)), rest.map (·.order), brought,
          sub.order :: accepted⟩ := Turn.path (.call rfl rfl)
    have hannounce : Ends (announce d sub) ⟨d, j⟩ (fun _ t => t.state = d) (fun _ _ => False) := by
      unfold announce
      split <;> exact rfl
    rw [takeSubmissions_cons]
    simp only [takeOne, ends_bind, ends_current, Book.isRunning, hrunning, decide_true, if_true]
    refine hannounce.imp ?_
    rintro _ ⟨d, k⟩ rfl
    refine (steps_runTask (S := S) ⟨d, .idle, rest.map (·.order), brought, sub.order :: accepted⟩ d
      sub.order).imp ?_
    rintro _ t (hsteps | ⟨hcrashed, hpath⟩)
    · have hpath : ∀ {mayFall}, Path S mayFall
          ⟨d, .idle, (sub :: rest).map (·.order), brought, accepted⟩
          ⟨t.state, .idle, rest.map (·.order), brought, sub.order :: accepted⟩ :=
        hcall.trans hsteps.path
      have hrunning' : t.state.book.phase = .running := hsteps.phase.trans hrunning
      refine (ih t.state hrunning' (sub.order :: accepted)).imp ?_
      rintro _ u (⟨hu, hrest⟩ | ⟨hcrashed, hrest⟩)
      · refine .inl ⟨hu, ?_⟩
        rw [List.map_cons, List.reverse_cons, List.append_assoc]
        exact hpath.trans hrest
      · exact .inr ⟨hcrashed, fun w b a => hpath.trans (hrest w b a)⟩
    · refine (ends_takeSubmissions_of_not rest (Book.isRunning_of_isCrashed hcrashed)).imp ?_
      rintro _ u rfl
      exact .inr ⟨hcrashed, fun w b a => hcall.trans (hpath w b a)⟩

namespace Floor

variable {f : Floor (Recorded σ)} {brought : List OrderRef} {r : OrderRef} {side : Side}

/-- The stage of a book between two moves. -/
def stage (f : Floor (Recorded σ)) (brought : List OrderRef) : Stage σ :=
  ⟨f.state, .idle, f.waiting, brought, f.register.accepted⟩

/-- What a move brings is received. -/
def Receives : Option OrderRef → Stage σ → Stage σ → Prop
  | some r, st, st' => Receive r st st'
  | none, st, st' => st' = st

/-- A move leads from one floor to another: what it brings is received, and then it follows a
path. -/
def Leads (S : Settlement σ) (f : Floor (Recorded σ)) (brought : List OrderRef)
    (new : Option OrderRef) (f' : Floor (Recorded σ)) : Prop :=
  ∃ st, Receives new (f.stage brought) st ∧
    Path S (!f'.intact) st (f'.stage (new.toList ++ brought))

/-- A move leads to a floor, by the orders that wait there. -/
theorem leads_of_path {t : Logged (Desk (Recorded σ))} {g : Register} {b : Bool}
    {w : List OrderRef} {new : Option OrderRef} (hreceives : Receives new (f.stage brought) st)
    (hw : t.state.book.phase.orders = w)
    (hpath : Path S (!b) st ⟨t.state, .idle, w, new.toList ++ brought, g.accepted⟩) :
    Leads S f brought new ⟨t, g, b⟩ := by
  subst hw
  exact ⟨st, hreceives, hpath⟩

/-- A move that brings nothing and changes no queue. -/
theorem leads_of_beside {t : Logged (Desk (Recorded σ))} {g : Register} {b : Bool}
    (h : Beside f.state t.state) (hg : g.accepted = f.register.accepted) :
    Leads S f brought none ⟨t, g, b⟩ := by
  refine leads_of_path rfl (congrArg Phase.orders h.phase) ?_
  rw [hg]
  exact Steps.path (.single (.beside h))

/-- A load receives the order, and then lets it rest or parks it. -/
theorem leads_load : Leads S f brought (some r) (f.perform (Desk.load side r)
    (fun answer g => g.loaded r answer) fun _ => false) := by
  refine perform_of_ends (R := Leads S f brought (some r)) ?_ (fun _ _ h => h) fun _ _ h => h
  simp only [load, checkSide, ends_bind, ends_current, ends_pure]
  by_cases hside : (f.desk.state.order r).side = side
  · simp only [hside, if_true, ends_bind, ends_current]
    split
    · next hc => exact ⟨_, .pass hc, .refl⟩
    next hc =>
    have hc : (f.state.order r).closed = false := Bool.eq_false_iff.2 hc
    simp only [loadOld, ends_bind, ends_current]
    split
    · next ht =>
      exact ends_parkStopLoss fun k => leads_of_path (.park hc ht)
        (congrArg Phase.orders (Book.phase_withStopLossQueue ..)) .refl
    · next ht =>
      refine (steps_rest (S := S) ⟨f.state, .idle, f.waiting, r :: brought,
        r :: f.register.accepted⟩ f.state (f.state.newcomer r)).mono ?_ ?_
      · rintro _ t ⟨hsteps, hphase⟩
        exact leads_of_path (.take ht rfl) (congrArg Phase.orders hphase) hsteps.path
      · rintro _ t ⟨hbroke, -⟩
        exact ⟨_, .take ht rfl, hbroke.path _ _ _⟩
  · simp only [hside, if_false]
    exact ⟨_, .refuse, .refl⟩

/-- A replay follows a path of its own. -/
theorem leads_loadTrades (trades : List Trade) : Leads S f brought none
    (f.perform (Desk.loadTrades trades) (fun _ g => g) fun _ => false) := by
  refine perform_of_ends (R := Leads S f brought none) (beside_loadTrades trades) ?_ ?_
  · exact fun _ t ht => leads_of_beside ht rfl
  · exact fun _ t ht => leads_of_beside ht rfl

/-- Starting a book takes all in that wait for it, unless it breaks off. -/
theorem leads_start : Leads S f brought none (f.perform (Desk.start S.recorded)
    (fun report g => g.afterStart f.waiting report.result) fun report =>
    report.result.isBroken) := by
  refine perform_of_ends (R := Leads S f brought none) ?_ (fun _ _ h => h) fun _ _ h => h
  simp only [start, ends_bind, ends_current]
  cases hphase : f.desk.state.book.phase with
  | waiting submissions =>
    have hwaiting : f.waiting = submissions.map (·.order) := congrArg Phase.orders hphase
    simp only [ends_bind, ends_attempt, enter, ends_changeBook]
    generalize hd : ({ f.desk.state with book := { f.desk.state.book with phase := .stopped } } :
      Desk (Recorded σ)) = d
    have hstopped : d.book.phase = .stopped := by rw [← hd]
    have henter : ∀ {mayFall}, Path S mayFall (f.stage brought)
        ((f.stage brought).put d .idle) := hd ▸ (Turn.enter (p := .stopped)).path
    refine (steps_reconcile (S := S) (f.stage brought) d).mono ?_ ?_
    · intro _ t hsteps
      have hrun : ∀ {mayFall}, Path S mayFall (f.stage brought) ((f.stage brought).put
          { t.state with book := { t.state.book with phase := .running } } .idle) :=
        (henter.trans hsteps.path).trans (Turn.enter (p := .running)).path
      refine (path_takeSubmissions (S := S) submissions
        { t.state with book := { t.state.book with phase := .running } } rfl brought
        f.register.accepted).mono ?_ fun _ _ hf => hf.elim
      rw [← hwaiting]
      rintro answers u (⟨hrunning, hpath⟩ | ⟨hcrashed, hpath⟩)
      · refine leads_of_path (w := []) rfl (by rw [hrunning]; rfl) (Path.of_intact ?_)
        rw [show (f.register.afterStart f.waiting .started).accepted = _ from
          Register.accepted_foldl_accept ..]
        exact hrun.trans hpath
      · refine ⟨_, rfl, ?_⟩
        rw [hcrashed, Bool.not_true, Bool.and_false]
        exact hrun.trans (hpath _ _ _)
    · intro cause t hbroke
      have hnot : t.state.book.isRunning = false := by
        unfold Book.isRunning
        rw [hbroke.phase]
        exact hstopped ▸ rfl
      refine (ends_takeSubmissions_of_not submissions hnot).mono ?_ fun _ _ hf => hf.elim
      rintro _ u rfl
      refine ⟨_, rfl, ?_⟩
      simp only [StartResult.isBroken, Bool.not_true, Bool.and_false, Bool.false_and,
        Bool.not_false]
      exact henter.trans (hbroke.path _ _ _)
  | running => exact leads_of_beside (.refl _) rfl
  | crashed cause => exact leads_of_beside (.refl _) rfl
  | stopped => exact leads_of_beside (.refl _) rfl

/-- A submission receives the order, and then matches it, parks it or lets it wait. -/
theorem leads_submit : Leads S f brought (some r) (f.perform (Desk.submit S.recorded side r)
    (fun answer g => g.submitted r answer) fun _ => false) := by
  refine perform_of_ends (R := Leads S f brought (some r)) ?_ (fun _ _ h => h) fun _ _ h => h
  simp only [submit, checkSide, ends_bind, ends_current, ends_pure]
  by_cases hside : (f.desk.state.order r).side = side
  · simp only [hside, if_true, ends_bind, ends_current]
    split
    · next hc => exact ⟨_, .pass hc, .refl⟩
    next hc =>
    have hc : (f.state.order r).closed = false := Bool.eq_false_iff.2 hc
    split
    · next ht =>
      rw [ends_bind]
      exact ends_parkStopLoss fun k => leads_of_path (.park hc ht)
        (congrArg Phase.orders (Book.phase_withStopLossQueue ..)) .refl
    next ht =>
    cases hphase : f.desk.state.book.phase with
    | waiting submissions =>
      refine leads_of_path (w := f.waiting ++ [r]) (.wait ht) ?_
        (Turn.enter (p := .waiting (submissions ++ [⟨r, false⟩]))).path
      show (submissions ++ [(⟨r, false⟩ : Submission)]).map (·.order) = f.waiting ++ [r]
      rw [List.map_append, show f.waiting = submissions.map (·.order) from
        congrArg Phase.orders hphase]
      rfl
    | running =>
      simp only [ends_bind]
      refine (steps_runTask (S := S) ⟨f.state, .idle, f.waiting, r :: brought,
        r :: f.register.accepted⟩ f.state r).mono ?_ fun _ _ hf => hf.elim
      rintro _ t (hsteps | ⟨hcrashed, hpath⟩)
      · exact leads_of_path (.take ht rfl) (congrArg Phase.orders hsteps.phase) hsteps.path
      · refine ⟨_, .take ht rfl, ?_⟩
        rw [hcrashed, Bool.not_true, Bool.and_false]
        exact hpath _ _ _
    | crashed cause => exact ⟨_, .refuse, .refl⟩
    | stopped => exact ⟨_, .refuse, .refl⟩
  · simp only [hside, if_false]
    exact ⟨_, .refuse, .refl⟩

/-- A cancellation by settlement is one turn. -/
theorem leads_cancel : Leads S f brought none (f.perform (Desk.onOffice
    (Office.onOrders (Orders.cancel r))) (fun answer g => g.afterCancel r answer)
    fun _ => false) := by
  refine perform_of_ends (R := Leads S f brought none) ?_ (fun _ _ h => h) fun _ _ h => h
  simp only [ends_onOffice, Office.onOrders, ends_within, Orders.cancel, ends_bind, ends_current]
  split
  · exact leads_of_beside (.refl _) rfl
  · refine leads_of_path (w := f.waiting) rfl rfl ?_
    rw [show (f.register.afterCancel r (.ok ())).accepted = _ from Register.accepted_cancel ..]
    exact Turn.cancel.path

/-- A withdrawal is at most one turn. -/
theorem leads_withdraw : Leads S f brought none (f.perform (Desk.withdraw side r)
    (fun answer g => g.afterWithdraw r answer) fun _ => false) := by
  refine perform_of_ends (R := Leads S f brought none) beside_withdraw ?_ ?_
  · intro answer t ht
    refine leads_of_beside ht ?_
    cases answer <;> simp [Register.afterWithdraw]
  · exact fun _ t ht => leads_of_beside ht rfl

/-- Those who give up leave in one turn. -/
theorem leads_abandon : Leads S f brought none
    (f.perform Desk.abandon (fun _ g => g) fun _ => false) := by
  refine perform_of_ends (R := Leads S f brought none) ?_ (fun _ _ h => h) fun _ _ h => h
  simp only [abandon, ends_bind, ends_current]
  cases hphase : f.desk.state.book.phase with
  | waiting submissions =>
    have hsub : (((submissions.take f.desk.state.book.capacity).map fun s =>
        ({ s with abandoned := true } : Submission)).map (·.order)).Sublist f.waiting := by
      rw [List.map_map, show f.waiting = submissions.map (·.order) from
        congrArg Phase.orders hphase]
      exact (List.take_sublist _ _).map _
    exact ⟨_, rfl, (Turn.giveUp hsub).path.trans (Turn.enter (p := .waiting _)).path⟩
  | running => exact leads_of_beside (.refl _) rfl
  | crashed cause => exact leads_of_beside (.refl _) rfl
  | stopped => exact leads_of_beside (.refl _) rfl

/-- Stopping is one turn. -/
theorem leads_shutdown : Leads S f brought none
    (f.perform Desk.shutdown (fun _ g => g) fun _ => false) := by
  refine perform_of_ends (R := Leads S f brought none) ?_ (fun _ _ h => h) fun _ _ h => h
  simp only [shutdown, ends_bind, ends_current]
  have hstop : ∀ (k : Array Event) (b : Bool), f.waiting = [] → Leads S f brought none
      ⟨⟨{ f.state with book := { f.state.book with phase := .stopped } }, k⟩, f.register, b⟩ := by
    intro k b hw
    exact leads_of_path rfl hw.symm (Turn.enter (p := .stopped)).path
  cases hphase : f.desk.state.book.phase with
  | waiting submissions => exact leads_of_beside (.refl _) rfl
  | running => exact hstop _ _ (congrArg Phase.orders hphase)
  | crashed cause => exact hstop _ _ (congrArg Phase.orders hphase)
  | stopped => exact leads_of_beside (.refl _) rfl

/-- A change of settlement itself is one turn. -/
theorem leads_backend (h : σ → σ) : Leads S f brought none (f.perform (Desk.onOffice
    (Office.onBackend (Action.change fun b => { b with inner := h b.inner }))) (fun _ g => g)
    fun _ => false) := by
  refine perform_of_ends (R := Leads S f brought none) ?_ (fun _ _ h => h) fun _ _ h => h
  exact ⟨_, rfl, Turn.backend.path⟩

/-- Every move leads from one stage to the next. -/
theorem leads_apply (f : Floor (Recorded σ)) (brought : List OrderRef) (m : Move σ) :
    Leads S f brought m.brings? (f.apply S.recorded m.recorded) := by
  cases m with
  | load side r => exact leads_load
  | loadTrades trades => exact leads_loadTrades trades
  | start => exact leads_start
  | submit side r => exact leads_submit
  | cancel r => exact leads_cancel
  | withdraw side r => exact leads_withdraw
  | abandon => exact leads_abandon
  | shutdown => exact leads_shutdown
  | backend h => exact leads_backend h

/-- What holds before a move holds after it, if receiving the order it brings keeps it, and the
links of a path do; collapses only if something breaks off. -/
theorem holds_apply {P : Stage σ → Prop} {m : Move σ} (hP : P (f.stage brought))
    (hreceive : ∀ {r st}, m.brings? = some r → Receive r (f.stage brought) st → P st)
    (hstep : ∀ {st st'}, Step S st st' → P st → P st')
    (hturn : ∀ {st st' : Stage σ}, Turn st st' → P st → P st')
    (hfall : ∀ {st st'}, (f.apply S.recorded m.recorded).intact = false → Collapse S st st' →
      P st → P st') :
    P ((f.apply S.recorded m.recorded).stage (m.brings?.toList ++ brought)) := by
  obtain ⟨st, hreceives, hpath⟩ := leads_apply (S := S) f brought m
  have hst : P st := by
    cases hm : m.brings? with
    | none =>
      rw [hm] at hreceives
      exact hreceives ▸ hP
    | some r =>
      rw [hm] at hreceives
      exact hreceive hm hreceives
  refine Path.keeps hpath hst hstep hturn ?_
  exact fun hb => hfall (by simpa using hb)

variable {i : Instrument} {history buffer : Nat} {os : Orders} {b : σ}

/-- What receiving an order for the first time keeps, and every step and turn, is kept by moves
that bring no order twice and in which nothing breaks off. -/
theorem holds_run {P : Stage σ → Prop} (before moves : List (Move σ))
    (hnodup : (Bourse.brought (before ++ moves)).Nodup)
    (hintact : (recordedRun S i history buffer os b (before ++ moves)).intact = true)
    (hP : P ((recordedRun S i history buffer os b before).stage (Bourse.brought before).reverse))
    (hreceive : ∀ {r st st'}, Receive r st st' → r ∉ st.brought → P st → P st')
    (hstep : ∀ {st st'}, Step S st st' → P st → P st')
    (hturn : ∀ {st st' : Stage σ}, Turn st st' → P st → P st') :
    P ((recordedRun S i history buffer os b (before ++ moves)).stage
      (Bourse.brought (before ++ moves)).reverse) := by
  induction moves using List.reverseRecOn with
  | nil => exact (List.append_nil before).symm ▸ hP
  | append_singleton moves m ih =>
    rw [← List.append_assoc] at hnodup hintact ⊢
    have hP := ih (nodup_brought_of_append hnodup) (intact_recordedRun_of_append hintact)
    rw [recordedRun_append] at hintact ⊢
    rw [reverse_brought_append]
    refine holds_apply hP (fun hm hr => hreceive hr (fun hmem => ?_) hP) hstep hturn ?_
    · exact notMem_brought_of_append hnodup hm (List.mem_reverse.1 hmem)
    · exact fun hbroken => absurd (hbroken.symm.trans hintact) Bool.false_ne_true

end Floor

end Bourse
