import Bourse.Proofs.Floor.Life

/-!
# Stop-losses fire once, and when they are reached

A dormant stop-loss that is not closed has not been reached by any trade since it was brought to
the book. One that became active did so on the first trade that reached its trigger: it was not
closed then, nothing else was filled before it was reported, and it was reported once. One that was
closed while dormant stays what it is (`Floor.stopLosses_fire_once`).

Up to the move that brings an order, nothing is activated or reported but what the book has
accepted (`Awake`). From then on the stop-loss is watched (`Watched`), and once it is closed
nothing happens to it any more (`Revoked`).
-/

namespace Bourse

open Bourse.Action Bourse.Desk

variable {σ : Type} {S : Settlement σ} {st st' : Stage σ} {r r' : OrderRef}

/-! ## Before an order comes in -/

/-- Orders follow those of the table at first. Only accepted orders changed their type, and only
orders that are not dormant were reported. -/
structure Awake (os : Orders) (st : Stage σ) : Prop where
  tidy : Tidy st
  follow : os.Follow st.orders
  type : ∀ r, r ∉ st.accepted → (st.desk.order r).type = (os.get r).type
  reported : ∀ r ∈ st.log.reported, r ∈ st.accepted ∧ (st.desk.order r).type ≠ .stopLoss

namespace Awake

variable {os : Orders}

/-- A step reports what was activated, if it reports anything. -/
theorem mem_reported_of_step (hstep : Step S st st') (hr : r ∈ st'.log.reported) :
    r ∈ st.log.reported ∨ r ∈ st.hand.fired := by
  cases hstep with
  | beside h => exact .inl ((congrArg (·.backend.transcript) h.office : _ = st.log) ▸ hr)
  | search clear searched =>
    exact .inl ((congrArg (·.backend.transcript) searched.office : _ = st.log) ▸ hr)
  | @fill c o out asked answered fired due =>
    exact .inl (Transcript.reported_snoc_fill st.log c ▸ hr)
  | @promote r' rest o fired due leads =>
    rw [show (Stage.log (st.put _ _)).reported = st.log.reported ++ [r'] from
      Transcript.reported_snoc_triggered .., List.mem_append, List.mem_singleton] at hr
    refine hr.imp_right ?_
    rintro rfl
    exact fired ▸ List.mem_cons_self
  | pop | restore | drop | take | settle | rest | leave => exact .inl hr

/-- What leaves the types, and adds no call. -/
theorem of_same (h : Awake os st) (htidy : Tidy st') (hretain : st.orders.Retain st'.orders)
    (haccepted : ∀ r ∈ st.accepted, r ∈ st'.accepted) (hlog : st'.log = st.log) :
    Awake os st' where
  tidy := htidy
  follow := h.follow.trans hretain.follow
  type r hr := (hretain.type r).trans (h.type r fun hmem => hr (haccepted r hmem))
  reported r hr := by
    obtain ⟨hmem, htype⟩ := h.reported r (hlog ▸ hr)
    exact ⟨haccepted r hmem, (hretain.type r).trans_ne htype⟩

/-- A step wakes dormant stop-losses only by activating them. -/
theorem step (hS : S.Faithful) (hstep : Step S st st') (h : Awake os st) : Awake os st' := by
  have htidy := h.tidy.step hS hstep
  have haccepted : st'.accepted = st.accepted := hstep.same.2.2
  refine ⟨htidy, h.follow.trans (hstep.follow hS), fun r hr => ?_, fun r hr => ?_⟩
  · rcases hstep.type_eq hS r with heq | ⟨hfired, -⟩
    · exact heq.trans (h.type r (haccepted ▸ hr))
    · exact absurd (htidy.accepted_of_fired hfired) hr
  · rw [haccepted]
    rcases mem_reported_of_step hstep hr with hr | hr
    · obtain ⟨hmem, htype⟩ := h.reported r hr
      exact ⟨hmem, (hstep.follow hS r).type_ne htype⟩
    · exact ⟨h.tidy.accepted_of_fired hr, (hstep.follow hS r).type_ne (h.tidy.sorted.fired r hr)⟩

/-- A turn wakes no stop-loss. -/
theorem turn (hturn : Turn st st') (h : Awake os st) : Awake os st' := by
  refine h.of_same (h.tidy.turn hturn) hturn.retain (fun r hr => ?_) hturn.log
  cases hturn with
  | call => exact List.mem_cons_of_mem _ hr
  | giveUp | cancel | backend | enter => exact hr

/-- An order that comes in wakes no other. -/
theorem receive (hreceive : Receive r st st') (hfresh : r ∉ st.brought) (h : Awake os st) :
    Awake os st' := by
  refine h.of_same (h.tidy.receive hreceive hfresh) (.of_eq (congrArg (·.orders) hreceive.office))
    (fun r hr => ?_) hreceive.log
  cases hreceive with
  | pass | park | take => exact List.mem_cons_of_mem _ hr
  | refuse | wait => exact hr

end Awake

/-! ## Once it has come in -/

/-- The stop-loss has come in, and the calls since then are those of its life. -/
structure Watched (r : OrderRef) (old : Transcript) (st : Stage σ) : Prop where
  tidy : Tidy st
  due : (st.hand.due.map (·.1)).Nodup
  brought : r ∈ st.brought
  life : ∃ since, st.log = old ++ since ∧ Life r st since

namespace Watched

variable {old : Transcript}

/-- A step adds to the life of a stop-loss what its case tells. -/
theorem step (hS : S.Faithful) (hstep : Step S st st') (h : Watched r old st) :
    Watched r old st' := by
  obtain ⟨since, hlog, hlife⟩ := h.life
  exact ⟨h.tidy.step hS hstep, hstep.nodup_due h.due, hstep.same.2.1 ▸ h.brought,
    hstep.life hS h.tidy h.due hlog hlife⟩

/-- A turn adds nothing to the life of a stop-loss. -/
theorem turn (hturn : Turn st st') (h : Watched r old st) : Watched r old st' := by
  obtain ⟨since, hlog, hlife⟩ := h.life
  refine ⟨h.tidy.turn hturn, ?_, ?_, since, hturn.log.trans hlog, hturn.life h.tidy hlife⟩
  · cases hturn <;> exact h.due
  · cases hturn <;> exact h.brought

/-- Another order that comes in adds nothing to the life of a stop-loss. -/
theorem receive (hreceive : Receive r' st st') (hfresh : r' ∉ st.brought) (h : Watched r old st) :
    Watched r old st' := by
  obtain ⟨since, hlog, hlife⟩ := h.life
  have hlife' := hreceive.life (fun heq => hfresh (heq ▸ h.brought)) hlife
  refine ⟨h.tidy.receive hreceive hfresh, ?_, ?_, since, hreceive.log.trans hlog, hlife'⟩
  · cases hreceive <;> exact h.due
  · cases hreceive <;> exact List.mem_cons_of_mem _ h.brought

/-- The watch begins when the stop-loss comes in. -/
theorem begins (hreceive : Receive r st st') (hfresh : r ∉ st.brought) (hidle : st.hand = .idle)
    (htype : (st.desk.order r).type = .stopLoss) (h : Tidy st) : Watched r st.log st' := by
  have hdue : st.hand.due = [] := congrArg (·.due) hidle
  refine ⟨h.receive hreceive hfresh, ?_, ?_, [], hreceive.log.trans (List.append_nil _).symm,
    hreceive.life_begins hdue htype⟩
  · rw [show st'.hand.due = st.hand.due by cases hreceive <;> rfl, hdue]
    exact List.nodup_nil
  · cases hreceive <;> exact List.mem_cons_self

end Watched

/-- The stop-loss was closed while it was dormant, and has not been reported. -/
structure Revoked (r : OrderRef) (st : Stage σ) : Prop where
  tidy : Tidy st
  type : (st.desk.order r).type = .stopLoss
  closed : (st.desk.order r).closed = true
  unreported : r ∉ st.log.reported

namespace Revoked

/-- A step leaves a revoked stop-loss unreported. -/
theorem step (hS : S.Faithful) (hstep : Step S st st') (h : Revoked r st) : Revoked r st' := by
  refine ⟨h.tidy.step hS hstep, ?_, (hstep.follow hS r).closed h.closed, fun hr => ?_⟩
  · rcases hstep.type_eq hS r with heq | ⟨-, hclosed, -⟩
    · exact heq.trans h.type
    · exact absurd (hclosed.symm.trans h.closed) Bool.false_ne_true
  · rcases Awake.mem_reported_of_step hstep hr with hr | hr
    · exact h.unreported hr
    · exact h.tidy.sorted.fired r hr h.type

/-- A turn leaves a revoked stop-loss unreported. -/
theorem turn (hturn : Turn st st') (h : Revoked r st) : Revoked r st' :=
  ⟨h.tidy.turn hturn, (hturn.retain.type r).trans h.type, (hturn.retain.follow r).closed h.closed,
    hturn.log.symm ▸ h.unreported⟩

/-- An order that comes in leaves a revoked stop-loss unreported. -/
theorem receive (hreceive : Receive r' st st') (hfresh : r' ∉ st.brought) (h : Revoked r st) :
    Revoked r st' := by
  have horder : st'.desk.order r = st.desk.order r := congrArg (·.orders.get r) hreceive.office
  exact ⟨h.tidy.receive hreceive hfresh, horder ▸ h.type, horder ▸ h.closed,
    hreceive.log.symm ▸ h.unreported⟩

end Revoked

/-! ## Over a whole run -/

namespace Floor

variable {i : Instrument} {history buffer : Nat} {os : Orders} {b : σ} {moves : List (Move σ)}

/-- The moves before the one that brings the order to the book. -/
def movesBefore (moves : List (Move σ)) (r : OrderRef) : List (Move σ) :=
  moves.takeWhile fun m => m.brings? != some r

/-- The calls of settlement since the order was brought to the book. -/
def callsSince (S : Settlement σ) (i : Instrument) (history buffer : Nat) (os : Orders) (b : σ)
    (moves : List (Move σ)) (r : OrderRef) : Transcript :=
  (transcript S i history buffer os b moves).drop
    (transcript S i history buffer os b (movesBefore moves r)).length

/-- A brought order was brought by one of the moves. -/
theorem exists_brings (hr : r ∈ brought moves) :
    ∃ m after, moves = movesBefore moves r ++ m :: after ∧ m.brings? = some r := by
  unfold movesBefore
  induction moves with
  | nil => cases hr
  | cons m rest ih =>
    by_cases hm : m.brings? = some r
    · refine ⟨m, rest, ?_, hm⟩
      rw [List.takeWhile_cons, if_neg (by simp [hm])]
      rfl
    · have hrest : r ∈ brought rest := by
        obtain ⟨m', hm', hr'⟩ := List.mem_filterMap.1 hr
        refine List.mem_filterMap.2 ⟨m', (List.mem_cons.1 hm').resolve_left fun heq => ?_, hr'⟩
        exact hm (heq ▸ hr')
      obtain ⟨m', after, heq, hm'⟩ := ih hrest
      refine ⟨m', after, ?_, hm'⟩
      rw [List.takeWhile_cons, if_pos (by simp [hm])]
      exact congrArg (m :: ·) heq

/-- In a run in which nothing broke off no stop-loss woke but by being activated. -/
theorem awake_recordedRun (hS : S.Faithful) (hnodup : (brought moves).Nodup)
    (hintact : (recordedRun S i history buffer os b moves).intact = true) :
    Awake os ((recordedRun S i history buffer os b moves).stage (brought moves).reverse) :=
  holds_run [] moves hnodup hintact
    ⟨tidy_opening, .refl _, fun _ _ => rfl, fun _ hr => absurd hr List.not_mem_nil⟩
    Awake.receive (Awake.step hS) Awake.turn

/-- The orders of a recorded run are those of the plain one. -/
theorem order_recordedRun (moves : List (Move σ)) (r : OrderRef) :
    ((opening i history buffer os b).run S moves).state.order r =
      (recordedRun S i history buffer os b moves).state.order r := by
  rw [← run_recording]
  rfl

/-- A stop-loss that is brought to the book is watched from then on. -/
theorem watched_recordedRun (hS : S.Faithful) (hnodup : (brought moves).Nodup)
    (hintact : (recordedRun S i history buffer os b moves).intact = true) (hr : r ∈ brought moves)
    (htype : (os.get r).type = .stopLoss) :
    r ∉ (transcript S i history buffer os b (movesBefore moves r)).reported ∧
      Watched r (transcript S i history buffer os b (movesBefore moves r))
        ((recordedRun S i history buffer os b moves).stage (brought moves).reverse) := by
  obtain ⟨m, after, hmoves, hm⟩ := exists_brings hr
  generalize movesBefore moves r = before at hmoves
  subst hmoves
  -- up to the move that brings it, the stop-loss is as in the table
  have hfresh : r ∉ (brought before).reverse :=
    fun hmem => notMem_brought_of_append hnodup hm (List.mem_reverse.1 hmem)
  have hawake :
      Awake os ((recordedRun S i history buffer os b before).stage (brought before).reverse) :=
    awake_recordedRun hS (nodup_brought_of_append hnodup) (intact_recordedRun_of_append hintact)
  have haccepted : r ∉ (recordedRun S i history buffer os b before).register.accepted :=
    fun hmem => hfresh (hawake.tidy.custody.brought r (.inl hmem))
  refine ⟨fun hmem => haccepted (hawake.reported r hmem).1, ?_⟩
  -- it comes in, and the watch begins
  obtain ⟨st, hreceives, hpath⟩ :=
    leads_apply (S := S) (recordedRun S i history buffer os b before)
    (brought before).reverse m
  rw [hm] at hreceives
  have hbegins :=
    Watched.begins hreceives hfresh rfl ((hawake.type r haccepted).trans htype) hawake.tidy
  rw [List.append_cons] at hnodup hintact ⊢
  refine holds_run (before ++ [m]) after hnodup hintact ?_ Watched.receive
    (Watched.step hS) Watched.turn
  have hintact := intact_recordedRun_of_append hintact
  rw [reverse_brought_append]
  rw [recordedRun_append] at hintact ⊢
  refine hpath.keeps hbegins (Watched.step hS) Watched.turn fun hfall => ?_
  exact absurd ((congrArg not hintact).symm.trans hfall) Bool.false_ne_true

/-- A stop-loss that is brought to the book lives through the calls since then, and was not
reported before. -/
theorem life_recordedRun (hS : S.Faithful) (hnodup : (brought moves).Nodup)
    (hintact : (recordedRun S i history buffer os b moves).intact = true) (hr : r ∈ brought moves)
    (htype : (os.get r).type = .stopLoss) :
    Life r ((recordedRun S i history buffer os b moves).stage (brought moves).reverse)
        (callsSince S i history buffer os b moves r) ∧
      (transcript S i history buffer os b moves).reported.count r =
        (callsSince S i history buffer os b moves r).reported.count r := by
  obtain ⟨hold, hwatched⟩ := watched_recordedRun hS hnodup hintact hr htype
  obtain ⟨since, hlog, hlife⟩ := hwatched.life
  have hlog : transcript S i history buffer os b moves = _ := hlog
  have hsince : callsSince S i history buffer os b moves r = since := by
    unfold callsSince
    rw [hlog, List.drop_left]
  rw [hsince, hlog, Transcript.reported_append, List.count_append,
    List.count_eq_zero.2 hold, zero_add]
  exact ⟨hlife, rfl⟩

/-- A stop-loss that was closed while it was dormant is so for good. -/
theorem revoked_recordedRun (hS : S.Faithful) {before after : List (Move σ)}
    (hnodup : (brought (before ++ after)).Nodup)
    (hintact : (recordedRun S i history buffer os b (before ++ after)).intact = true)
    (htype : ((recordedRun S i history buffer os b before).state.order r).type = .stopLoss)
    (hclosed : ((recordedRun S i history buffer os b before).state.order r).closed = true) :
    Revoked r ((recordedRun S i history buffer os b (before ++ after)).stage
      (brought (before ++ after)).reverse) := by
  refine holds_run before after hnodup hintact ?_ Revoked.receive (Revoked.step hS) Revoked.turn
  have hawake :
      Awake os ((recordedRun S i history buffer os b before).stage (brought before).reverse) :=
    awake_recordedRun hS (nodup_brought_of_append hnodup) (intact_recordedRun_of_append hintact)
  exact ⟨hawake.tidy, htype, hclosed, fun hr => (hawake.reported r hr).2 htype⟩

/-- Stop-losses fire once, and when they are reached, in every run where settlement is simulated,
orders are brought once, and nothing breaks off. An accepted stop-loss that is dormant and not
closed was spared by all trades since it was brought to the book. One that became active was set
off by the first trade since then that reached its trigger, and was reported once in the whole run.
One that was closed while dormant stays dormant and is never reported. -/
theorem stopLosses_fire_once (i : Instrument) (history buffer : Nat) (os : Orders) (b : Simulated)
    (moves : List (Move Simulated)) (hnodup : (brought moves).Nodup)
    (hintact : ((opening i history buffer os b).run Simulated.settlement moves).intact = true)
    (r : OrderRef) :
    let run := (opening i history buffer os b).run Simulated.settlement
    let o := (run moves).state.order r
    let since := callsSince Simulated.settlement i history buffer os b moves r
    let log := transcript Simulated.settlement i history buffer os b moves
    (r ∈ (run moves).register.accepted → o.type = .stopLoss → o.closed = false → since.Spares o) ∧
    ((os.get r).type ≠ .stopLossActive → o.type = .stopLossActive →
      since.SetOff r ∧ log.reported.count r = 1) ∧
    ∀ before after, moves = before ++ after → ((run before).state.order r).type = .stopLoss →
      ((run before).state.order r).closed = true → o.type = .stopLoss ∧ r ∉ log.reported := by
  intro run o since log
  have horder : ∀ moves, (run moves).state.order r =
      (recordedRun Simulated.settlement i history buffer os b moves).state.order r :=
    fun moves => order_recordedRun moves r
  have hintact : (recordedRun Simulated.settlement i history buffer os b moves).intact = true := by
    rw [← run_recording] at hintact
    exact hintact
  have hawake : Awake os _ := awake_recordedRun Simulated.faithful hnodup hintact
  have hfollow : (os.get r).Follows o := by
    rw [show o = _ from horder moves]
    exact hawake.follow r
  refine ⟨fun hr htype hclosed => ?_, fun hnot hactive => ?_, ?_⟩
  · have hr : r ∈ (recordedRun Simulated.settlement i history buffer os b
        moves).register.accepted := by
      rw [show run moves = _ from (run_recording moves).symm] at hr
      exact hr
    have hbrought : r ∈ brought moves :=
      List.mem_reverse.1 (hawake.tidy.custody.brought r (.inl hr))
    have hdormant : (os.get r).type = .stopLoss :=
      hfollow.type.elim (fun heq => heq.symm.trans htype) fun h => h.1
    have hlife := (life_recordedRun Simulated.faithful hnodup hintact hbrought hdormant).1
    rw [show o = _ from horder moves] at htype hclosed ⊢
    cases hlife with
    | dormant type unreported notDue spared => exact spared hr hclosed
    | pending type unreported since_eq trade due => exact absurd due List.not_mem_nil
    | fired type => exact absurd htype type
    | reported type => exact absurd htype type
  · have hdormant : (os.get r).type = .stopLoss :=
      hfollow.type.elim (fun heq => absurd (heq.symm.trans hactive) hnot) fun h => h.1
    rw [show o = _ from horder moves] at hactive
    have hbrought : r ∈ brought moves := by
      by_contra hnever
      refine hnot ((hawake.type r fun hr => hnever ?_).symm.trans hactive)
      exact List.mem_reverse.1 (hawake.tidy.custody.brought r (.inl hr))
    obtain ⟨hlife, hcount⟩ := life_recordedRun Simulated.faithful hnodup hintact hbrought hdormant
    cases hlife with
    | dormant type => cases type.symm.trans hactive
    | pending type => cases type.symm.trans hactive
    | fired type unreported since_eq spared sets reports_only mem =>
      exact absurd mem List.not_mem_nil
    | reported type once set => exact ⟨set, hcount.trans once⟩
  · rintro before after rfl htype hclosed
    rw [horder] at htype hclosed
    have hrevoked := revoked_recordedRun Simulated.faithful hnodup hintact htype hclosed
    exact ⟨(congrArg (·.type) (horder _)).trans hrevoked.type, hrevoked.unreported⟩

/-- Two stop-losses that sell at 95 and 85, bids at 92 and 80, and an ask at 90 that takes the
first of them. -/
def fallingMarket : Orders where
  rows := #[{ Session.ownCross.order 1 1 .ask 95 2 with type := .stopLoss },
    { Session.ownCross.order 2 2 .ask 85 3 with type := .stopLoss },
    Session.ownCross.order 3 3 .bid 92 4, Session.ownCross.order 4 4 .bid 80 9,
    Session.ownCross.order 5 5 .ask 90 4]

/-- The trade at 92 sets off the first stop-loss of `fallingMarket` and spares the second, and what
the first then sells at 80 sets off the second. -/
theorem fires_once_of_fallingMarket :
    let moves : List (Move Simulated) := [.submit .ask ⟨0⟩, .submit .ask ⟨1⟩, .start,
      .submit .bid ⟨2⟩, .submit .bid ⟨3⟩, .submit .ask ⟨4⟩]
    let opening := opening ⟨⟨0⟩, .ofUInt64 90⟩ 10 10 fallingMarket Simulated.empty
    ((brought moves).Nodup ∧ (opening.run Simulated.settlement moves).intact = true) ∧
    (transcript Simulated.settlement ⟨⟨0⟩, .ofUInt64 90⟩ 10 10 fallingMarket .empty
      moves).fills.map (·.price) = [.ofUInt64 92, .ofUInt64 80, .ofUInt64 80] ∧
    (callsSince Simulated.settlement ⟨⟨0⟩, .ofUInt64 90⟩ 10 10 fallingMarket .empty
      moves ⟨1⟩).SetOff ⟨1⟩ ∧
    (transcript Simulated.settlement ⟨⟨0⟩, .ofUInt64 90⟩ 10 10 fallingMarket .empty
      moves).reported.count ⟨1⟩ = 1 := by
  intro moves opening
  have hnodup : (brought moves).Nodup := by decide
  have hintact : (opening.run Simulated.settlement moves).intact = true := by decide +kernel
  refine ⟨⟨hnodup, hintact⟩, by decide +kernel, ?_⟩
  exact (stopLosses_fire_once _ _ _ fallingMarket _ moves hnodup hintact ⟨1⟩).2.1 (by decide)
    (by decide +kernel)

end Floor

end Bourse
