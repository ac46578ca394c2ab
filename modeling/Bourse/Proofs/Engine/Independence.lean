import Bourse.Proofs.Engine.Visits
import Bourse.Proofs.Session.Basic

/-!
# Instruments are independent

All books of an engine share one settlement and one table of orders. Still, what happens to the
orders of other instruments makes no difference to an instrument: after a run its book, its orders
and its trades are as if only the operations had been applied that concern it, those on its own
orders and those that concern every instrument, such as flagging a user (`Exchange.sees_run`).

So operations on different instruments commute, and it does not matter in which order the books are
visited when the engine is brought up (`Exchange.instruments_independent`).
-/

namespace Bourse

open Bourse.Action

/-! ## Operations -/

namespace Operation

/-- The operation is one on an engine that is up, and leaves it up. -/
def isRunning : Operation → Bool
  | .bootstrap .. | .shutdown => false
  | .submit .. | .withdraw .. | .cancel .. | .reject .. | .tick .. | .flush => true

/-- The order that the operation is about, if it is about one. -/
def order? : Operation → Option OrderRef
  | .submit _ r | .withdraw _ r | .cancel r => some r
  | .bootstrap .. | .reject .. | .tick .. | .flush | .shutdown => none

/-- The operation is about an order of the instrument, or about no order. -/
def concerns (os : Orders) (i : InstrumentId) (c : Operation) : Bool :=
  c.order?.all fun r => (os.get r).instrument = i

end Operation

namespace Simulated

/-- Cancelling an order does the same in offices in step. -/
theorem parallel_cancel {mine : OrderRef → Prop} {p p' : Office Simulated} {r : OrderRef}
    (hr : mine r) : Local mine p p' (Office.onOrders (Orders.cancel r)) := by
  intro s s' hs
  refine paired_within ?_
  unfold Orders.cancel
  refine paired_current ?_
  rw [hs.orders r hr]
  dsimp only
  split
  · exact paired_pure ⟨trivial, hs⟩
  · refine (paired_replace (R := fun _ os os' => Office.InStep mine p p'
      { s.state with orders := os } { s'.state with orders := os' })
      (hs.set hr Order.follows_close)).bind fun _ t t' ht => ?_
    exact paired_log_bind fun u u' hu hu' => paired_pure ⟨trivial, hu ▸ hu' ▸ ht⟩

end Simulated

namespace Exchange

variable {os : Orders} {i : InstrumentId} {x x' : Logged (Exchange Simulated)} {c : Operation}

/-- Paired actions leave the engines in relation. -/
theorem perform_of_paired {α : Type} {act : Action (Exchange Simulated) α}
    {R : Exchange Simulated → Exchange Simulated → Prop}
    (h : Paired act act x x' (fun _ => R) R) : R (perform act x).state (perform act x').state := by
  unfold Paired at h
  unfold perform
  cases hx : act x <;> cases hx' : act x' <;> rw [hx, hx'] at h
  · exact h.2
  · exact h.elim
  · exact h.elim
  · exact h.2

/-- Waiting for the books changes nothing. -/
theorem ends_visitFlush (hx : Filed os x.state) {books : List Book}
    (h : ∀ b ∈ books, b ∈ x.state.books) :
    Ends (visitBooks Desk.flush books) x (fun _ y => y.state = x.state) (fun _ _ => False) := by
  induction books generalizing x with
  | nil => exact rfl
  | cons b rest ih =>
    have hflush : Ends (Desk.flush : Action (Desk Simulated) _) ⟨⟨x.state.office, b⟩, x.journal⟩
        (fun _ t => t.state = ⟨x.state.office, b⟩) (fun _ _ => False) := by
      simp only [Desk.flush, ends_bind, ends_current]
      cases b.phase <;> exact rfl
    have hvisit : Ends (onBook b Desk.flush) x (fun _ y => y.state = x.state)
        (fun _ _ => False) := by
      refine ends_within.2 (hflush.imp fun _ t ht => ?_)
      show { x.state with office := t.state.office, books := putBook t.state.book x.state.books } =
        x.state
      rw [ht, putBook_of_mem hx.distinct (h b List.mem_cons_self)]
    refine hvisit.bind ?_
    rintro (error | receipt) y hy
    · exact hy
    · refine (ih (hy ▸ hx) fun c hc => hy ▸ h c (List.mem_cons_of_mem _ hc)).imp fun _ z hz => ?_
      exact hz.trans hy

/-- Waiting for all books leaves the engine as it is. -/
theorem state_flush (hx : Filed os x.state) : (apply x .flush).state = x.state :=
  perform_of_ends (P := fun y => y.state = x.state)
    ((ends_visitFlush hx fun _ hb => hb).mono (fun _ _ hy => hy) fun _ _ hf => hf.elim)

/-- An operation about an order has its effect on the order's instrument. -/
theorem together_apply (hids : (os.rows.toList.map (·.id)).Nodup) {r : OrderRef}
    (hc : c.order? = some r) (hx : Filed os x.state) (hx' : Filed os x'.state)
    (h : Sees os (os.get r).instrument x.state x'.state) :
    Together os (os.get r).instrument x.state x'.state (apply x c).state (apply x' c).state := by
  cases c with
  | submit side r =>
    cases hc
    exact perform_of_paired (paired_route hids rfl (Desk.own_submit rfl) hx hx' h)
  | withdraw side r =>
    cases hc
    exact perform_of_paired (paired_route hids rfl (Desk.own_withdraw rfl) hx hx' h)
  | cancel r =>
    cases hc
    have hcancel : Simulated.Local (os.Lists (os.get r).instrument) x.state.office x'.state.office
        (Office.onOrders (Orders.cancel r)) := Simulated.parallel_cancel rfl
    refine perform_of_paired (paired_within ((hcancel _ _ h.office.inStep).mono ?_ ?_))
    · exact fun _ o o' ho => .of_inStep hids hx hx' h ho.2
    · exact fun o o' ho => .of_inStep hids hx hx' h ho
  | bootstrap _ _ | reject _ | tick _ | flush | shutdown => cases hc

/-- An operation about no order does the same for all instruments. -/
theorem sees_apply_common (hc : c.order? = none) (hrun : c.isRunning = true)
    (hx : Filed os x.state) (hx' : Filed os x'.state) (h : Sees os i x.state x'.state) :
    Filed os (apply x c).state ∧ Sees os i (apply x c).state (apply x' c).state := by
  cases c with
  | reject u =>
    refine ⟨⟨hx.follow, hx.holds, hx.distinct⟩, h.book, ⟨h.office.orders, ?_, h.office.now⟩,
      h.trades⟩
    exact congrArg (u :: ·) h.office.rejected
  | tick now =>
    exact ⟨⟨hx.follow, hx.holds, hx.distinct⟩, h.book, ⟨h.office.orders, h.office.rejected, rfl⟩,
      h.trades⟩
  | flush =>
    rw [state_flush hx, state_flush hx']
    exact ⟨hx, h⟩
  | submit _ _ | withdraw _ _ | cancel _ => cases hc
  | bootstrap _ _ | shutdown => cases hrun

/-- An operation leaves the engine filed. -/
theorem filed_apply (hids : (os.rows.toList.map (·.id)).Nodup) (hrun : c.isRunning = true)
    (hx : Filed os x.state) : Filed os (apply x c).state := by
  cases hc : c.order? with
  | some r => exact (together_apply hids hc hx hx (.refl _)).left.filed
  | none => exact (sees_apply_common (i := ⟨0⟩) hc hrun hx hx (.refl _)).1

/-- An operation that concerns an instrument does the same in engines that look the same from
there. -/
theorem sees_apply (hids : (os.rows.toList.map (·.id)).Nodup) (hrun : c.isRunning = true)
    (hi : c.concerns os i = true) (hx : Filed os x.state) (hx' : Filed os x'.state)
    (h : Sees os i x.state x'.state) : Sees os i (apply x c).state (apply x' c).state := by
  unfold Operation.concerns at hi
  cases hc : c.order? with
  | some r =>
    rw [hc] at hi
    obtain rfl : (os.get r).instrument = i := of_decide_eq_true hi
    exact (together_apply hids hc hx hx' h).sees
  | none => exact (sees_apply_common hc hrun hx hx' h).2

/-- An operation that does not concern an instrument changes nothing there. -/
theorem sees_apply_other (hids : (os.rows.toList.map (·.id)).Nodup) (hi : c.concerns os i = false)
    (hx : Filed os x.state) : Sees os i x.state (apply x c).state := by
  unfold Operation.concerns at hi
  cases hc : c.order? with
  | some r =>
    rw [hc] at hi
    have hne : (os.get r).instrument ≠ i := of_decide_eq_false hi
    exact (together_apply hids hc hx hx (.refl _)).left.others i hne.symm
  | none =>
    rw [hc] at hi
    cases hi

/-! ## Runs -/

variable {operations operations' : List Operation}

/-- Operations leave the engine filed, by induction on them. -/
theorem filed_run (hids : (os.rows.toList.map (·.id)).Nodup)
    (hrun : ∀ c ∈ operations, c.isRunning = true) (hx : Filed os x.state) :
    Filed os (run x operations).state := by
  induction operations generalizing x with
  | nil => exact hx
  | cons c rest ih =>
    have hc := filed_apply hids (hrun c List.mem_cons_self) hx
    exact ih (fun c hc => hrun c (List.mem_cons_of_mem _ hc)) hc

/-- Of a run an instrument sees the operations that concern it. -/
theorem sees_run (hids : (os.rows.toList.map (·.id)).Nodup)
    (hrun : ∀ c ∈ operations, c.isRunning = true) (hx : Filed os x.state) (hx' : Filed os x'.state)
    (h : Sees os i x.state x'.state) :
    Sees os i (run x (operations.filter (·.concerns os i))).state (run x' operations).state := by
  induction operations generalizing x x' with
  | nil => exact h
  | cons c rest ih =>
    have hc := hrun c List.mem_cons_self
    have hrest : ∀ c ∈ rest, c.isRunning = true := fun c hc => hrun c (List.mem_cons_of_mem _ hc)
    have hx'' := filed_apply hids hc hx'
    cases hi : c.concerns os i with
    | true =>
      rw [List.filter_cons_of_pos hi]
      exact ih hrest (filed_apply hids hc hx) hx'' (sees_apply hids hc hi hx hx' h)
    | false =>
      rw [List.filter_cons_of_neg (Bool.eq_false_iff.1 hi)]
      exact ih hrest hx hx'' (h.trans (sees_apply_other hids hi hx'))

/-- From engines that look the same, runs of which an instrument sees the same look the same to
it. -/
theorem sees_of_filter (hids : (os.rows.toList.map (·.id)).Nodup)
    (hrun : ∀ c ∈ operations, c.isRunning = true) (hrun' : ∀ c ∈ operations', c.isRunning = true)
    (hsame : operations'.filter (·.concerns os i) = operations.filter (·.concerns os i))
    (hx : Filed os x.state) (hx' : Filed os x'.state) (h : Sees os i x.state x'.state) :
    Sees os i (run x operations).state (run x' operations').state :=
  (sees_run hids hrun hx hx (.refl _)).symm.trans (hsame ▸ sees_run hids hrun' hx hx' h)

/-- After an engine was brought up and ran, each instrument has its book, its orders and its trades
independently of the others. -/
structure Independent (os : Orders) (x : Logged (Exchange Simulated)) (source : OrderSource)
    (history : Nat) (operations : List Operation) : Prop where
  /-- The instrument has what it has if only the operations are applied that concern it. -/
  alone : ∀ i, AgreeOn os i
    (run (apply x (.bootstrap source history)) (operations.filter (·.concerns os i))).state
    (run (apply x (.bootstrap source history)) operations).state
  /-- Operations on orders of different instruments commute. -/
  commute : ∀ done c c' rest, operations = done ++ c :: c' :: rest →
    (∀ i, c.concerns os i = true → c'.concerns os i = false) → ∀ i, AgreeOn os i
      (run (apply x (.bootstrap source history)) operations).state
      (run (apply x (.bootstrap source history)) (done ++ c' :: c :: rest)).state
  /-- If the source names the instruments in another order, so that the books are visited in
  another order, then the engine is brought up too, and the instrument has the same. -/
  visits : ∀ instruments instruments', source.instruments = .ok instruments →
    SameInstruments instruments instruments' →
    BringsUp { source with instruments := .ok instruments' } history x ∧ ∀ i, AgreeOn os i
      (run (apply x (.bootstrap source history)) operations).state
      (run (apply x (.bootstrap { source with instruments := .ok instruments' } history))
        operations).state

/-- Instruments are independent, in every run of an engine that was brought up, on orders of
distinct numbers. -/
theorem instruments_independent (config : EngineConfig) (os : Orders)
    (hids : (os.rows.toList.map (·.id)).Nodup) (before operations : List Operation)
    (hbefore : ∀ c ∈ before, c.isRunning = true) (hrun : ∀ c ∈ operations, c.isRunning = true)
    (source : OrderSource) (history : Nat)
    (hup : BringsUp source history (run (opening config os) before)) :
    Independent os (run (opening config os) before) source history operations := by
  have hopening : Filed os (opening config os).state :=
    ⟨.refl _, List.forall_mem_nil _, List.nodup_nil⟩
  have hx : Filed os (run (opening config os) before).state := filed_run hids hbefore hopening
  have hy : Filed os (apply (run (opening config os) before)
      (.bootstrap source history)).state := by
    obtain ⟨z, hz⟩ := hup
    cases hinstruments : source.instruments with
    | error e =>
      simp only [bootstrap, hinstruments] at hz
      cases hz
    | ok instruments =>
      exact (alike_bootstrap hids hx hinstruments (fun _ => rfl) ⟨z, hz⟩).2.left
  refine ⟨fun i => (sees_run hids hrun hy hy (.refl _)).agreeOn, ?_, ?_⟩
  · rintro done c c' rest rfl hapart i
    refine (sees_of_filter hids hrun ?_ ?_ hy hy (.refl _)).agreeOn
    · intro d hd
      refine hrun d ?_
      simp only [List.mem_append, List.mem_cons] at hd ⊢
      tauto
    · rw [List.filter_append, List.filter_append]
      cases hc : c.concerns os i with
      | false => simp [List.filter_cons, hc]
      | true => simp [hc, hapart i hc]
  · intro instruments instruments' hinstruments hsame
    obtain ⟨hup', halike⟩ := alike_bootstrap hids hx hinstruments hsame hup
    exact ⟨hup', fun i =>
      (sees_of_filter hids hrun hrun rfl halike.left halike.right (halike.sees i)).agreeOn⟩

/-- An ask and a bid for each of two instruments. -/
def twoInstruments : Orders where
  rows := #[Session.ownCross.order 1 1 .ask 90 5, Session.ownCross.order 2 2 .bid 95 4,
    { Session.ownCross.order 3 1 .ask 20 3 with instrument := ⟨1⟩ },
    { Session.ownCross.order 4 2 .bid 20 6 with instrument := ⟨1⟩ }]

/-- Two instruments, with the ask for the first of `twoInstruments`. -/
def firstAsk (instruments : List Instrument) : OrderSource :=
  MemorySource.toSource ⟨instruments, [⟨0⟩], [], []⟩

/-- The orders of `twoInstruments` are handed in by turns, and each instrument has its trade. It
has the same if the second instrument is named first. -/
theorem independent_of_twoInstruments :
    let x := run (opening .default twoInstruments) []
    let operations := [.submit .ask ⟨2⟩, .submit .bid ⟨1⟩, .submit .bid ⟨3⟩]
    let first : Instrument := ⟨⟨0⟩, .ofUInt64 90⟩
    let second : Instrument := ⟨⟨1⟩, .ofUInt64 20⟩
    let y := (run (apply x (.bootstrap (firstAsk [first, second]) 10)) operations).state
    BringsUp (firstAsk [first, second]) 10 x ∧
    (∀ i ∈ [⟨0⟩, ⟨1⟩], (y.tradesOf twoInstruments i).length = 1) ∧
      Independent twoInstruments x (firstAsk [first, second]) 10 operations ∧
      ∀ i, AgreeOn twoInstruments i y
        (run (apply x (.bootstrap (firstAsk [second, first]) 10)) operations).state := by
  intro x operations first second y
  have hup : BringsUp (firstAsk [first, second]) 10 x := by decide +kernel
  have hindependent := instruments_independent .default twoInstruments (by decide) [] operations
    (by decide) (by decide) _ 10 hup
  have hsame : SameInstruments [first, second] [second, first] :=
    .of_perm (.swap _ _ _) (by decide)
  exact ⟨hup, by decide +kernel, hindependent, (hindependent.visits _ _ rfl hsame).2⟩

end Exchange

end Bourse
