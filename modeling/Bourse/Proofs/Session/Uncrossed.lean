import Bourse.Proofs.Floor.Steps
import Bourse.Proofs.Session.Crossed
import Bourse.Proofs.Session.Priority

/-!
# Uncrossed books stay uncrossed

Matching an incoming order ends when the order is finished or when nothing on the other side
crosses it (`Desk.Unopposed`): the round that stops looks at the best order of another user alone,
but if that one does not cross then none does. So what is left of the order can rest without
crossing anybody, and reconciling a book in which nothing crosses matches nothing.

`Desk.Calm` is what this comes to for everything a book does: nothing of different users crosses if
nothing did before, unless a stop-loss became active. For sessions see `Session.stays_uncrossed`.
-/

namespace Bourse

open Bourse.Action

namespace Desk

variable {s t : Logged (Desk Simulated)} {d d' d'' : Desk Simulated} {side : Side} {user : UserId}
  {r : OrderRef} {i j : Item} {known : OrderRef → Prop}

/-! ## Orders that nothing crosses -/

/-- No open order of another user on the other side crosses the order. -/
def Unopposed (side : Side) (user : UserId) (r : OrderRef) (d : Desk Simulated) : Prop :=
  ∀ i ∈ (d.book.queue side.opposite).bag, Eligible (some user) (d.order i.order) →
    Crosses side r d i.order = false

/-- If an order is crossed then so it is by what outranks the crossing one. -/
theorem crosses_of_outranked (hi : Rests known d.office.orders side.opposite i)
    (hj : Rests known d.office.orders side.opposite j)
    (hle : (rank (.ofResting side.opposite) j i).isLE) (hc : Crosses side r d j.order = true) :
    Crosses side r d i.order = true := by
  have hself : ∀ direction,
      (rank direction (.ofOrder r (d.order r)) (.ofOrder r (d.order r))).isLE :=
    fun direction => Std.ReflCmp.isLE_rfl
  have hsame : (d.order r).type = (Item.ofOrder r (d.order r)).type ∧
      (d.order r).price = (Item.ofOrder r (d.order r)).price := ⟨rfl, rfl⟩
  cases side with
  | ask =>
    exact crosses_of_isLE hsame hsame ⟨hj.type, hj.price⟩ ⟨hi.type, hi.price⟩ (hself _) hle hc
  | bid =>
    exact crosses_of_isLE ⟨hj.type, hj.price⟩ ⟨hi.type, hi.price⟩ hsame hsame hle (hself _) hc

/-- A round that found nothing to match leaves the order unopposed. -/
theorem Unmatched.unopposed (h : Unmatched side user r d d') (hd : Sound known d) :
    Unopposed side user r d' := by
  have horder : d'.order = d.order := by
    unfold Desk.order
    rw [h.office]
  intro i hi he
  have hi := h.sheds.mem_bag_of hi
  unfold Crosses
  rw [horder] at he ⊢
  rcases h.none with hnone | ⟨best, hbest, hc⟩
  · exact absurd he (hnone i hi)
  · by_contra hcross
    have hcross := crosses_of_outranked (hd.resting _ best hbest.mem) (hd.resting _ i hi)
      (hbest.isLE i hi he) (Bool.eq_true_of_not_eq_false hcross)
    exact Bool.false_ne_true (hc.symm.trans hcross)

/-- A pair that crosses did so before, if orders came on and queues lost orders at most. -/
theorem CrossingPair.of_thinned (h : CrossingPair d' i j) (hd : Sound known d)
    (hf : d.office.orders.Follow d'.office.orders) (hthinned : Thinned d d') :
    CrossingPair d i j := by
  have hi := Multiset.mem_of_le (hthinned.queue .ask) h.ask
  have hj := Multiset.mem_of_le (hthinned.queue .bid) h.bid
  have hri := hd.resting .ask i hi
  have hrj := hd.resting .bid j hj
  refine ⟨hi, hj, (hf _).isOpen h.askOpen, (hf _).isOpen h.bidOpen, ?_, ?_⟩
  · have hu := h.users
    unfold Desk.order at *
    rwa [(hf _).user, (hf _).user] at hu
  · have hc := h.crosses
    unfold Bourse.crosses Order.isMarket Desk.order at *
    rwa [(hf _).type_eq (hri.type ▸ hri.active), (hf _).type_eq (hrj.type ▸ hrj.active),
      (hf _).price, (hf _).price] at hc

/-- An order that nothing crosses can rest. -/
theorem Unopposed.not_crossed_rested (h : Unopposed (d.order r).side (d.order r).user r d)
    (hu : ¬ Crossed d) (l : Ledger) : ¬ Crossed (d.rested (d.order r).side r l) := by
  rintro ⟨a, b, hp⟩
  have hmem : ∀ {s : Side} {i : Item}, i ∈ ((d.rested (d.order r).side r l).book.queue s).bag →
      ((d.order r).side = s ∧ i = .ofOrder r (d.order r)) ∨ i ∈ (d.book.queue s).bag := by
    intro s i hi
    rw [queue_rested] at hi
    split at hi
    · next hs =>
      rw [Queue.push, Queue.bag_pushItem, Multiset.mem_cons] at hi
      exact hi.imp (⟨hs, ·⟩) (hs ▸ ·)
    · exact .inr hi
  have hao : (d.order a.order).isOpen = true := hp.askOpen
  have hbo : (d.order b.order).isOpen = true := hp.bidOpen
  have husers : (d.order a.order).user ≠ (d.order b.order).user := hp.users
  have hc : Bourse.crosses (d.order a.order) (d.order b.order) = true := hp.crosses
  rcases hmem hp.ask with ⟨hs, rfl⟩ | ha
  · rcases hmem hp.bid with ⟨hs', -⟩ | hb
    · exact Side.noConfusion (hs.symm.trans hs')
    · rw [hs] at h
      exact Bool.false_ne_true
        ((h b hb ⟨hbo, fun heq => husers (Option.some.inj heq)⟩).symm.trans hc)
  · rcases hmem hp.bid with ⟨hs, rfl⟩ | hb
    · rw [hs] at h
      exact Bool.false_ne_true
        ((h a ha ⟨hao, fun heq => husers (Option.some.inj heq).symm⟩).symm.trans hc)
    · exact hu ⟨a, b, ha, hb, hao, hbo, husers, hc⟩

/-! ## Keeping calm -/

/-- No stop-loss became active between the two desks. -/
def NoneActivated (d d' : Desk Simulated) : Prop :=
  d'.office.backend.activated = d.office.backend.activated

/-- No stop-loss waits. -/
def Asleep (d : Desk Simulated) : Prop := ∀ s, (d.book.stopLossQueue s).bag = 0

/-- From the first desk to the second nothing is taken back. An uncrossed book stays uncrossed if
no stop-loss becomes active, and none does if none waits. -/
structure Calm (d d' : Desk Simulated) : Prop where
  sound : Sound (fun _ => True) d'
  orders : d.office.orders.Follow d'.office.orders
  activated : d.office.backend.activated.toList <+: d'.office.backend.activated.toList
  uncrossed : ¬ Crossed d → NoneActivated d d' → ¬ Crossed d'
  asleep : ¬ Crossed d → Asleep d → NoneActivated d d' ∧ Asleep d'

/-- What did not become active in the long run did not become active on the way. -/
theorem NoneActivated.split (h : NoneActivated d d'')
    (hle : d.office.backend.activated.toList <+: d'.office.backend.activated.toList)
    (hle' : d'.office.backend.activated.toList <+: d''.office.backend.activated.toList) :
    NoneActivated d d' ∧ NoneActivated d' d'' := by
  have hd : d'.office.backend.activated.toList = d.office.backend.activated.toList := by
    rw [h] at hle'
    exact (hle.eq_of_length (Nat.le_antisymm hle.length_le hle'.length_le)).symm
  have hd : NoneActivated d d' := Array.toList_inj.1 hd
  exact ⟨hd, h.trans hd.symm⟩

namespace Calm

theorem refl (hd : Sound (fun _ => True) d) : Calm d d :=
  ⟨hd, .refl _, List.prefix_rfl, fun hu _ => hu, fun _ ha => ⟨rfl, ha⟩⟩

theorem trans (h : Calm d d') (h' : Calm d' d'') : Calm d d'' where
  sound := h'.sound
  orders := h.orders.trans h'.orders
  activated := h.activated.trans h'.activated
  uncrossed hu hn := by
    obtain ⟨hn, hn'⟩ := hn.split h.activated h'.activated
    exact h'.uncrossed (h.uncrossed hu hn) hn'
  asleep hu ha := by
    obtain ⟨hn, ha'⟩ := h.asleep hu ha
    obtain ⟨hn', ha''⟩ := h'.asleep (h.uncrossed hu hn) ha'
    exact ⟨hn'.trans hn, ha''⟩

/-- Queues that lose orders at most stay uncrossed. -/
theorem of_thinned (hd : Sound known d) (hd' : Sound (fun _ => True) d')
    (hf : d.office.orders.Follow d'.office.orders) (h : Thinned d d') : Calm d d' where
  sound := hd'
  orders := hf
  activated := h.activated.symm ▸ List.prefix_rfl
  uncrossed hu _ := by
    rintro ⟨a, b, hp⟩
    exact hu ⟨a, b, hp.of_thinned hd hf h⟩
  asleep _ ha := ⟨h.activated, fun s => Multiset.le_zero.1 (ha s ▸ h.dormant s)⟩

/-- Nothing is said of a book that is crossed to begin with. -/
theorem of_crossed (hc : Crossed d) (hd' : Sound (fun _ => True) d')
    (hf : d.office.orders.Follow d'.office.orders)
    (hle : d.office.backend.activated.toList <+: d'.office.backend.activated.toList) : Calm d d' :=
  ⟨hd', hf, hle, fun hu => absurd hc hu, fun hu => absurd hc hu⟩

/-- The book in another phase. -/
theorem enter (h : Calm d d') (p : Phase) :
    Calm d { d' with book := { d'.book with phase := p } } := by
  refine h.trans (.of_thinned h.sound ?_ (.refl _) (.of_queues ?_ ?_ rfl))
  · exact h.sound.enter p
  · exact fun s => by cases s <;> rfl
  · exact fun s => by cases s <;> rfl

/-- What changes no queue and no office. -/
theorem of_beside (hd : Sound (fun _ => True) d) (h : Beside d d') : Calm d d' := by
  have hf : d.office.orders.Follow d'.office.orders := h.office.symm ▸ .refl _
  exact .of_thinned hd (hd.congr h.queue h.stopLossQueue hf) hf
    (.of_queues h.queue h.stopLossQueue (congrArg (·.backend.activated) h.office))

end Calm

/-! ## Matching -/

/-- If the round activated a stop-loss then one was waiting, and it was noted; otherwise the queues
lost orders at most. -/
theorem Matched.calm {fired : Bool} {trade : Option Trade} (h : Matched side user r i d d')
    (hd : Sound known d) (htriggered : Triggered (fun _ => True) trade d' fired d'') :
    Calm d d'' ∧ (fired = true → ¬ NoneActivated d d'') := by
  have hactivated : d'.office.backend.activated = d.office.backend.activated := by
    rw [h.office]
    exact Office.activated_dealt
  have hf : d.office.orders.Follow d''.office.orders :=
    h.onward.orders.trans htriggered.onward.orders
  cases fired with
  | true =>
    have hmore : ¬ NoneActivated d d'' := by
      intro hn
      have hlt := htriggered.activated rfl
      rw [hactivated, show d''.office.backend.activated = _ from hn] at hlt
      exact lt_irrefl _ hlt
    refine ⟨⟨htriggered.sound, hf, h.onward.activated.trans htriggered.onward.activated,
      fun _ hn => absurd hn hmore, fun _ ha => ?_⟩, fun _ => hmore⟩
    obtain ⟨_, -, s, k, hk, -⟩ := htriggered.reaches rfl
    rw [h.dormant, ha] at hk
    exact absurd hk (Multiset.notMem_zero _)
  | false =>
    have hquiet := htriggered.quiet rfl
    have hthinned : Thinned d' d'' := by
      refine ⟨fun s => (congrArg Queue.bag (hquiet.queue s)).le, ?_,
        congrArg (·.backend.activated) hquiet.office⟩
      intro s
      obtain ⟨dropped, hbag, -⟩ := hquiet.dormant s
      exact hbag ▸ Multiset.le_add_left _ _
    exact ⟨.of_thinned hd htriggered.sound hf
      ((h.sheds.thinned h.dormant hactivated).trans hthinned), nofun⟩

/-- Matching an order is calm, and activates only what it must, by induction on the limit. -/
theorem calm_matchIncoming (limit : Nat) {activated : Bool} (hd : Sound (fun _ => True) s.state)
    (hr : Incoming (fun _ => True) side user r s.state) :
    Ends (matchIncoming Simulated.settlement side user r limit activated) s
      (fun answer t => Calm s.state t.state ∧
        (answer = true → activated = true ∨ ¬ NoneActivated s.state t.state) ∧
        ((t.state.order r).isOpen = true → Unopposed side user r t.state))
      (fun _ t => Calm s.state t.state) := by
  induction limit generalizing s activated with
  | zero => exact .refl hd
  | succ limit ih =>
    rw [matchIncoming_succ, ends_bind]
    refine ends_matchRound (upkeep_true _) hd hr trivial ?_ ?_ ?_ ?_
    · intro hclosed
      exact ⟨.refl hd, fun h => .inl (by simpa using h), fun h => absurd
        (hclosed.symm.trans h) nofun⟩
    · intro t hround hsound _
      refine ⟨.of_thinned hd hsound hround.onward.orders (hround.sheds.thinned hround.dormant ?_),
        fun h => .inl (by simpa using h), fun _ => hround.unopposed hd⟩
      rw [hround.office]
    · intro i e fired t _ hround _ htriggered _
      obtain ⟨hcalm, hfired⟩ := hround.calm hd htriggered
      refine (ih hcalm.sound (hr.follow hcalm.orders)).mono ?_ fun _ u hu => hcalm.trans hu
      rintro answer u ⟨hcalm', hanswer, hunopposed⟩
      refine ⟨hcalm.trans hcalm', fun h => ?_, hunopposed⟩
      have hsplit := fun hn : NoneActivated s.state u.state =>
        hn.split hcalm.activated hcalm'.activated
      rcases hanswer h with hor | hnot
      · rcases Bool.or_eq_true_iff.1 hor with hact | hfire
        · exact .inl hact
        · exact .inr fun hn => hfired hfire (hsplit hn).1
      · exact .inr fun hn => hnot (hsplit hn).2
    · intro f t hbroken hthinned _
      exact .of_thinned hd hbroken.sound hbroken.onward.orders hthinned

/-- Reconciling is calm, by induction on the limit. -/
theorem calm_reconcileSteps (limit : Nat) (hd : Sound (fun _ => True) s.state) :
    Ends (reconcileSteps Simulated.settlement limit) s (fun _ t => Calm s.state t.state)
      (fun _ t => Calm s.state t.state) := by
  induction limit generalizing s with
  | zero => exact .refl hd
  | succ limit ih =>
    rw [reconcileSteps_succ, ends_bind]
    refine ends_reconcileRound (upkeep_true _) hd trivial ?_ ?_ ?_
    · exact fun t hon hsound _ _ hthinned _ => .of_thinned hd hsound hon.orders hthinned
    · rintro fired t hon hsound _ _ ⟨a, b, -, hcrossed, -⟩ -
      have hlater : ∀ u : Logged (Desk Simulated), Calm t.state u.state → Calm s.state u.state :=
        fun u hu => .of_crossed ⟨a, b, hcrossed⟩ hu.sound (hon.orders.trans hu.orders)
          (hon.activated.trans hu.activated)
      exact (ih hsound).mono (fun _ => hlater) fun _ => hlater
    · exact fun f t hbroken hthinned _ =>
        .of_thinned hd hbroken.sound hbroken.onward.orders hthinned

/-- Reconciling the whole book is calm. -/
theorem calm_reconcile (hd : Sound (fun _ => True) s.state) :
    Ends (reconcile Simulated.settlement) s (fun _ t => Calm s.state t.state)
      (fun _ t => Calm s.state t.state) := by
  simp only [reconcile, ends_bind, ends_current]
  exact calm_reconcileSteps _ hd

/-- What is left of an unopposed order rests. -/
theorem calm_restLeft (hd : Sound (fun _ => True) s.state)
    (ht : (s.state.order r).type ≠ .stopLoss) (hr : (s.state.order r).isOpen = true →
      Unopposed (s.state.order r).side (s.state.order r).user r s.state) :
    Ends (restLeft (s.state.order r).side r) s (fun _ t => Calm s.state t.state)
      (fun _ t => Calm s.state t.state) := by
  simp only [restLeft, ends_bind, ends_current]
  split
  · next hopen =>
    have hcalm : ∀ l, Calm s.state (s.state.rested (s.state.order r).side r l) := by
      intro l
      refine ⟨hd.rested trivial rfl ht l, .refl _, List.prefix_rfl,
        fun hu _ => (hr hopen).not_crossed_rested hu l, fun _ ha => ⟨rfl, fun s => ?_⟩⟩
      rw [← ha s]
      exact congrArg Queue.bag ((Book.stopLossQueue_withLedger ..).trans
        (stopLossQueue_withItems ..))
    refine (ends_rest (P := fun _ => True) (B := True) fun j => ?_).mono ?_ ?_
    · exact Ledger.breaks_add.mono (fun _ _ _ => trivial) fun _ _ hf => ⟨hf, trivial⟩
    · rintro _ ⟨t, j⟩ ⟨l, -, rfl⟩
      exact hcalm l
    · rintro f ⟨t, j⟩ ⟨-, -, l, rfl⟩
      exact hcalm l
  · exact .refl hd

/-- Processing an order keeps an uncrossed book uncrossed unless it activates a stop-loss, also if
it breaks off. -/
theorem calm_process (hd : Sound (fun _ => True) s.state)
    (ht : (s.state.order r).type ≠ .stopLoss) :
    Ends (process Simulated.settlement r) s (fun _ t => Calm s.state t.state)
      (fun _ t => Calm s.state t.state) := by
  rw [process_eq, ends_bind, ends_current]
  refine (calm_matchIncoming _ hd ⟨trivial, rfl, rfl, ht⟩).bind ?_
  rintro activated t ⟨hcalm, hanswer, hunopposed⟩
  have ho := hcalm.orders r
  have hrest := calm_restLeft (s := t) (r := r) hcalm.sound (ho.type_ne ht)
  rw [show (t.state.order r).side = (s.state.order r).side from ho.side,
    show (t.state.order r).user = (s.state.order r).user from ho.user] at hrest
  refine Ends.bind ((hrest hunopposed).mono (fun _ _ hu => hu) fun _ u hu => hcalm.trans hu) ?_
  rintro _ u hu
  cases activated with
  | false => exact hcalm.trans hu
  | true =>
    have hlast : ∀ v : Logged (Desk Simulated), Calm u.state v.state → Calm s.state v.state :=
      fun v hv => (hcalm.trans hu).trans hv
    exact (calm_reconcile hu.sound).mono (fun _ => hlast) fun _ => hlast

/-- Matching one order is calm. -/
theorem calm_runTask (hd : Sound (fun _ => True) s.state)
    (ht : (s.state.order r).type ≠ .stopLoss) :
    Ends (runTask Simulated.settlement r) s (fun _ t => Calm s.state t.state)
      (fun _ _ => False) := by
  simp only [runTask, ends_bind, ends_attempt]
  exact (calm_process hd ht).mono (fun _ _ hu => hu) fun f _ hu => hu.enter (.crashed f)

/-- Matching the submissions that waited is calm, by induction on their list. -/
theorem calm_takeSubmissions (submissions : List Submission) (hd : Sound (fun _ => True) s.state)
    (hsub : ∀ sub ∈ submissions, (s.state.order sub.order).type ≠ .stopLoss) :
    Ends (takeSubmissions Simulated.settlement submissions) s
      (fun _ t => Calm s.state t.state) (fun _ _ => False) := by
  induction submissions generalizing s with
  | nil => exact .refl hd
  | cons sub rest ih =>
    have hone : Ends (takeOne Simulated.settlement sub) s (fun _ t => Calm s.state t.state)
        (fun _ _ => False) := by
      simp only [takeOne, ends_bind, ends_current]
      split
      · have hann : Ends (announce s.state sub) s (fun _ t => t.state = s.state)
            (fun _ _ => False) := by
          unfold announce
          split <;> exact rfl
        refine hann.bind ?_
        intro _ t ht
        rw [← ht] at hd hsub ⊢
        exact calm_runTask hd (hsub sub List.mem_cons_self)
      · exact .refl hd
    rw [takeSubmissions_cons, ends_bind, ends_current]
    refine hone.bind ?_
    intro _ t hcalm
    refine (ih hcalm.sound ?_).bind ?_
    · exact fun sub' hmem => (hcalm.orders _).type_ne (hsub sub' (List.mem_cons_of_mem _ hmem))
    · exact fun _ u hu => hcalm.trans hu

/-- Starting the book is calm. -/
theorem calm_start (hd : Sound (fun _ => True) s.state)
    (hwait : ∀ r ∈ s.state.book.phase.orders, (s.state.order r).type ≠ .stopLoss) :
    Ends (start Simulated.settlement) s (fun _ t => Calm s.state t.state) (fun _ _ => False) := by
  simp only [start, ends_bind, ends_current]
  cases hphase : s.state.book.phase with
  | waiting submissions =>
    rw [hphase] at hwait
    have htake : ∀ t : Logged (Desk Simulated), Calm s.state t.state →
        Ends (takeSubmissions Simulated.settlement submissions) t
          (fun _ u => Calm s.state u.state) (fun _ _ => False) := by
      intro t ht
      refine (calm_takeSubmissions submissions ht.sound ?_).imp (fun _ u hu => ht.trans hu)
      exact fun sub hmem => (ht.orders _).type_ne (hwait _ (List.mem_map_of_mem hmem))
    simp only [ends_bind, ends_attempt]
    have hstopped := (Calm.refl hd).enter .stopped
    refine (calm_reconcile (s := ⟨_, s.journal⟩) hstopped.sound).mono ?_ ?_
    · intro _ t ht
      exact htake ⟨_, _⟩ ((hstopped.trans ht).enter .running)
    · intro f t ht
      exact htake t (hstopped.trans ht)
  | running => exact .refl hd
  | crashed cause => exact .refl hd
  | stopped => exact .refl hd

/-- Parking a stop-loss changes nothing of the resting orders. -/
theorem not_crossed_parked (hu : ¬ Crossed d) : ¬ Crossed (d.parked r) := by
  rintro ⟨a, b, hp⟩
  have hqueue : ∀ s, (d.parked r).book.queue s = d.book.queue s :=
    fun s => Book.queue_withStopLossQueue ..
  exact hu ⟨a, b, hqueue .ask ▸ hp.ask, hqueue .bid ▸ hp.bid, hp.askOpen, hp.bidOpen, hp.users,
    hp.crosses⟩

/-- Handing in a stop-loss that was not activated. -/
theorem not_crossed_submit (hu : ¬ Crossed s.state) (ht : (s.state.order r).type = .stopLoss) :
    Ends (submit Simulated.settlement side r) s (fun _ t => ¬ Crossed t.state)
      (fun _ _ => False) := by
  simp only [submit, checkSide, ends_bind, ends_current, ends_pure]
  by_cases hside : (s.state.order r).side = side
  · simp only [hside, if_true, ends_bind, ends_current, ht]
    split
    · exact hu
    · rw [ends_bind]
      exact ends_parkStopLoss fun _ => not_crossed_parked hu
  · simp only [hside, if_false]
    exact hu

/-- Loading a stop-loss that was not activated. -/
theorem not_crossed_load (hu : ¬ Crossed s.state) (ht : (s.state.order r).type = .stopLoss) :
    Ends (load side r) s (fun _ t => ¬ Crossed t.state) (fun _ _ => False) := by
  simp only [load, checkSide, ends_bind, ends_current, ends_pure]
  by_cases hside : (s.state.order r).side = side
  · simp only [hside, if_true, ends_bind, ends_current]
    split
    · exact hu
    · simp only [loadOld, ends_bind, ends_current, ht, if_true]
      exact ends_parkStopLoss fun _ => not_crossed_parked hu
  · simp only [hside, if_false]
    exact hu

/-- Handing in an order that is no stop-loss. -/
theorem calm_submit (hd : Sound (fun _ => True) s.state)
    (ht : (s.state.order r).type ≠ .stopLoss) :
    Ends (submit Simulated.settlement side r) s (fun _ t => Calm s.state t.state)
      (fun _ _ => False) := by
  simp only [submit, checkSide, ends_bind, ends_current, ends_pure]
  by_cases hside : (s.state.order r).side = side
  · simp only [hside, if_true, ends_bind, ends_current]
    split
    · exact .refl hd
    · cases hphase : s.state.book.phase with
      | waiting submissions => exact (Calm.refl hd).enter _
      | running =>
        simp only [ends_bind]
        exact (calm_runTask hd ht).imp (fun _ _ hu => hu)
      | crashed cause => exact .refl hd
      | stopped => exact .refl hd
  · simp only [hside, if_false]
    exact .refl hd

/-- Settlement cancels an order. -/
theorem calm_cancel (hd : Sound (fun _ => True) s.state) :
    Ends (onOffice (Office.onOrders (Orders.cancel r))) s
      (fun _ t => Calm s.state t.state ∧ NoneActivated s.state t.state) (fun _ _ => False) := by
  simp only [ends_onOffice, Office.onOrders, ends_within, Orders.cancel, ends_bind, ends_current]
  split
  · exact ⟨.refl hd, rfl⟩
  · have hf : s.state.office.orders.Follow
        (s.state.office.orders.set r (s.state.office.orders.get r).close) :=
      Orders.follow_modify Order.follows_close
    exact ⟨.of_thinned hd (hd.congr (fun _ => rfl) (fun _ => rfl) hf) hf
      (.of_queues (fun _ => rfl) (fun _ => rfl) rfl), rfl⟩

/-- The backend changes, but it forgets no activated stop-loss. -/
theorem calm_backend (hd : Sound (fun _ => True) s.state) {f : Simulated → Simulated}
    (hf : ∀ b, (f b).activated = b.activated) :
    Ends (onOffice (Office.onBackend (Action.change f))) s
      (fun _ t => Calm s.state t.state ∧ NoneActivated s.state t.state) (fun _ _ => False) :=
  ⟨.of_thinned hd (hd.congr (fun _ => rfl) (fun _ => rfl) (.refl _)) (.refl _)
    (.of_queues (fun _ => rfl) (fun _ => rfl) (hf _)), hf _⟩

/-- Those who give up are calm. -/
theorem calm_abandon (hd : Sound (fun _ => True) s.state) :
    Ends abandon s (fun _ t => Calm s.state t.state) (fun _ _ => False) := by
  simp only [abandon, ends_bind, ends_current]
  cases s.state.book.phase with
  | waiting submissions => exact (Calm.refl hd).enter _
  | running => exact .refl hd
  | crashed cause => exact .refl hd
  | stopped => exact .refl hd

/-- Stopping the book is calm. -/
theorem calm_shutdown (hd : Sound (fun _ => True) s.state) :
    Ends shutdown s (fun _ t => Calm s.state t.state) (fun _ _ => False) := by
  simp only [shutdown, ends_bind, ends_current]
  cases s.state.book.phase with
  | waiting submissions => exact .refl hd
  | running => exact (Calm.refl hd).enter .stopped
  | crashed cause => exact (Calm.refl hd).enter .stopped
  | stopped => exact .refl hd

end Desk

/-! ## Sessions -/

/-- The call loads an order of a previous run. -/
def Call.loads : Call → Bool
  | load .. => true
  | _ => false

namespace Session

open Desk

variable {s : Session} {c : Call}

/-- A call keeps an uncrossed book uncrossed unless it activates a stop-loss. -/
theorem calm_apply {known : OrderRef → Prop} (hd : Sound (fun _ => True) s.state)
    (hwait : ∀ r ∈ s.waiting, known r ∧ (s.state.order r).type ≠ .stopLoss)
    (hload : c.loads = false) (htype : ∀ r ∈ c.handed?, (s.state.order r).type ≠ .stopLoss) :
    Calm s.state (s.apply c).state := by
  have hperform : ∀ {α : Type} {act : Action (Desk Simulated) α} {note : α → Register → Register},
      Ends act s.desk (fun _ t => Calm s.state t.state) (fun _ t => Calm s.state t.state) →
        Calm s.state (s.perform act note).state := fun h =>
    perform_of_ends (R := fun s' => Calm s.state s'.state) h (fun _ _ h => h) fun _ _ h => h
  cases c with
  | load side r => cases hload
  | loadTrades trades =>
    exact hperform ((beside_loadTrades trades).mono (fun _ _ => .of_beside hd) fun _ _ =>
      .of_beside hd)
  | start =>
    exact hperform ((calm_start hd fun r hr => (hwait r hr).2).mono (fun _ _ h => h)
      fun _ _ hf => hf.elim)
  | submit side r =>
    exact hperform ((calm_submit hd (htype r rfl)).mono (fun _ _ h => h) fun _ _ hf => hf.elim)
  | reject u =>
    exact hperform ((calm_backend hd (f := (·.reject u)) fun _ => rfl).mono (fun _ _ h => h.1)
      fun _ _ hf => hf.elim)
  | cancel r => exact hperform ((calm_cancel hd).mono (fun _ _ h => h.1) fun _ _ hf => hf.elim)
  | withdraw side r =>
    exact hperform (beside_withdraw.mono (fun _ _ => .of_beside hd) fun _ _ => .of_beside hd)
  | abandon => exact hperform ((calm_abandon hd).mono (fun _ _ h => h) fun _ _ hf => hf.elim)
  | shutdown => exact hperform ((calm_shutdown hd).mono (fun _ _ h => h) fun _ _ hf => hf.elim)
  | tick now =>
    exact hperform ((calm_backend hd (f := ({ · with now })) fun _ => rfl).mono (fun _ _ h => h.1)
      fun _ _ hf => hf.elim)

/-- Calls that load nothing and hand in no stop-loss keep an uncrossed book uncrossed unless they
activate a stop-loss. -/
theorem calm_run (i : Instrument) (history buffer : Nat) (os : Orders) (calls later : List Call)
    (hload : ∀ c ∈ later, c.loads = false)
    (htype : ∀ r ∈ handed later,
      (((opening i history buffer os).run calls).state.order r).type ≠ .stopLoss) :
    Calm ((opening i history buffer os).run calls).state
      (((opening i history buffer os).run calls).run later).state := by
  induction later using List.reverseRecOn with
  | nil => exact .refl (came_run i history buffer os calls).sound
  | append_singleton later c ih =>
    have hcalm := ih (fun c hc => hload c (List.mem_append_left _ hc)) fun r hr =>
      htype r (handed_append later c ▸ List.mem_append_left _ hr)
    have hcame := came_run i history buffer os (calls ++ later)
    rw [run, List.foldl_append] at hcame
    have hrun : ((opening i history buffer os).run calls).run (later ++ [c]) =
        (((opening i history buffer os).run calls).run later).apply c := List.foldl_append
    rw [hrun]
    refine hcalm.trans (calm_apply hcame.sound hcame.waiting (hload c ?_) fun r hr => ?_)
    · exact List.mem_append_right _ List.mem_cons_self
    · refine (hcalm.orders r).type_ne (htype r ?_)
      rw [handed_append]
      exact List.mem_append_right _ (Option.mem_toList.2 hr)

/-- What keeps a session uncrossed from here on. -/
structure StaysUncrossed (s : Session) : Prop where
  /-- An order is processed, and no stop-loss becomes active. -/
  process : ∀ r, (s.state.order r).type ≠ .stopLoss →
    Ends (Desk.process Simulated.settlement r) s.desk
      (fun _ t => NoneActivated s.state t.state → ¬ Crossed t.state)
      (fun _ t => NoneActivated s.state t.state → ¬ Crossed t.state)
  /-- Anything but loading is done, and no stop-loss becomes active. -/
  call : ∀ c : Call, c.loads = false → NoneActivated s.state (s.apply c).state →
    ¬ Crossed (s.apply c).state
  /-- Settlement cancels an order. -/
  cancel : ∀ r, ¬ Crossed (s.apply (.cancel r)).state
  /-- The book takes the depth of an order away. -/
  withdraw : ∀ side r, ¬ Crossed (s.apply (.withdraw side r)).state
  /-- A user is flagged as unable to settle. -/
  reject : ∀ u, ¬ Crossed (s.apply (.reject u)).state
  /-- A stop-loss is parked. -/
  park : ∀ side r, (s.state.order r).type = .stopLoss →
    ¬ Crossed (s.apply (.submit side r)).state ∧ ¬ Crossed (s.apply (.load side r)).state
  /-- Nothing is loaded from here on, and there are no stop-losses. Then an open bid at or above
  the price of an open ask is of the same user, and so are the two if either takes any price. -/
  run : ∀ later : List Call, (∀ c ∈ later, c.loads = false) → Asleep s.state →
    (∀ r ∈ handed later, (s.state.order r).type ≠ .stopLoss) →
    ∀ a ∈ ((s.run later).state.book.queue .ask).bag,
    ∀ b ∈ ((s.run later).state.book.queue .bid).bag,
      let ask := (s.run later).state.order a.order
      let bid := (s.run later).state.order b.order
      ask.isOpen = true → bid.isOpen = true →
        ask.isMarket = true ∨ bid.isMarket = true ∨ ask.price ≤ bid.price → ask.user = bid.user

/-- From any state of a session in which no open ask and open bid of different users cross, none
will as long as no stop-loss becomes active. -/
theorem stays_uncrossed (i : Instrument) (history buffer : Nat) (os : Orders) (calls : List Call)
    (hu : ¬ Crossed ((opening i history buffer os).run calls).state) :
    StaysUncrossed ((opening i history buffer os).run calls) := by
  obtain ⟨hd, hwait, -⟩ := came_run i history buffer os calls
  have hcalls := calm_run i history buffer os calls
  generalize (opening i history buffer os).run calls = s at hu hd hwait hcalls
  have hkept : ∀ {t : Logged (Desk Simulated)},
      Calm s.state t.state ∧ NoneActivated s.state t.state → ¬ Crossed t.state := fun h =>
    h.1.uncrossed hu h.2
  have hbeside : ∀ {t : Logged (Desk Simulated)}, Beside s.state t.state → ¬ Crossed t.state :=
    fun h => hkept ⟨.of_beside hd h,
      congrArg (fun o : Office Simulated => o.backend.activated) h.office⟩
  have hpark : ∀ side r, (s.state.order r).type = .stopLoss →
      ¬ Crossed (s.apply (.submit side r)).state := fun side r ht =>
    perform_of_ends (R := fun s' => ¬ Crossed s'.state) (not_crossed_submit hu ht)
      (fun _ _ h => h) fun _ _ hf => hf.elim
  refine ⟨?_, ?_, ?_, ?_, ?_, ?_, ?_⟩
  · intro r ht
    exact (calm_process hd ht).mono (fun _ t h => h.uncrossed hu) fun _ t h => h.uncrossed hu
  · intro c hload hn
    by_cases htype : ∀ r ∈ c.handed?, (s.state.order r).type ≠ .stopLoss
    · exact (calm_apply hd hwait hload htype).uncrossed hu hn
    · cases c with
      | submit side r =>
        exact hpark side r (by simpa [Call.handed?] using htype)
      | load side r => cases hload
      | _ => exact absurd (fun r hr => nomatch hr) htype
  · intro r
    exact perform_of_ends (R := fun s' => ¬ Crossed s'.state) (calm_cancel hd)
      (fun _ _ h => hkept h) fun _ _ hf => hf.elim
  · intro side r
    exact perform_of_ends (R := fun s' => ¬ Crossed s'.state) beside_withdraw
      (fun _ _ h => hbeside h) fun _ _ h => hbeside h
  · intro u
    exact perform_of_ends (R := fun s' => ¬ Crossed s'.state)
      (calm_backend hd (f := (·.reject u)) fun _ => rfl) (fun _ _ h => hkept h) fun _ _ hf =>
      hf.elim
  · intro side r ht
    refine ⟨hpark side r ht, ?_⟩
    exact perform_of_ends (R := fun s' => ¬ Crossed s'.state) (not_crossed_load hu ht)
      (fun _ _ h => h) fun _ _ hf => hf.elim
  · intro later hload ha htype a hamem b hbmem ask bid hao hbo hcross
    have hcalm := hcalls later hload htype
    obtain ⟨hn, -⟩ := hcalm.asleep hu ha
    by_contra husers
    refine hcalm.uncrossed hu hn ⟨a, b, hamem, hbmem, hao, hbo, husers, ?_⟩
    show (ask.isMarket || bid.isMarket || decide (ask.price ≤ bid.price)) = true
    simpa [or_assoc] using hcross

/-- The orders of `spread` are all open, and the only pair that crosses is of one user. No later
pair of different users will. -/
theorem stays_uncrossed_of_spread :
    let s := (opening ⟨⟨0⟩, .ofUInt64 90⟩ 10 10 spread).run
      [.load .ask ⟨0⟩, .load .bid ⟨1⟩, .start, .submit .bid ⟨2⟩]
    ((s.state.book.queue .ask).drain.map (·.order) = [⟨0⟩] ∧
      (s.state.book.queue .bid).drain.map (·.order) = [⟨2⟩, ⟨1⟩] ∧
      ∀ r ∈ [⟨0⟩, ⟨1⟩, ⟨2⟩], (s.state.order r).isOpen = true) ∧
    ¬ Crossed s.state ∧ StaysUncrossed s := by
  intro s
  have hpairs : ∀ a ∈ (s.state.book.queue .ask).bag, ∀ b ∈ (s.state.book.queue .bid).bag,
      (s.state.order a.order).user = (s.state.order b.order).user ∨
        crosses (s.state.order a.order) (s.state.order b.order) = false := by decide +kernel
  have hu : ¬ Crossed s.state := by
    rintro ⟨a, b, hp⟩
    rcases hpairs a hp.ask b hp.bid with huser | hcross
    · exact hp.users huser
    · exact Bool.false_ne_true (hcross.symm.trans hp.crosses)
  exact ⟨⟨by decide +kernel, by decide +kernel, by decide +kernel⟩, hu,
    stays_uncrossed _ _ _ _ _ hu⟩

end Session

end Bourse
