import Bourse.Proofs.Session.Invariant
import Bourse.Proofs.Twin.Matching

/-!
# The life of books that match the same

Calls on twin desks are answered the same, and leave twins. An order that is brought must have a
number of its own, which is in hand until the order is taken in (`Desk.Twin.paired_submit`); the
numbers of those who wait for the start stay in hand until then (`Desk.Twin.paired_start`).
-/

namespace Bourse

open Bourse.Action

namespace Desk

namespace Twin

variable {lax : Bool} {aside : Multiset Item} {hand : Multiset OrderId}
  {s s' : Logged (Desk Simulated)} {d d' : Desk Simulated} {side : Side} {r : OrderRef}

/-- Twins enter a phase together. -/
theorem paired_enter (h : Twin lax aside hand s.state s'.state) {p : Phase}
    {B : Desk Simulated → Desk Simulated → Prop} :
    Paired (Desk.enter p) (Desk.enter p) s s' (fun _ => Twin lax aside hand) B := ⟨rfl, h.enter p⟩

/-- What follows goes on from the other phase. -/
theorem paired_enter_bind {α : Type} {p : Phase} {next next' : Unit → Action (Desk Simulated) α}
    {R : α → Desk Simulated → Desk Simulated → Prop} {B : Desk Simulated → Desk Simulated → Prop}
    (h : ∀ t t', t.state = { s.state with book := { s.state.book with phase := p } } →
      t'.state = { s'.state with book := { s'.state.book with phase := p } } →
      Paired (next ()) (next' ()) t t' R B) :
    Paired (Desk.enter p >>= next) (Desk.enter p >>= next') s s' R B := h _ _ rfl rfl

/-- A stop-loss is put aside on both desks. -/
theorem paired_parkStopLoss (h : Twin lax 0 ((s.state.order r).id ::ₘ hand) s.state s'.state)
    {B : Desk Simulated → Desk Simulated → Prop} :
    Paired (parkStopLoss r) (parkStopLoss r) s s' (fun _ => Twin lax 0 hand) B := by
  simp only [parkStopLoss]
  refine paired_current ?_
  rw [h.order]
  refine Paired.bind (R := fun _ => Twin lax 0 hand) (paired_changeStopLossQueue ?_)
    fun _ _ _ ht => paired_log ht
  have hnumber : (s.state.order r).id ::ₘ (Multiset.map (·.id) (0 : Multiset Item) + hand) ≤
      Multiset.map (·.id) (0 : Multiset Item) + ((s.state.order r).id ::ₘ hand) :=
    (Multiset.add_cons ..).ge
  refine h.withStopLossQueue ((h.dormant _).pushItem _) ?_ (Queue.numbers_push hnumber _ _)
  intro j hj
  rcases Queue.mem_push le_rfl _ _ hj with hj | rfl
  · exact .inl hj
  · exact .inr rfl

/-- Loading an order does the same to twins. -/
theorem paired_load (h : Twin lax 0 ((s.state.order r).id ::ₘ hand) s.state s'.state) :
    Paired (load side r) (load side r) s s' (fun _ => Twin lax 0 hand) (Twin lax 0 hand) := by
  have hgive := h.weaken (Multiset.le_cons_self hand _) le_rfl
  simp only [load, checkSide, bind_assoc, pure_bind]
  refine paired_current ?_
  rw [h.order]
  split
  · exact paired_pure hgive
  · refine paired_current ?_
    rw [h.order]
    split
    · exact paired_log_bind fun t t' ht ht' => paired_pure (ht ▸ ht' ▸ hgive)
    · simp only [loadOld, bind_assoc]
      refine paired_current ?_
      rw [h.order]
      split
      · exact h.paired_parkStopLoss.bind fun _ _ _ ht => paired_pure ht
      · exact h.paired_rest.bind fun _ _ _ ht => paired_pure ht

/-- Replaying trades does the same to twins. -/
theorem paired_loadTrades (trades : List Trade) (h : Twin lax 0 hand s.state s'.state) :
    Paired (loadTrades trades) (loadTrades trades) s s' (fun _ => Twin lax 0 hand)
      (Twin lax 0 hand) := by
  simp only [loadTrades, replayTrades]
  refine paired_current (paired_log_bind fun t t' ht ht' => ?_)
  refine (Paired.forM (P := fun _ => Twin lax 0 hand) ?_ (ht ▸ ht' ▸ h)).bind ?_
  · intro tr rest u u' hu
    exact (hu.paired_onLedger (fun _ _ => Ledger.paired_recordTrade)
      Ledger.hides_recordTrade).mono (fun _ _ _ hv => hv.1) fun _ _ hv => hv
  · intro _ u u' hu
    split
    · exact paired_change (hu.priced _)
    · exact paired_pure hu

/-- Withdrawing an order does the same to twins. -/
theorem paired_withdrawCall (h : Twin lax 0 hand s.state s'.state) :
    Paired (withdraw side r) (withdraw side r) s s' (fun _ => Twin lax 0 hand)
    (Twin lax 0 hand) := by
  simp only [withdraw, checkSide, bind_assoc, pure_bind]
  refine paired_current ?_
  rw [h.order]
  split
  · exact paired_pure h
  · refine paired_current ?_
    rw [h.order]
    refine (h.paired_withdraw _).bind fun _ t t' ht => ?_
    exact paired_log_bind fun u u' hu hu' => paired_pure (hu ▸ hu' ▸ ht.1)

/-- An order is matched on both desks. If that breaks off both books have crashed. -/
theorem paired_runTask (h : Twin lax 0 ((s.state.order r).id ::ₘ hand) s.state s'.state)
    (hd' : Sound (fun _ => True) s'.state) (htype : (s'.state.order r).type ≠ .stopLoss) :
    Paired (runTask Simulated.settlement r) (runTask Simulated.settlement r) s s'
      (fun _ => Twin lax 0 hand) (fun _ _ => False) := by
  simp only [runTask]
  refine Paired.bind (R := fun _ => Twin lax 0 hand)
    (paired_attempt ((h.paired_process hd' htype).mono (fun _ _ _ ht => ht) fun _ _ ht _ => ht)) ?_
  intro result t t' ht
  cases result with
  | ok _ => exact paired_pure ht
  | error cause => exact ht.paired_enter

/-- An order is handed in on both desks. Its number stays in hand if the order waits. -/
theorem paired_submit (h : Twin lax 0 ((s.state.order r).id ::ₘ hand) s.state s'.state)
    (hd' : Sound (fun _ => True) s'.state) :
    Paired (submit Simulated.settlement side r) (submit Simulated.settlement side r) s s'
      (fun answer t t' => Twin lax 0 hand t t' ∧
        (answer = .ok .waiting → Twin lax 0 ((s.state.order r).id ::ₘ hand) t t'))
      (fun _ _ => False) := by
  have hgive := h.weaken (Multiset.le_cons_self hand _) le_rfl
  simp only [submit, checkSide, bind_assoc, pure_bind]
  refine paired_current ?_
  rw [h.order]
  split
  · exact paired_pure ⟨hgive, fun hw => by cases hw⟩
  refine paired_current ?_
  rw [h.order]
  split
  · exact paired_log_bind fun t t' ht ht' => paired_pure ⟨ht ▸ ht' ▸ hgive, fun hw => by cases hw⟩
  split
  · exact h.paired_parkStopLoss.bind fun _ _ _ ht => paired_pure ⟨ht, fun hw => by cases hw⟩
  · next htype =>
    rw [h.phase, h.stoppedError]
    cases s.state.book.phase with
    | waiting submissions =>
      exact h.paired_enter.bind fun _ _ _ ht =>
        paired_pure ⟨ht.weaken (Multiset.le_cons_self _ _) le_rfl, fun _ => ht⟩
    | running =>
      exact (h.paired_runTask hd' (h.order ▸ htype)).bind fun _ _ _ ht =>
        paired_pure ⟨ht, fun hw => by cases hw⟩
    | crashed cause => exact paired_pure ⟨hgive, fun hw => by cases hw⟩
    | stopped => exact paired_pure ⟨hgive, fun hw => by cases hw⟩

/-- Orders keep their numbers. -/
theorem ids_eq {e e' : Desk Simulated} {aside' : Multiset Item} {hand' : Multiset OrderId}
    (h : Twin lax aside hand d d') (he : Twin lax aside' hand' e e')
    (hf : d'.office.orders.Follow e'.office.orders) :
    (fun sub : Submission => (d.order sub.order).id) = fun sub => (e.order sub.order).id := by
  funext sub
  rw [← h.order, ← he.order]
  exact (hf sub.order).id.symm

/-- One submission that waited is matched on both desks, unless matching broke off before. -/
theorem paired_takeOne {sub : Submission}
    (h : Twin lax 0 ((s.state.order sub.order).id ::ₘ hand) s.state s'.state)
    (hd' : Sound (fun _ => True) s'.state) (htype : (s'.state.order sub.order).type ≠ .stopLoss) :
    Paired (takeOne Simulated.settlement sub) (takeOne Simulated.settlement sub) s s'
      (fun _ t t' => Twin lax 0 hand t t' ∧ Sound (fun _ => True) t' ∧
        s'.state.office.orders.Follow t'.office.orders) (fun _ _ => False) := by
  simp only [takeOne]
  refine paired_current ?_
  rw [show s'.state.book.isRunning = s.state.book.isRunning from
    congrArg (fun p => decide (p = Phase.running)) h.phase]
  split
  · -- what is said of it is all that differs if nobody waits for the answer
    have htask : ∀ t t', t.state = s.state → t'.state = s'.state →
        Paired (runTask Simulated.settlement sub.order)
        (runTask Simulated.settlement sub.order) t t'
          (fun _ t t' => Twin lax 0 hand t t' ∧ Sound (fun _ => True) t' ∧
            s'.state.office.orders.Follow t'.office.orders) (fun _ _ => False) := by
      rintro ⟨t, j⟩ ⟨t', j'⟩ rfl rfl
      have hkept := ends_runTask (s := ⟨s'.state, j'⟩) (g := .empty)
        (Session.keeps_true (fun _ => True) fun _ => True) hd' trivial
        List.not_mem_nil htype trivial
      have hrun : Paired (runTask Simulated.settlement sub.order)
          (runTask Simulated.settlement sub.order) ⟨s.state, j⟩ ⟨s'.state, j'⟩
          (fun _ => Twin lax 0 hand) (fun _ _ => False) := paired_runTask h hd' htype
      refine (hrun.andRight (P := fun _ t => Sound (fun _ => True) t ∧
        s'.state.office.orders.Follow t.office.orders) (E := fun _ => False)
        (hkept.imp ?_)).mono (fun _ _ _ ht => ht) fun _ _ ht => ht.1
      rintro _ t (⟨hk, -⟩ | ⟨hk, -⟩)
      · exact ⟨hk.sound, hk.orders⟩
      · exact ⟨hk.sound, hk.orders⟩
    unfold announce
    split
    · exact paired_log_bind fun t t' ht ht' => htask t t' ht ht'
    · exact htask s s' rfl rfl
  · exact paired_pure ⟨h.weaken (Multiset.le_cons_self _ _) le_rfl, hd', .refl _⟩

/-- Submissions that waited are matched on both desks, the first first. -/
theorem paired_takeSubmissions (submissions : List Submission)
    (h : Twin lax 0
      ((submissions.map fun sub => (s.state.order sub.order).id : List OrderId) + hand)
      s.state s'.state) (hd' : Sound (fun _ => True) s'.state)
    (htypes : ∀ sub ∈ submissions, (s'.state.order sub.order).type ≠ .stopLoss) :
    Paired (takeSubmissions Simulated.settlement submissions)
      (takeSubmissions Simulated.settlement submissions) s s' (fun _ => Twin lax 0 hand)
      (fun _ _ => False) := by
  induction submissions generalizing s s' with
  | nil => exact paired_pure (by rwa [List.map_nil, Multiset.coe_nil, zero_add] at h)
  | cons sub rest ih =>
    rw [List.map_cons, ← Multiset.cons_coe, Multiset.cons_add] at h
    rw [takeSubmissions_cons]
    refine paired_current ?_
    rw [show s'.state.book.isRunning = s.state.book.isRunning from
      congrArg (fun p => decide (p = Phase.running)) h.phase, h.stoppedError]
    refine (h.paired_takeOne hd' (htypes sub List.mem_cons_self)).bind ?_
    rintro _ t t' ⟨ht, hsound, hf⟩
    refine (ih (h.ids_eq ht hf ▸ ht) hsound fun sub hsub => ?_).bind fun _ _ _ hu => paired_pure hu
    exact (hf sub.order).type_ne (htypes sub (List.mem_cons_of_mem _ hsub))

/-- A book is started on both desks. -/
theorem paired_start
    (h : Twin lax 0
      ((s.state.book.phase.orders.map fun r => (s.state.order r).id : List OrderId) + hand)
      s.state s'.state) (hd' : Sound (fun _ => True) s'.state)
    (htypes : ∀ r ∈ s'.state.book.phase.orders, (s'.state.order r).type ≠ .stopLoss) :
    Paired (start Simulated.settlement) (start Simulated.settlement) s s'
    (fun _ => Twin lax 0 hand)
      (fun _ _ => False) := by
  have hgive := h.weaken (Multiset.le_add_left hand _) le_rfl
  simp only [start]
  refine paired_current ?_
  rw [h.phase] at htypes ⊢
  rw [h.instrument]
  cases hphase : s.state.book.phase with
  | waiting submissions =>
    rw [hphase] at htypes
    have h : Twin lax 0
        ((submissions.map fun sub => (s.state.order sub.order).id : List OrderId) + hand) s.state
        s'.state := by
      rwa [hphase, Phase.orders, List.map_map] at h
    -- submissions are matched from wherever the book is sound and orders came on
    have htake : ∀ t t' : Logged (Desk Simulated),
        Twin lax 0
          ((submissions.map fun sub => (s.state.order sub.order).id : List OrderId) + hand)
            t.state t'.state → Sound (fun _ => True) t'.state →
        s'.state.office.orders.Follow t'.state.office.orders →
        Paired (takeSubmissions Simulated.settlement submissions)
          (takeSubmissions Simulated.settlement submissions) t t' (fun _ => Twin lax 0 hand)
          (fun _ _ => False) := by
      intro t t' ht hsound hf
      refine paired_takeSubmissions submissions (h.ids_eq ht hf ▸ ht) hsound fun sub hsub => ?_
      exact (hf sub.order).type_ne (htypes sub.order (List.mem_map_of_mem hsub))
    refine paired_enter_bind fun t t' ht ht' => ?_
    have htwin : Twin lax 0 _ t.state t'.state := ht ▸ ht' ▸ h.enter .stopped
    have hsound : Sound (fun _ => True) t'.state := ht' ▸ hd'.enter _
    have horders : s'.state.office.orders.Follow t'.state.office.orders :=
      ht' ▸ Orders.Follow.refl _
    have hreconcile := (htwin.paired_reconcile hsound).andRight
      (P := fun _ u => Sound (fun _ => True) u ∧ s'.state.office.orders.Follow u.office.orders)
      (E := fun u => Sound (fun _ => True) u ∧ s'.state.office.orders.Follow u.office.orders)
      ((ends_reconcile (upkeep_true _) hsound trivial).mono
        (fun _ _ hu => ⟨hu.2.1, horders.trans hu.1.orders⟩)
        fun _ _ hu => ⟨hu.sound, horders.trans hu.onward.orders⟩)
    refine Paired.bind (paired_attempt (R := fun _ u u' => Twin lax 0 _ u u' ∧
      Sound (fun _ => True) u' ∧ s'.state.office.orders.Follow u'.office.orders)
      (hreconcile.mono (fun _ _ _ hu => hu) fun _ _ hu _ => hu)) ?_
    rintro result u u' ⟨hu, hsound, hf⟩
    cases result with
    | ok _ =>
      refine paired_enter_bind fun v v' hv hv' => paired_log_bind fun w w' hw hw' => ?_
      refine (htake w w' ?_ ?_ ?_).bind fun _ _ _ hx => paired_pure hx
      · exact hw ▸ hw' ▸ hv ▸ hv' ▸ hu.enter .running
      · exact hw' ▸ hv' ▸ hsound.enter _
      · rw [hw', hv']
        exact hf
    | error cause => exact (htake u u' hu hsound hf).bind fun _ _ _ hx => paired_pure hx
  | running => exact paired_pure hgive
  | crashed cause => exact paired_pure hgive
  | stopped => exact paired_pure hgive

/-- Those who give up leave twins. -/
theorem paired_abandon (h : Twin lax 0 hand s.state s'.state) :
    Paired abandon abandon s s' (fun _ => Twin lax 0 hand) (fun _ _ => False) := by
  simp only [abandon]
  refine paired_current ?_
  rw [h.phase, h.capacity]
  cases s.state.book.phase with
  | waiting submissions => exact h.paired_enter.bind fun _ _ _ ht => paired_pure ht
  | running => exact paired_pure h
  | crashed cause => exact paired_pure h
  | stopped => exact paired_pure h

/-- Stopping the book does the same to twins. -/
theorem paired_shutdown (h : Twin lax 0 hand s.state s'.state) :
    Paired shutdown shutdown s s' (fun _ => Twin lax 0 hand) (fun _ _ => False) := by
  simp only [shutdown]
  refine paired_current ?_
  rw [h.phase]
  cases s.state.book.phase with
  | waiting submissions => exact paired_pure h
  | running =>
    refine paired_log_bind fun t t' ht ht' => ?_
    exact (paired_enter (ht ▸ ht' ▸ h)).bind fun _ _ _ hu => paired_pure hu
  | crashed cause =>
    refine paired_log_bind fun t t' ht ht' => ?_
    exact (paired_enter (ht ▸ ht' ▸ h)).bind fun _ _ _ hu => paired_pure hu
  | stopped => exact paired_pure h

/-- A cancellation by settlement does the same to twins. -/
theorem paired_cancel (h : Twin lax 0 hand s.state s'.state) :
    Paired (onOffice (Office.onOrders (Orders.cancel r)))
    (onOffice (Office.onOrders (Orders.cancel r)))
      s s' (fun _ => Twin lax 0 hand) (Twin lax 0 hand) := by
  have hunread : Unread (Orders.cancel r) := by
    refine unread_current.bind fun os => ?_
    simp only
    split
    · exact unread_pure _
    · exact (unread_replace _).bind fun _ => (unread_log _).bind fun _ => unread_pure _
  refine (h.paired_onOffice hunread.within ?_).mono (fun _ _ _ ht => ht.1) fun _ _ ht => ht
  simp only [ends_within, Orders.cancel, ends_bind, ends_current]
  split
  · exact .refl _
  · exact Orders.follow_modify Order.follows_close

/-- A change of settlement itself does the same to twins. -/
theorem paired_backend (f : Simulated → Simulated) (h : Twin lax 0 hand s.state s'.state) :
    Paired (onOffice (Office.onBackend (Action.change f)))
    (onOffice (Office.onBackend (Action.change f)))
      s s' (fun _ => Twin lax 0 hand) (Twin lax 0 hand) := by
  refine (h.paired_onOffice (unread_change f).within ?_).mono
    (fun _ _ _ ht => ht.1) fun _ _ ht => ht
  exact Orders.Follow.refl _

end Twin

end Desk

end Bourse
