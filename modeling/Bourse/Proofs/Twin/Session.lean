import Bourse.Proofs.Twin.Lifecycle

/-!
# Sessions side by side

`Session.Abreast` relates two sessions whose desks are twins and whose registers agree, while the
orders that wait and those still to be handed in have numbers of their own. The same call keeps
them abreast (`Session.abreast_apply`).
-/

namespace Bourse

open Bourse.Action Desk

/-- The numbers of orders in a table. -/
def Orders.numbers (os : Orders) (rs : List OrderRef) : Multiset OrderId :=
  (rs.map fun r => (os.get r).id : List OrderId)

/-- Some of the orders have some of the numbers. -/
theorem Orders.numbers_le {os : Orders} {rs rs' : List OrderRef} (h : rs.Sublist rs') :
    os.numbers rs ≤ os.numbers rs' := Multiset.coe_le.2 (h.map _).subperm

namespace Register

variable {g g' : Register} {r : OrderRef}

/-- The same is noted in both, but orders may have been accepted in another order. -/
structure Alike (g g' : Register) : Prop where
  accepted : g'.accepted.Perm g.accepted
  cancelled : g'.cancelled = g.cancelled
  withdrawn : g'.withdrawn = g.withdrawn

namespace Alike

theorem refl (g : Register) : Alike g g := ⟨.refl _, rfl, rfl⟩

/-- The same is noted when an order is accepted. -/
theorem accept (h : Alike g g') (r : OrderRef) : Alike (g.accept r) (g'.accept r) :=
  ⟨h.accepted.cons r, h.cancelled, h.withdrawn⟩

/-- The same is noted when settlement cancels an order. -/
theorem cancel (h : Alike g g') (r : OrderRef) : Alike (g.cancel r) (g'.cancel r) := by
  unfold Register.cancel
  simp only [h.accepted.mem_iff]
  split
  · exact ⟨h.accepted, congrArg (r :: ·) h.cancelled, h.withdrawn⟩
  · exact h

/-- The same is noted when the book withdraws an order. -/
theorem withdraw (h : Alike g g') (r : OrderRef) : Alike (g.withdraw r) (g'.withdraw r) := by
  unfold Register.withdraw
  simp only [h.accepted.mem_iff]
  split
  · exact ⟨h.accepted, h.cancelled, congrArg (r :: ·) h.withdrawn⟩
  · exact h

/-- The same is noted of the same answer to a load. -/
theorem loaded (h : Alike g g') (r : OrderRef) (answer : Except EngineError Unit) :
    Alike (g.loaded r answer) (g'.loaded r answer) := by
  cases answer
  · exact h
  · exact h.accept r

/-- The same is noted of the same answer to a submission. -/
theorem submitted (h : Alike g g') (r : OrderRef) (answer : Except EngineError Receipt) :
    Alike (g.submitted r answer) (g'.submitted r answer) := by
  rcases answer with _ | _ | _
  · exact h
  · exact h.accept r
  · exact h

/-- The same is noted of the same answer to a cancellation by settlement. -/
theorem afterCancel (h : Alike g g') (r : OrderRef) (answer : Except CancelError Unit) :
    Alike (g.afterCancel r answer) (g'.afterCancel r answer) := by
  cases answer
  · exact h
  · exact h.cancel r

/-- The same is noted of the same answer to a withdrawal. -/
theorem afterWithdraw (h : Alike g g') (r : OrderRef) (answer : Except EngineError Unit) :
    Alike (g.afterWithdraw r answer) (g'.afterWithdraw r answer) := by
  cases answer
  · exact h
  · exact h.withdraw r

/-- The same is noted when orders are accepted in turn. -/
theorem foldl_accept (h : Alike g g') (rs : List OrderRef) :
    Alike (rs.foldl Register.accept g) (rs.foldl Register.accept g') := by
  induction rs generalizing g g' with
  | nil => exact h
  | cons r rest ih => exact ih (h.accept r)

/-- The same is noted of the same end of a start. -/
theorem afterStart (h : Alike g g') (waiting : List OrderRef) (result : StartResult) :
    Alike (g.afterStart waiting result) (g'.afterStart waiting result) := by
  cases result with
  | started => exact h.foldl_accept waiting
  | refused error => exact h
  | broken cause => exact h

end Alike

end Register

namespace Session

variable {os : Orders} {lax : Bool} {future : List OrderRef} {s s' : Session} {calls : List Call}
  {c : Call} {α : Type}

/-- Twin desks and one register. The numbers of the orders that wait are taken, and those of some
orders that may still be handed in. -/
structure Abreast (os : Orders) (lax : Bool) (future : List OrderRef) (s s' : Session) : Prop where
  twin : Twin lax 0 (os.numbers (s.waiting ++ future)) s.state s'.state
  register : s.register.Alike s'.register

/-- What holds of any session between calls. -/
abbrev Upright (os : Orders) (calls : List Call) (s : Session) : Prop :=
  Stands (fun _ => True) (fun _ _ _ _ => True) os calls s

/-- Two sessions carry out actions that end alike. -/
theorem perform_of_paired {act act' : Action (Desk Simulated) α} {n : α → Register → Register}
    {K : Session → Session → Prop}
    {R : α → Desk Simulated → Desk Simulated → Prop} {B : Desk Simulated → Desk Simulated → Prop}
    {Q : α → Logged (Desk Simulated) → Prop} {E : Failure → Logged (Desk Simulated) → Prop}
    (hact : Paired act act' s.desk s'.desk R B) (hends : Ends act' s'.desk Q E)
    (hR : ∀ a t t', R a t.state t'.state → Q a t' →
      K ⟨t, n a s.register⟩ ⟨t', n a s'.register⟩)
    (hB : ∀ f t t', B t.state t'.state → E f t' → K ⟨t, s.register⟩ ⟨t', s'.register⟩) :
    K (s.perform act n) (s'.perform act' n) := by
  unfold Paired at hact
  unfold Ends at hends
  unfold Session.perform
  cases ha : act s.desk <;> cases ha' : act' s'.desk <;> rw [ha, ha'] at hact <;> rw [ha'] at hends
  · obtain ⟨rfl, hact⟩ := hact
    exact hR _ _ _ hact hends
  · exact hact.elim
  · exact hact.elim
  · exact hB _ _ _ hact.2 hends

namespace Abreast

/-- The same orders wait in sessions abreast. -/
theorem waiting (h : Abreast os lax future s s') : s'.waiting = s.waiting :=
  congrArg Phase.orders h.twin.phase

/-- After a call no more orders wait than did before. -/
theorem of_twin {rs : List OrderRef} (h : Abreast os lax rs s s') {t t' : Logged (Desk Simulated)}
    {g g' : Register}
    (ht : Twin lax 0 (os.numbers (s.waiting ++ future)) t.state t'.state)
    (hwait : t'.state.book.phase.orders.Sublist s'.waiting) (hg : g.Alike g') :
    Abreast os lax future ⟨t, g⟩ ⟨t', g'⟩ := by
  refine ⟨ht.weaken (Orders.numbers_le ?_) le_rfl, hg⟩
  rw [h.waiting, ht.phase] at hwait
  exact hwait.append_right _

/-- An order keeps its number in sessions abreast. -/
theorem id_eq (h : Abreast os lax future s s') (hup : Upright os calls s') (r : OrderRef) :
    (s.state.order r).id = (os.get r).id := by
  rw [← h.twin.order]
  exact (hup.orders r).id

/-- The number of an order that a call brings is in hand until the call is over. -/
theorem numbers_cons (h : Abreast os lax future s s') (hup : Upright os calls s') (r : OrderRef)
    (rs : List OrderRef) :
    os.numbers (s.waiting ++ r :: rs) = (s.state.order r).id ::ₘ os.numbers (s.waiting ++ rs) := by
  rw [h.id_eq hup]
  exact Multiset.coe_eq_coe.2 (List.perm_middle.map fun r => (os.get r).id)

end Abreast

section

variable {r : OrderRef} {side : Side}

/-- Sessions stay abreast when an order is loaded. -/
theorem abreast_load (h : Abreast os lax (r :: future) s s') (hup : Upright os calls s') :
    Abreast os lax future (s.apply (.load side r)) (s'.apply (.load side r)) := by
  unfold apply
  have hends : Ends (load side r) s'.desk _ _ :=
    ends_load (keeps_true _ fun _ => True) (g := .empty) hup.sound trivial List.not_mem_nil trivial
  refine perform_of_paired (Twin.paired_load (h.numbers_cons hup r future ▸ h.twin)) hends ?_ ?_
  · exact fun answer t t' ht ht' => h.of_twin ht (ht'.2 ▸ .refl _) (h.register.loaded r answer)
  · exact fun _ t t' ht ht' => h.of_twin ht (ht'.2 ▸ .refl _) h.register

/-- Sessions stay abreast when an order is handed in. -/
theorem abreast_submit (h : Abreast os lax (r :: future) s s') (hup : Upright os calls s') :
    Abreast os lax future (s.apply (.submit side r)) (s'.apply (.submit side r)) := by
  unfold apply
  have hends : Ends (submit Simulated.settlement side r) s'.desk _ _ :=
    ends_submit (keeps_true _ fun _ => True) (g := .empty) hup.sound trivial
      List.not_mem_nil trivial
  refine perform_of_paired (Twin.paired_submit (h.numbers_cons hup r future ▸ h.twin) hup.sound)
    hends ?_ fun _ _ _ _ hf => hf.elim
  rintro answer t t' ⟨ht, hwaits⟩ ⟨-, hphase | ⟨rfl, -, hphase⟩⟩
  · exact h.of_twin ht (hphase ▸ .refl _) (h.register.submitted r answer)
  · -- the order waits
    have hlater : t'.state.book.phase.orders = s.waiting ++ [r] :=
      hphase.trans (congrArg (· ++ [r]) h.waiting)
    have hwaits := hwaits rfl
    refine ⟨?_, h.register.submitted r (.ok .waiting)⟩
    rw [ht.phase] at hlater
    unfold Session.waiting Session.state
    rwa [hlater, List.append_assoc, List.singleton_append, h.numbers_cons hup]

/-- Two sessions are started alike. -/
theorem abreast_start (h : Abreast os lax future s s') (hup : Upright os calls s') :
    Abreast os lax future (s.apply .start) (s'.apply .start) := by
  have hends : Ends (start Simulated.settlement) s'.desk _ _ :=
    ends_start (keeps_true _ fun _ => True) hup.sound hup.waiting hup.nodup trivial
  have hsplit : os.numbers (s.waiting ++ future) =
      (s.waiting.map fun r => (s.state.order r).id : List OrderId) + os.numbers future := by
    simp only [h.id_eq hup]
    exact congrArg _ (List.map_append ..)
  have hstart := Twin.paired_start (hsplit ▸ h.twin) hup.sound fun r hr => (hup.waiting r hr).2
  unfold apply
  simp only [h.waiting]
  refine perform_of_paired hstart hends ?_ fun _ _ _ hf => hf.elim
  rintro report t t' ht ⟨-, hphase⟩
  refine ⟨?_, h.register.afterStart s.waiting report.result⟩
  rw [ht.phase] at hphase
  unfold Session.waiting Session.state
  rwa [hphase]

end

/-- The same call keeps two sessions abreast. -/
theorem abreast_apply (h : Abreast os lax (c.handed?.toList ++ future) s s')
    (hup : Upright os calls s') : Abreast os lax future (s.apply c) (s'.apply c) := by
  unfold apply
  cases c with
  | load side r => exact abreast_load h hup
  | start => exact abreast_start h hup
  | submit side r => exact abreast_submit h hup
  | loadTrades trades =>
    have hends : Ends (loadTrades trades) s'.desk _ _ :=
      ends_loadTrades (keeps_true _ fun _ => True) trades (g := .empty) hup.sound trivial
    refine perform_of_paired (h.twin.paired_loadTrades trades) hends ?_ ?_
    · exact fun _ t t' ht ht' => h.of_twin ht (ht'.2 ▸ .refl _) h.register
    · exact fun _ t t' ht ht' => h.of_twin ht (ht'.2 ▸ .refl _) h.register
  | reject u =>
    refine perform_of_paired (h.twin.paired_backend _)
      (ends_backend (keeps_true _ fun _ => True) (g := .empty) hup.sound trivial fun _ => rfl) ?_
      fun _ _ _ _ hf => hf.elim
    exact fun _ t t' ht ht' => h.of_twin ht (ht'.2 ▸ .refl _) h.register
  | cancel r =>
    refine perform_of_paired h.twin.paired_cancel
      (ends_cancel (keeps_true _ fun _ => True) (g := .empty) hup.sound trivial) ?_
      fun _ _ _ _ hf => hf.elim
    exact fun answer t t' ht ht' =>
      h.of_twin ht (ht'.2 ▸ .refl _) (h.register.afterCancel r answer)
  | withdraw side r =>
    have hends : Ends (Desk.withdraw side r) s'.desk _ _ :=
      ends_withdraw (keeps_true _ fun _ => True) (g := .empty) hup.sound trivial trivial
    refine perform_of_paired h.twin.paired_withdrawCall hends ?_ ?_
    · exact fun answer t t' ht ht' =>
        h.of_twin ht (ht'.2 ▸ .refl _) (h.register.afterWithdraw r answer)
    · exact fun _ t t' ht ht' => h.of_twin ht (ht'.2 ▸ .refl _) h.register
  | abandon =>
    refine perform_of_paired h.twin.paired_abandon
      (ends_abandon (I := fun _ _ => True) hup.sound trivial) ?_
      fun _ _ _ _ hf => hf.elim
    exact fun _ t t' ht ht' => h.of_twin ht ht'.2 h.register
  | shutdown =>
    refine perform_of_paired h.twin.paired_shutdown
      (ends_shutdown (I := fun _ _ => True) hup.sound trivial) ?_
      fun _ _ _ _ hf => hf.elim
    exact fun _ t t' ht ht' => h.of_twin ht (ht'.2 ▸ .refl _) h.register
  | tick now =>
    refine perform_of_paired (h.twin.paired_backend _)
      (ends_backend (keeps_true _ fun _ => True) (g := .empty) hup.sound trivial fun _ => rfl) ?_
      fun _ _ _ _ hf => hf.elim
    exact fun _ t t' ht ht' => h.of_twin ht (ht'.2 ▸ .refl _) h.register

/-- What can be seen of two sessions is the same: the state of every order, the trades and the
activated stop-losses with their order, the last price, the levels of depth at every price whatever
its scale, and what was answered. -/
structure LooksLike (s s' : Session) : Prop where
  orders : s'.state.office.orders = s.state.office.orders
  trades : s'.state.office.backend.trades = s.state.office.backend.trades
  activated : s'.state.office.backend.activated = s.state.office.backend.activated
  lastPrice : s'.state.book.lastPrice = s.state.book.lastPrice
  depth : ∀ side p, (s'.state.book.ledger.depth.levels side).depth.find? p =
    (s.state.book.ledger.depth.levels side).depth.find? p
  phase : s'.state.book.phase = s.state.book.phase
  register : s.register.Alike s'.register

/-- Sessions abreast look alike. -/
theorem Abreast.looksLike {lax : Bool} (h : Abreast os lax future s s') : LooksLike s s' where
  orders := congrArg (·.orders) h.twin.office
  trades := congrArg (·.backend.trades) h.twin.office
  activated := congrArg (·.backend.activated) h.twin.office
  lastPrice := h.twin.lastPrice
  depth side := (h.twin.ledger.depth.levels side).depth
  phase := h.twin.phase
  register := h.register

/-- A fresh session is abreast of itself. -/
theorem abreast_opening (i : Instrument) (history buffer : Nat) (os : Orders) (lax : Bool)
    (hdistinct : (future.map fun r => (os.get r).id).Nodup) :
    Abreast os lax future (opening i history buffer os) (opening i history buffer os) := by
  refine ⟨.refl (fun s => ?_) (fun s => ?_) (fun i hi => absurd hi (Multiset.notMem_zero _)) ?_,
    .refl _⟩
  · cases s <;> exact Queue.ordered_empty
  · cases s <;> exact Queue.ordered_empty
  · exact hdistinct

end Session

end Bourse
