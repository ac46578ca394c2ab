import Bourse.Proofs.Floor.Basic
import Bourse.Proofs.Twin.Loading
import Bourse.Proofs.Twin.Session

/-!
# The order of loading

Whatever comes first when open orders are loaded, the sessions look the same afterwards, and go on
to do so under the same calls (`Session.load_order_unseen`). The queues are arranged differently,
but what has been loaded does not depend on the order (`Desk.Loaded`), so the desks are twins, and
twins match the same.
-/

namespace Bourse

open Bourse.Action Desk

/-- Accepting orders in another order notes the same. -/
theorem Register.Alike.foldl_accept_perm {rs rs' : List OrderRef} (hperm : rs.Perm rs')
    (g : Register) : (rs.foldl Register.accept g).Alike (rs'.foldl Register.accept g) := by
  induction hperm generalizing g with
  | nil => exact .refl g
  | cons r _ ih => exact ih (g.accept r)
  | swap r r' l =>
    have hswap : ((g.accept r').accept r).Alike ((g.accept r).accept r') := ⟨.swap .., rfl, rfl⟩
    exact hswap.foldl_accept l
  | trans _ _ ih ih' =>
    have h := ih g
    have h' := ih' g
    exact ⟨h'.accepted.trans h.accepted, h'.cancelled.trans h.cancelled,
      h'.withdrawn.trans h.withdrawn⟩

/-- The calls that load orders, each on its side. -/
def loading (os : Orders) (rs : List OrderRef) : List Call :=
  rs.map fun r => .load (os.get r).side r

/-- Loading orders hands in these orders. -/
theorem handed_loading (os : Orders) (rs : List OrderRef) : handed (loading os rs) = rs := by
  unfold handed loading
  rw [List.filterMap_map]
  exact List.filterMap_some

namespace Floor

/-- Loading orders, unless something breaks off. -/
theorem loaded_run {f : Floor Simulated} {os : Orders} {hand : Multiset OrderId}
    {rs : List OrderRef} (ht : Twin false 0 hand f.state f.state)
    (hside : ∀ r, (f.state.order r).side = (os.get r).side)
    (hids : (rs.map fun r => (f.state.order r).id).Nodup)
    (hintact : (f.run Simulated.settlement ((loading os rs).map Call.move)).intact = true) :
    Loaded f.state rs.reverse
        (f.run Simulated.settlement ((loading os rs).map Call.move)).state ∧
      (f.run Simulated.settlement ((loading os rs).map Call.move)).register =
        rs.foldl Register.accept f.register := by
  induction rs using List.reverseRecOn with
  | nil => exact ⟨.refl ht, rfl⟩
  | append_singleton rs r ih =>
    have hrun : f.run Simulated.settlement ((loading os (rs ++ [r])).map Call.move) =
        (f.run Simulated.settlement ((loading os rs).map Call.move)).apply Simulated.settlement
          (.load (os.get r).side r) := by
      rw [loading, List.map_append, List.map_append, run_append]
      rfl
    rw [List.map_append, List.map_singleton, List.nodup_append] at hids
    rw [hrun] at hintact ⊢
    obtain ⟨hloaded, hregister⟩ := ih hids.1 (intact_of_apply hintact)
    generalize f.run Simulated.settlement ((loading os rs).map Call.move) = g at *
    rw [List.reverse_append, List.foldl_append]
    have hload := hloaded.ends_load (s := g.desk) (r := r) fun r' hr' =>
      hids.2.2 _ (List.mem_map_of_mem (List.mem_reverse.1 hr')) _ List.mem_cons_self
    rw [hside] at hload
    refine perform_of_ends (R := fun g' : Floor Simulated => g'.intact = true →
      Loaded f.state (r :: rs.reverse) g'.state ∧
        g'.register = (rs.foldl Register.accept f.register).accept r) hload ?_ ?_ hintact
    · rintro _ t ⟨rfl, ht⟩ -
      exact ⟨ht, congrArg (·.accept r) hregister⟩
    · intro _ _ _ hbroken
      cases hbroken

end Floor

namespace Session

variable {os : Orders} {future : List OrderRef} {s s' : Session} {done calls : List Call}

/-- Two sessions look alike, with the same best orders and as many in each queue. -/
structure SameView (s s' : Session) : Prop extends LooksLike s s' where
  best : ∀ side, s'.state.book.best? side = s.state.book.best? side
  resting : ∀ side, s'.state.book.restingCount side = s.state.book.restingCount side
  dormant : ∀ side, s'.state.book.stopLossCount side = s.state.book.stopLossCount side

/-- Sessions abreast of which nothing is gone look alike. -/
theorem Abreast.sameView (h : Abreast os false future s s') : SameView s s' where
  toLooksLike := h.looksLike
  best side := congrArg (·.map (·.order)) ((h.twin.queue side).headItem?_eq
    (fun _ hi => Bool.false_ne_true hi.1) (h.twin.nodup_queue side))
  resting side := (h.twin.queue side).size_eq fun _ hi => Bool.false_ne_true hi.1
  dormant side := (h.twin.dormant side).size_eq fun _ hi => Bool.false_ne_true hi.1

/-- The same calls keep two sessions abreast. -/
theorem abreast_run {lax : Bool} (h : Abreast os lax (handed calls ++ future) s s')
    (hup : Upright os done s') (hnodup : (handed done ++ handed calls).Nodup) :
    Abreast os lax future (s.run calls) (s'.run calls) := by
  induction calls generalizing done s s' with
  | nil => exact h
  | cons c rest ih =>
    have hcons : handed (c :: rest) = c.handed?.toList ++ handed rest := by
      cases hc : c.handed? <;> simp [handed, hc]
    rw [hcons] at h hnodup
    rw [List.append_assoc] at h
    refine ih (abreast_apply h hup) (stands_apply (keeps_true _ fun _ => True) hup
      ⟨fun r hr => ⟨trivial, ?_⟩, fun _ _ _ => trivial⟩) ?_
    · intro hmem
      rw [hr] at hnodup
      exact (List.nodup_append.1 hnodup).2.2 r hmem r
        (List.mem_append_left _ List.mem_cons_self) rfl
    · rw [handed_append, List.append_assoc]
      exact hnodup

/-- After the same calls, loading orders in one order or another leaves two sessions abreast. -/
theorem abreast_loading {f : Floor Simulated} {rs rs' : List OrderRef} (hperm : rs.Perm rs')
    (h : Abreast os false (rs ++ future) f.session f.session) (hup : Upright os done f.session)
    (hintact : (f.run Simulated.settlement ((loading os rs).map Call.move)).intact = true)
    (hintact' : (f.run Simulated.settlement ((loading os rs').map Call.move)).intact = true) :
    Abreast os false future (f.run Simulated.settlement ((loading os rs).map Call.move)).session
      (f.run Simulated.settlement ((loading os rs').map Call.move)).session := by
  have hid : ∀ r, (f.state.order r).id = (os.get r).id := fun r => (hup.orders r).id
  have hside : ∀ r, (f.state.order r).side = (os.get r).side := fun r => (hup.orders r).side
  have hnumbers : os.numbers (f.waiting ++ (rs ++ future)) =
      (rs.map fun r => (f.state.order r).id : List OrderId) + os.numbers
      (f.waiting ++ future) := by
    simp only [hid]
    refine Multiset.coe_eq_coe.2 ?_
    rw [← List.map_append, ← List.append_assoc, ← List.append_assoc]
    exact (List.perm_append_comm.append_right future).map _
  have ht : Twin false 0 ((rs.map fun r => (f.state.order r).id : List OrderId) +
      os.numbers (f.waiting ++ future)) f.state f.state := hnumbers ▸ h.twin
  have hids : (rs.map fun r => (f.state.order r).id).Nodup := Multiset.coe_nodup.1
    (Multiset.nodup_of_le ((Multiset.le_add_right _ _).trans (Multiset.le_add_left _ _))
      ht.distinct)
  obtain ⟨hloaded, hregister⟩ := Floor.loaded_run ht hside hids hintact
  obtain ⟨hloaded', hregister'⟩ :=
    Floor.loaded_run ht hside ((hperm.map _).nodup_iff.1 hids) hintact'
  refine ⟨?_, ?_⟩
  · have hreverse : rs.reverse.Perm rs'.reverse :=
      (List.reverse_perm rs).trans (hperm.trans (List.reverse_perm rs').symm)
    have hwaiting : (f.run Simulated.settlement ((loading os rs).map Call.move)).session.waiting =
        f.waiting :=
      congrArg (fun h : InstrumentId × Price × Nat × Phase => h.2.2.2.orders) hloaded.header
    rw [hwaiting]
    refine hloaded.twin hloaded' hreverse (ht.weaken (add_le_add_left ?_ _) le_rfl)
    exact (Multiset.coe_eq_coe.2 ((List.reverse_perm rs).map _)).le
  · show (Floor.register _).Alike (Floor.register _)
    rw [hregister, hregister']
    exact .foldl_accept_perm hperm f.register

/-- Two sessions that load the same orders, with numbers of their own, one in one order and one in
another, look the same afterwards, and after whatever calls follow. -/
theorem load_order_unseen (i : Instrument) (history buffer : Nat) (os : Orders)
    (before after : List Call) (rs rs' : List OrderRef) (hperm : rs.Perm rs')
    (hdistinct : ((handed (before ++ loading os rs ++ after)).map fun r => (os.get r).id).Nodup)
    (hintact : ((Floor.opening i history buffer os .empty).run Simulated.settlement
      ((before ++ loading os rs).map Call.move)).intact = true)
    (hintact' : ((Floor.opening i history buffer os .empty).run Simulated.settlement
      ((before ++ loading os rs').map Call.move)).intact = true) :
    SameView ((opening i history buffer os).run (before ++ loading os rs ++ after))
      ((opening i history buffer os).run (before ++ loading os rs' ++ after)) := by
  have hhanded : ∀ rs, handed (before ++ loading os rs) = handed before ++ rs := fun rs =>
    List.filterMap_append.trans (congrArg _ (handed_loading os rs))
  have hall : handed (before ++ loading os rs ++ after) =
      handed before ++ (rs ++ handed after) := by
    rw [handed, List.filterMap_append, ← List.append_assoc, ← hhanded]
    rfl
  rw [hall] at hdistinct
  have hnodup : (handed before ++ (rs ++ handed after)).Nodup := hdistinct.of_map
  have hnodup' : (handed (before ++ loading os rs') ++ handed after).Nodup := by
    rw [hhanded, List.append_assoc]
    exact ((hperm.append_right _).append_left _).nodup_iff.1 hnodup
  have hup : ∀ calls, (handed calls).Nodup →
      Upright os calls ((opening i history buffer os).run calls) := fun calls h =>
    stands_run (keeps_true _ fun _ => True) i history buffer os trivial calls
      ⟨h, fun _ _ => trivial, fun _ _ _ => trivial⟩
  -- the sessions before loading, after it and after the other calls
  have hbefore : Abreast os false (rs ++ handed after) ((opening i history buffer os).run before)
      ((opening i history buffer os).run before) :=
    abreast_run (abreast_opening i history buffer os false hdistinct) (hup [] .nil)
      (List.nodup_append.1 hnodup).1
  have hloaded : Abreast os false (handed after ++ [])
      ((opening i history buffer os).run (before ++ loading os rs))
      ((opening i history buffer os).run (before ++ loading os rs')) := by
    rw [List.append_nil, ← Floor.session_run, ← Floor.session_run]
    rw [List.map_append, Floor.run_append] at hintact hintact' ⊢
    rw [List.map_append, Floor.run_append]
    rw [← Floor.session_run] at hbefore
    have hup' := hup before (List.nodup_append.1 hnodup).1
    rw [← Floor.session_run] at hup'
    exact abreast_loading hperm hbefore hup' hintact hintact'
  have hafter := abreast_run hloaded
    (hup (before ++ loading os rs') (List.nodup_append.1 hnodup').1) hnodup'
  rw [run_append _ _ after, run_append _ _ after]
  exact hafter.sameView

/-- Asks of three users at 90, 95 and 97, and a bid of a fourth at 96. -/
def threeAsks : Orders where
  rows := #[ownCross.order 1 1 .ask 90 5, ownCross.order 2 2 .ask 95 4,
    ownCross.order 3 3 .ask 97 2, ownCross.order 4 4 .bid 96 7]

/-- A fresh book on `threeAsks`. -/
def threeAsksOpening : Session := opening ⟨⟨0⟩, .ofUInt64 90⟩ 10 10 threeAsks

/-- The asks are loaded from the lowest up and from the highest down, which leaves them arranged
differently. The bid takes the same two. -/
theorem load_order_of_threeAsks :
    let up := loading threeAsks [⟨0⟩, ⟨1⟩, ⟨2⟩]
    let down := loading threeAsks [⟨2⟩, ⟨1⟩, ⟨0⟩]
    (threeAsksOpening.run up).state.book.asks.items ≠
        (threeAsksOpening.run down).state.book.asks.items ∧
      (threeAsksOpening.run (up ++ [.start, .submit .bid ⟨3⟩])).state.trades.length = 2 ∧
      SameView (threeAsksOpening.run (up ++ [.start, .submit .bid ⟨3⟩]))
        (threeAsksOpening.run (down ++ [.start, .submit .bid ⟨3⟩])) := by
  intro up down
  have hperm : [(⟨0⟩ : OrderRef), ⟨1⟩, ⟨2⟩].Perm [⟨2⟩, ⟨1⟩, ⟨0⟩] := (List.reverse_perm _).symm
  exact ⟨by decide +kernel, by decide +kernel, load_order_unseen _ _ _ _ [] _ _ _ hperm (by decide)
    (by decide +kernel) (by decide +kernel)⟩

end Session

end Bourse
