import Bourse.Proofs.Queue.Heap
import Mathlib.Data.Multiset.Filter

/-!
# The order of service

A queue that is `Ordered` gives its items out by rank (`Queue.pairwise_drain`). Items of different
numbers can be put in that order in one way only, so what a queue gives out depends on its items
and not on how they came to be arranged: it is `served`, which simply sorts them
(`Queue.drain_eq_served`).
-/

namespace Bourse

variable {direction : PriceDirection} {items items' : List Item} {q : Queue}

/-- Items in the order in which a queue of this direction serves them. -/
def served (direction : PriceDirection) (items : List Item) : List Item :=
  items.mergeSort fun a b => (rank direction b a).isLE

/-- Serving items keeps them. -/
theorem served_perm (direction : PriceDirection) (items : List Item) :
    (served direction items).Perm items := List.mergeSort_perm ..

/-- Of two items that are served the first one is not outranked. -/
theorem pairwise_served (direction : PriceDirection) (items : List Item) :
    (served direction items).Pairwise fun a b => (rank direction b a).isLE := by
  refine List.pairwise_mergeSort ?_ ?_ items
  · intro a b c hab hbc
    exact Std.TransCmp.isLE_trans hbc hab
  · intro a b
    have hswap : rank direction a b = (rank direction b a).swap := Std.OrientedCmp.eq_swap
    rw [hswap]
    cases rank direction b a <;> rfl

/-- There is one order of service for items of different numbers. -/
theorem eq_of_served {l l' : List Item} (hperm : l.Perm l') (hids : (l.map (·.id)).Nodup)
    (h : l.Pairwise fun a b => (rank direction b a).isLE)
    (h' : l'.Pairwise fun a b => (rank direction b a).isLE) : l = l' := by
  refine hperm.eq_of_pairwise ?_ h h'
  intro a b ha hb hab hba
  have heq : rank direction b a = .eq := Std.OrientedCmp.isLE_antisymm hab hba
  have hid : b.id = a.id := by
    by_contra hne
    exact rank_ne_eq hne heq
  exact List.inj_on_of_nodup_map hids ha (hperm.symm.subset hb) hid.symm

/-- Numbers of served items are distinct if those of the items are. -/
theorem nodup_served (hids : (items.map (·.id)).Nodup) :
    ((served direction items).map (·.id)).Nodup :=
  ((served_perm direction items).map _).nodup_iff.2 hids

/-- Items of distinct numbers are served in one way only. -/
theorem served_eq_of_perm (h : items.Perm items') (hids : (items.map (·.id)).Nodup) :
    served direction items = served direction items' :=
  eq_of_served ((served_perm ..).trans (h.trans (served_perm ..).symm)) (nodup_served hids)
    (pairwise_served ..) (pairwise_served ..)

/-- Passing over some items leaves the others in their order. -/
theorem filter_served (hids : (items.map (·.id)).Nodup) (p : Item → Bool) :
    (served direction items).filter p = served direction (items.filter p) :=
  eq_of_served (((served_perm ..).filter p).trans (served_perm ..).symm)
    ((nodup_served hids).sublist (List.filter_sublist.map _))
    ((pairwise_served ..).filter p) (pairwise_served ..)

namespace Queue

/-- All items are given out, in order of rank. -/
theorem drain_go (hq : q.Ordered direction) {n : Nat} (hn : q.size = n) :
    (drain.go n q : Multiset Item) = q.bag ∧
      (drain.go n q).Pairwise fun a b => (rank direction b a).isLE := by
  induction n generalizing q with
  | zero =>
    refine ⟨?_, .nil⟩
    rw [← card_bag, Multiset.card_eq_zero] at hn
    exact hn.symm
  | succ n ih =>
    cases hh : q.headItem? with
    | none =>
      rw [← card_bag, headItem?_eq_none.1 hh] at hn
      cases hn
    | some i =>
      have hgo : drain.go (n + 1) q = i :: drain.go n q.dropHead := by
        rw [drain.go, pop, popIf, hh]
        rfl
      obtain ⟨hbag, hpair⟩ := ih hq.dropHead (by rw [size_dropHead]; omega)
      rw [hgo, bag_dropHead hh, ← hbag, List.pairwise_cons]
      refine ⟨rfl, fun j hj => hq.isLE_head hh ?_, hpair⟩
      rw [bag_dropHead hh, ← hbag]
      exact Multiset.mem_cons_of_mem hj

/-- Draining a queue gives its items. -/
theorem coe_drain (hq : q.Ordered direction) : (q.drain : Multiset Item) = q.bag :=
  (drain_go hq rfl).1

/-- Draining a queue gives the first in rank first. -/
theorem pairwise_drain (hq : q.Ordered direction) :
    q.drain.Pairwise fun a b => (rank direction b a).isLE := (drain_go hq rfl).2

/-- A queue gives its items out in the order of service. -/
theorem drain_eq_served (hq : q.Ordered direction) (hids : (q.bag.map (·.id)).Nodup)
    (hitems : (items : Multiset Item) = q.bag) : q.drain = served direction items := by
  have hperm : q.drain.Perm items := Multiset.coe_eq_coe.1 ((coe_drain hq).trans hitems.symm)
  refine eq_of_served (hperm.trans (served_perm ..).symm) ?_ (pairwise_drain hq)
    (pairwise_served ..)
  rw [← coe_drain hq] at hids
  exact hids

/-- Two queues that hold the same of the items in question serve these in the same order. -/
theorem filter_drain_eq {q' : Queue} {p p' : Item → Bool} (hq : q.Ordered direction)
    (hq' : q'.Ordered direction) (hids : (q'.bag.map (·.id)).Nodup)
    (h : q.bag.filter (fun i => p i = true) = q'.bag.filter fun i => p' i = true) :
    q.drain.filter p = q'.drain.filter p' := by
  rw [← coe_drain hq, ← coe_drain hq', Multiset.filter_coe, Multiset.filter_coe,
    Multiset.coe_eq_coe] at h
  simp only [Bool.decide_eq_true] at h
  rw [← coe_drain hq', Multiset.map_coe, Multiset.coe_nodup] at hids
  refine eq_of_served h ?_ ((pairwise_drain hq).filter p) ((pairwise_drain hq').filter p')
  exact ((h.map _).nodup_iff).2 (hids.sublist (List.filter_sublist.map _))

end Queue

end Bourse
