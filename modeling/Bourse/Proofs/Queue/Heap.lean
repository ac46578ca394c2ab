import Bourse.Proofs.Queue.Rank
import Bourse.Queue.Basic
import Mathlib.Data.Multiset.MapFold

/-!
# Queues are heaps

`IsHeap` says that no item of an array outranks its parent. Swimming mends the one place where an
item may outrank its parent (`Climbing`), sinking the one place where a parent may be outranked
(`Sinking`), so both end in a heap (`isHeap_swim`, `isHeap_sink`).

A queue is looked at as the multiset of its items, `Queue.bag`. Putting an item in adds it to the
bag, taking the first out removes it, both keep the heap (`Queue.Ordered`), and the first item is
one that no other outranks (`Queue.Ordered.isLE_head`).
-/

namespace Bourse

variable {direction : PriceDirection} {items : Array Item} {i j k n : Nat}

/-! ## Positions -/

/-- No item outranks its parent. -/
def IsHeap (direction : PriceDirection) (items : Array Item) : Prop :=
  ∀ k, 2 ≤ k → k ≤ items.size → outranks direction items k (k / 2) = false

/-- The position at which an item was found before two positions were exchanged. -/
def exchanged (i j k : Nat) : Nat := if k = i then j else if k = j then i else k

/-- An exchange of two items, seen from each position. -/
theorem getElem?_exchange (hi : 1 ≤ i) (hin : i ≤ items.size) (hj : 1 ≤ j) (hjn : j ≤ items.size)
    (hk : 1 ≤ k) : (exchange items i j)[k - 1]? = items[exchanged i j k - 1]? := by
  have hi' : i - 1 < items.size := by omega
  have hj' : j - 1 < items.size := by omega
  unfold exchange exchanged
  rw [Array.swapIfInBounds_def, dif_pos hi', dif_pos hj', Array.getElem?_swap]
  by_cases hki : k = i
  · subst hki
    rw [if_pos rfl, if_pos rfl, Array.getElem?_eq_getElem hj']
    split
    · next h => simp only [h]
    · rfl
  · rw [if_neg hki]
    by_cases hkj : k = j
    · subst hkj
      rw [if_pos rfl, if_pos rfl, Array.getElem?_eq_getElem hi']
    · rw [if_neg hkj, if_neg (by omega), if_neg (by omega)]

/-- Exchanging two positions exchanges what outranks what. -/
theorem outranks_exchange {a b : Nat} (hi : 1 ≤ i) (hin : i ≤ items.size) (hj : 1 ≤ j)
    (hjn : j ≤ items.size) (ha : 1 ≤ a) (hb : 1 ≤ b) :
    outranks direction (exchange items i j) a b =
      outranks direction items (exchanged i j a) (exchanged i j b) := by
  unfold outranks
  rw [getElem?_exchange hi hin hj hjn ha, getElem?_exchange hi hin hj hjn hb]

/-- An item that does not outrank another comes after it, or at once. -/
theorem outranks_eq_false_iff (hi : 1 ≤ i) (hin : i ≤ items.size) (hj : 1 ≤ j)
    (hjn : j ≤ items.size) :
    outranks direction items i j = false ↔ (rank direction items[i - 1] items[j - 1]).isLE := by
  unfold outranks
  rw [Array.getElem?_eq_getElem (show i - 1 < items.size by omega),
    Array.getElem?_eq_getElem (show j - 1 < items.size by omega)]
  show (rank direction items[i - 1] items[j - 1] == .gt) = false ↔ _
  cases rank direction items[i - 1] items[j - 1] <;> decide

/-- Of two items one at most outranks the other. -/
theorem outranks_asymm (h : outranks direction items i j = true) :
    outranks direction items j i = false := by
  unfold outranks at *
  split at h
  · next a b ha hb =>
    rw [hb, ha]
    have hgt : rank direction a b = .gt := by simpa using h
    simp [Std.OrientedCmp.lt_of_gt hgt]
  · cases h

/-- Not to outrank is transitive. -/
theorem not_outranks_trans (hi : 1 ≤ i) (hin : i ≤ items.size) (hj : 1 ≤ j) (hjn : j ≤ items.size)
    (hk : 1 ≤ k) (hkn : k ≤ items.size) (h : outranks direction items i j = false)
    (h' : outranks direction items j k = false) : outranks direction items i k = false := by
  rw [outranks_eq_false_iff hi hin hj hjn] at h
  rw [outranks_eq_false_iff hj hjn hk hkn] at h'
  rw [outranks_eq_false_iff hi hin hk hkn]
  exact Std.TransCmp.isLE_trans h h'

/-! ## Swimming -/

/-- Only the item at position `k` may outrank its parent; its children do not. -/
structure Climbing (direction : PriceDirection) (items : Array Item) (k : Nat) : Prop where
  others : ∀ j, 2 ≤ j → j ≤ items.size → j ≠ k → outranks direction items j (j / 2) = false
  across : 2 ≤ k → ∀ j, j ≤ items.size → j / 2 = k → outranks direction items j (k / 2) = false

/-- One exchange moves the item that may outrank its parent up by one. -/
theorem Climbing.exchange (h : Climbing direction items k) (hk : 1 < k) (hkn : k ≤ items.size)
    (hup : outranks direction items k (k / 2) = true) :
    Climbing direction (exchange items k (k / 2)) (k / 2) := by
  have hp : 1 ≤ k / 2 := by omega
  have hpn : k / 2 ≤ items.size := by omega
  have hdown := outranks_asymm hup
  constructor
  · intro j hj hjn hjk
    rw [size_exchange] at hjn
    rw [outranks_exchange (by omega) hkn hp hpn (by omega) (by omega)]
    unfold exchanged
    by_cases hjk' : j = k
    · subst hjk'
      rwa [if_pos rfl, if_neg (by omega), if_pos rfl]
    · rw [if_neg hjk', if_neg hjk]
      by_cases hpar : j / 2 = k
      · rw [if_pos hpar]
        exact h.across (by omega) j hjn hpar
      · rw [if_neg hpar]
        by_cases hsib : j / 2 = k / 2
        · rw [if_pos hsib]
          exact not_outranks_trans (by omega) hjn hp hpn (by omega) hkn
            (hsib ▸ h.others j hj hjn hjk') hdown
        · rw [if_neg hsib]
          exact h.others j hj hjn hjk'
  · intro hk2 j hjn hjp
    rw [size_exchange] at hjn
    have hj : j ≠ k / 2 := by omega
    rw [outranks_exchange (by omega) hkn hp hpn (by omega) (by omega)]
    have hparent : outranks direction items (k / 2) (k / 2 / 2) = false :=
      h.others (k / 2) hk2 hpn (by omega)
    unfold exchanged
    rw [if_neg (show k / 2 / 2 ≠ k by omega), if_neg (show k / 2 / 2 ≠ k / 2 by omega)]
    by_cases hjk : j = k
    · rwa [if_pos hjk]
    · rw [if_neg hjk, if_neg hj]
      exact not_outranks_trans (by omega) hjn hp hpn (by omega) (by omega)
        (hjp ▸ h.others j (by omega) hjn hjk) hparent

/-- An item that climbs no further leaves a heap. -/
theorem Climbing.isHeap (h : Climbing direction items k)
    (hk : 1 < k → outranks direction items k (k / 2) = false) : IsHeap direction items := by
  intro j hj hjn
  by_cases hjk : j = k
  · subst hjk
    exact hk (by omega)
  · exact h.others j hj hjn hjk

/-- Swimming ends in a heap. -/
theorem isHeap_swim (h : Climbing direction items k) (hkn : k ≤ items.size) :
    IsHeap direction (swim direction items k) := by
  induction items, k using swim.induct direction with
  | case1 items k hk hup ih =>
    rw [swim, dif_pos hk, if_pos hup]
    exact ih (h.exchange hk hkn hup) (by rw [size_exchange]; omega)
  | case2 items k hk hup =>
    rw [swim, dif_pos hk, if_neg hup]
    exact h.isHeap fun _ => by simpa using hup
  | case3 items k hk =>
    rw [swim, dif_neg hk]
    exact h.isHeap fun hk' => absurd hk' hk

/-! ## Sinking -/

/-- Only the item at position `k` may be outranked by its children; its parent is not. -/
structure Sinking (direction : PriceDirection) (items : Array Item) (k : Nat) : Prop where
  others : ∀ j, 2 ≤ j → j ≤ items.size → j / 2 ≠ k → outranks direction items j (j / 2) = false
  across : 2 ≤ k → ∀ j, j ≤ items.size → j / 2 = k → outranks direction items j (k / 2) = false

/-- The preferred child is in the heap if there is a child. -/
theorem preferredChild_le (h : 2 * k ≤ items.size) :
    preferredChild direction items k ≤ items.size := by
  unfold preferredChild
  split <;> omega

/-- The preferred child is a child. -/
theorem preferredChild_half : preferredChild direction items k / 2 = k := by
  unfold preferredChild
  split <;> omega

/-- No child outranks the one that is served first. -/
theorem not_outranks_preferredChild (hjn : j ≤ items.size) (hj : j / 2 = k) :
    outranks direction items j (preferredChild direction items k) = false := by
  have hself : ∀ p, outranks direction items p p = false := by
    intro p
    by_contra hp
    have hp : outranks direction items p p = true := by simpa using hp
    rw [outranks_asymm hp] at hp
    cases hp
  unfold preferredChild
  rcases (show j = 2 * k ∨ j = 2 * k + 1 by omega) with rfl | rfl
  · split
    · next h => exact outranks_asymm h.2
    · exact hself _
  · split
    · exact hself _
    · next h => simpa [show 2 * k < items.size by omega] using h

/-- One exchange moves the item that may be outranked down by one. -/
theorem Sinking.exchange {c : Nat} (h : Sinking direction items k) (hk : 1 ≤ k)
    (hc : c = preferredChild direction items k) (hcn : c ≤ items.size)
    (hup : outranks direction items c k = true) :
    Sinking direction (exchange items k c) c := by
  have hck : c / 2 = k := hc ▸ preferredChild_half
  have hdown := outranks_asymm hup
  constructor
  · intro j hj hjn hjc
    rw [size_exchange] at hjn
    rw [outranks_exchange hk (by omega) (by omega) hcn (by omega) (by omega)]
    unfold exchanged
    by_cases hjk : j = k
    · subst hjk
      rw [if_pos rfl, if_neg (by omega), if_neg (by omega)]
      exact h.across hj c hcn hck
    · rw [if_neg hjk]
      by_cases hsib : j / 2 = k
      · rw [if_pos hsib]
        split
        · exact hdown
        · rw [hc]
          exact not_outranks_preferredChild hjn hsib
      · rw [if_neg (show j ≠ c from fun e => hsib (e ▸ hck)), if_neg hsib, if_neg hjc]
        exact h.others j hj hjn hsib
  · intro _ j hjn hjc
    rw [size_exchange] at hjn
    rw [hck, outranks_exchange hk (by omega) (by omega) hcn (by omega) (by omega)]
    unfold exchanged
    rw [if_neg (show j ≠ k by omega), if_neg (show j ≠ c by omega), if_pos rfl]
    exact hjc ▸ h.others j (by omega) hjn (by omega)

/-- An item that sinks no further leaves a heap. -/
theorem Sinking.isHeap (h : Sinking direction items k)
    (hk : ∀ j, j ≤ items.size → j / 2 = k → outranks direction items j k = false) :
    IsHeap direction items := by
  intro j hj hjn
  by_cases hjk : j / 2 = k
  · rw [hjk]
    exact hk j hjn hjk
  · exact h.others j hj hjn hjk

/-- Sinking ends in a heap. -/
theorem isHeap_sink (h : Sinking direction items k) (hk : 1 ≤ k) :
    IsHeap direction (sink direction items k) := by
  induction items, k using sink.induct direction with
  | case1 items k hkn child hup ih =>
    rw [sink, dif_pos hkn]
    simp only
    rw [if_pos hup]
    have hle : child ≤ items.size := preferredChild_le hkn.2
    exact ih (h.exchange hk rfl hle hup) (by have := le_preferredChild direction items k; omega)
  | case2 items k hkn child hup =>
    rw [sink, dif_pos hkn]
    simp only
    rw [if_neg hup]
    have hle : child ≤ items.size := preferredChild_le hkn.2
    have hge := le_preferredChild direction items k
    exact h.isHeap fun j hjn hjk =>
      not_outranks_trans (by omega) hjn (by omega) hle hk (by omega)
        (not_outranks_preferredChild hjn hjk) (by simpa using hup)
  | case3 items k hkn =>
    rw [sink, dif_neg hkn]
    exact h.isHeap fun j hjn hjk => absurd ⟨by omega, by omega⟩ hkn

/-! ## Items -/

/-- An exchange keeps the items. -/
theorem exchange_perm : (exchange items i j).toList.Perm items.toList := by
  unfold exchange
  rw [Array.swapIfInBounds_def]
  split
  · split
    · exact Array.Perm.toList (Array.swap_perm _ _)
    · exact .refl _
  · exact .refl _

/-- An item that swims up keeps the items. -/
theorem swim_perm : (swim direction items k).toList.Perm items.toList := by
  induction items, k using swim.induct direction with
  | case1 items k hk hup ih =>
    rw [swim, dif_pos hk, if_pos hup]
    exact ih.trans exchange_perm
  | case2 items k hk hup =>
    rw [swim, dif_pos hk, if_neg hup]
  | case3 items k hk =>
    rw [swim, dif_neg hk]

/-- An item that sinks keeps the items. -/
theorem sink_perm : (sink direction items k).toList.Perm items.toList := by
  induction items, k using sink.induct direction with
  | case1 items k hk child hup ih =>
    rw [sink, dif_pos hk]
    simp only
    rw [if_pos hup]
    exact ih.trans exchange_perm
  | case2 items k hk child hup =>
    rw [sink, dif_pos hk]
    simp only
    rw [if_neg hup]
  | case3 items k hk =>
    rw [sink, dif_neg hk]

namespace Queue

variable {q : Queue} {i h : Item}

/-- The items of a queue, in no order. -/
def bag (q : Queue) : Multiset Item := q.items.toList

/-- The queue serves its items by rank in the given direction. -/
structure Ordered (direction : PriceDirection) (q : Queue) : Prop where
  towards : q.direction = direction
  heap : IsHeap direction q.items

/-- An empty queue is ordered. -/
theorem ordered_empty : Ordered direction (empty direction) := ⟨rfl, fun k hk hn => by
  have hn : k ≤ 0 := hn
  omega⟩

/-- A queue has as many items as its size. -/
theorem card_bag : q.bag.card = q.size := by simp [bag, size]

/-- A queue without items has size zero. -/
theorem bag_eq_zero : q.bag = 0 ↔ q.size = 0 := by rw [← card_bag, Multiset.card_eq_zero]

/-- Dropping the head leaves one item less. -/
theorem size_dropHead : q.dropHead.size = q.size - 1 := by
  have h : (sink q.direction (exchange q.items 1 q.items.size).pop 1).toList.Perm
      (exchange q.items 1 q.items.size).pop.toList := sink_perm
  simpa [size, dropHead] using h.length_eq

/-- A queue has no head if it has no items. -/
theorem headItem?_eq_none : q.headItem? = none ↔ q.bag = 0 := by
  unfold headItem? bag
  rw [Array.getElem?_eq_none_iff, Multiset.coe_eq_zero, Array.toList_eq_nil_iff,
    ← Array.size_eq_zero_iff]
  omega

/-- A queue of size zero has no head. -/
theorem headItem?_of_size (h : q.size = 0) : q.headItem? = none :=
  headItem?_eq_none.2 (bag_eq_zero.2 h)

/-- A queue with a head has an item. -/
theorem size_pos_of_headItem? (hh : q.headItem? = some h) : 0 < q.size := by
  refine Nat.pos_of_ne_zero fun hzero => ?_
  rw [headItem?_of_size hzero] at hh
  cases hh

/-- The head is one of the items. -/
theorem mem_bag_of_headItem? (hh : q.headItem? = some h) : h ∈ q.bag := by
  unfold headItem? at hh
  exact Multiset.mem_coe.2 (Array.mem_toList_iff.2 (Array.mem_of_getElem? hh))

/-- An item that is put in is added to the bag. -/
@[simp] theorem bag_pushItem (q : Queue) (i : Item) : (q.pushItem i).bag = i ::ₘ q.bag := by
  unfold bag pushItem
  have h : (swim q.direction (q.items.push i) (q.items.push i).size).toList.Perm
      (q.items.push i).toList := swim_perm
  rw [Multiset.cons_coe, Multiset.coe_eq_coe]
  refine h.trans ?_
  rw [Array.toList_push]
  exact List.perm_append_singleton i q.items.toList

/-- What is left when the first item is taken out. -/
theorem bag_dropHead (hh : q.headItem? = some h) : q.bag = h ::ₘ q.dropHead.bag := by
  unfold headItem? at hh
  have hpos : 0 < q.items.size := by
    by_contra hn
    rw [Array.getElem?_eq_none (by omega)] at hh
    cases hh
  have hlast : (exchange q.items 1 q.items.size).toList.getLast? = some h := by
    rw [List.getLast?_eq_getElem?, Array.getElem?_toList, Array.length_toList, size_exchange,
      getElem?_exchange (by omega) (by omega) (by omega) (by omega) (by omega)]
    unfold exchanged
    split
    · next h1 => rw [h1]; exact hh
    · rw [if_pos rfl]; exact hh
  have hsink : (sink q.direction (exchange q.items 1 q.items.size).pop 1).toList.Perm
      (exchange q.items 1 q.items.size).pop.toList := sink_perm
  unfold bag dropHead
  rw [Multiset.cons_coe, Multiset.coe_eq_coe]
  refine (exchange_perm (i := 1) (j := q.items.size)).symm.trans (.trans ?_ (hsink.symm.cons h))
  rw [Array.toList_pop]
  conv_lhs => rw [← List.dropLast_append_getLast? h hlast]
  exact List.perm_append_singleton h _

/-- A queue into which an item is put keeps its order. -/
theorem Ordered.pushItem (hq : Ordered direction q) (i : Item) :
    Ordered direction (q.pushItem i) := by
  obtain ⟨rfl, hheap⟩ := hq
  refine ⟨rfl, isHeap_swim ⟨?_, ?_⟩ le_rfl⟩
  · intro j hj hjn hjk
    rw [Array.size_push] at hjn hjk
    have hold := hheap j hj (by omega)
    unfold outranks at *
    rwa [Array.getElem?_push, Array.getElem?_push, if_neg (by omega), if_neg (by omega)]
  · intro hk j hjn hjk
    rw [Array.size_push] at hjn hjk
    omega

/-- A queue whose first item is taken out keeps its order. -/
theorem Ordered.dropHead (hq : Ordered direction q) : Ordered direction q.dropHead := by
  obtain ⟨rfl, hheap⟩ := hq
  refine ⟨rfl, isHeap_sink ⟨?_, fun hk => absurd hk (by omega)⟩ le_rfl⟩
  intro j hj hjn hjk
  rw [Array.size_pop, size_exchange] at hjn
  have hold := hheap j hj (by omega)
  have hpop : ∀ p, 2 ≤ p → p < q.items.size →
      (exchange q.items 1 q.items.size).pop[p - 1]? = q.items[p - 1]? := by
    intro p hp hpn
    rw [Array.getElem?_pop, size_exchange, if_pos (by omega),
      getElem?_exchange (by omega) (by omega) (by omega) (by omega) (by omega)]
    unfold exchanged
    rw [if_neg (by omega), if_neg (by omega)]
  unfold outranks at *
  rwa [hpop j hj (by omega), hpop (j / 2) (by omega) (by omega)]

/-- No item of a queue outranks the first one. -/
theorem Ordered.isLE_head (hq : Ordered direction q) (hh : q.headItem? = some h) (hi : i ∈ q.bag) :
    (rank direction i h).isLE := by
  have hroot : ∀ k, 1 ≤ k → k ≤ q.items.size → outranks direction q.items k 1 = false := by
    intro k
    induction k using Nat.strongRecOn with
    | ind k ih =>
      intro hk hkn
      rcases (show k = 1 ∨ 2 ≤ k by omega) with rfl | hk2
      · rw [outranks_eq_false_iff le_rfl hkn le_rfl hkn]
        exact Std.ReflCmp.isLE_rfl
      · exact not_outranks_trans hk hkn (by omega) (by omega) le_rfl (by omega)
          (hq.heap k hk2 hkn) (ih (k / 2) (by omega) (by omega) (by omega))
  obtain ⟨p, hp, rfl⟩ := Array.mem_iff_getElem.1 (Array.mem_toList_iff.1 (Multiset.mem_coe.1 hi))
  have hle := hroot (p + 1) (by omega) (by omega)
  rw [outranks_eq_false_iff (by omega) (by omega) le_rfl (by omega)] at hle
  unfold headItem? at hh
  rw [Array.getElem?_eq_getElem (by omega)] at hh
  cases hh
  exact hle

end Queue

end Bourse
