import Bourse.Queue.Item
import Mathlib.Algebra.Order.Ring.Int
import Mathlib.Order.Compare

/-!
# Rank as an order

`rank` compares two items by their class, then by price, quantity, age and number.
`rank_eq_compare` reads these off one key, `rankKey`, so `rank` is a comparison in the sense of
`Std.TransCmp`: two items are ranked the same way from either side, and ranking is transitive.

Items of different numbers never rank equal (`rank_ne_eq`).
-/

namespace Bourse

/-- The prices of a direction as numbers, the ones served first above the others. -/
def PriceDirection.worth : PriceDirection → Price → Int
  | .lowestFirst, p => -p.units
  | .highestFirst, p => p.units

/-- What the rank of an item is read off, the most important part first. An order that takes any
price has no price and no quantity to be ranked by. -/
def rankKey (direction : PriceDirection) (i : Item) : List Int :=
  if i.isMarket then [1, 0, 0, -i.createdAt.millis.toInt, -(i.id.number.toNat : Int)]
  else [0, direction.worth i.price, i.quantity.toNat, -i.createdAt.millis.toInt,
    -(i.id.number.toNat : Int)]

/-- Negative numbers compare the other way round. -/
theorem compare_neg_neg (a b : Int) : compare (-a) (-b) = compare b a := by
  rcases lt_trichotomy a b with h | rfl | h
  · rw [compare_gt_iff_gt.2 (Int.neg_lt_neg h), compare_gt_iff_gt.2 h]
  · simp
  · rw [compare_lt_iff_lt.2 (Int.neg_lt_neg h), compare_lt_iff_lt.2 h]

/-- Natural numbers compare as integers do. -/
theorem compare_natCast (a b : Nat) : compare (a : Int) (b : Int) = compare a b := by
  rcases lt_trichotomy a b with h | rfl | h
  · rw [compare_lt_iff_lt.2 h, compare_lt_iff_lt.2 (Int.ofNat_lt.2 h)]
  · simp
  · rw [compare_gt_iff_gt.2 h, compare_gt_iff_gt.2 (Int.ofNat_lt.2 h)]

/-- Worths compare as the direction compares prices. -/
theorem PriceDirection.compare_worth (direction : PriceDirection) (p q : Price) :
    compare (direction.worth p) (direction.worth q) = direction.comparePrices p q := by
  cases direction
  · exact compare_neg_neg p.units q.units
  · rfl

/-- The rank of two items is the comparison of their keys. -/
theorem rank_eq_compare (direction : PriceDirection) (a b : Item) :
    rank direction a b = compare (rankKey direction a) (rankKey direction b) := by
  have hid : compare (-(a.id.number.toNat : Int)) (-(b.id.number.toNat : Int)) =
      compare b.id.number.toNat a.id.number.toNat := by rw [compare_neg_neg, compare_natCast]
  have hage : compare (-a.createdAt.millis.toInt) (-b.createdAt.millis.toInt) =
      compare b.createdAt a.createdAt := compare_neg_neg _ _
  have hqty : compare (a.quantity.toNat : Int) (b.quantity.toNat : Int) =
      compare a.quantity b.quantity := compare_natCast _ _
  show _ = List.compareLex compare _ _
  unfold rank rankKey
  cases ha : a.isMarket <;> cases hb : b.isMarket <;>
    simp only [List.compareLex_cons_cons, List.compareLex_nil_nil, rankLimits,
      direction.compare_worth, hid, hage, hqty, Ordering.then_assoc, Ordering.then_eq, if_true,
      if_false, Bool.false_eq_true] <;> rfl

instance (direction : PriceDirection) : Std.TransCmp (rank direction) where
  eq_swap {a b} := by rw [rank_eq_compare, rank_eq_compare]; exact Std.OrientedOrd.eq_swap
  isLE_trans {a b c} := by
    rw [rank_eq_compare, rank_eq_compare, rank_eq_compare]; exact Std.TransOrd.isLE_trans

/-- An item that takes any price is outranked by such items only. -/
theorem isMarket_of_isLE {direction : PriceDirection} {a b : Item}
    (h : (rank direction a b).isLE) (ha : a.isMarket = true) : b.isMarket = true := by
  cases hb : b.isMarket with
  | true => rfl
  | false =>
    unfold rank at h
    rw [ha, hb] at h
    cases h

/-- Of two items with a price, the one that is outranked is not of a better price. -/
theorem worth_le_of_isLE {direction : PriceDirection} {a b : Item}
    (h : (rank direction a b).isLE) (ha : a.isMarket = false) (hb : b.isMarket = false) :
    direction.worth a.price ≤ direction.worth b.price := by
  unfold rank at h
  rw [ha, hb] at h
  simp only [rankLimits, Ordering.then_assoc] at h
  rw [← compare_le_iff_le, direction.compare_worth]
  intro hgt
  rw [hgt] at h
  cases h

/-- Items of different numbers never rank equal. -/
theorem rank_ne_eq {direction : PriceDirection} {a b : Item} (h : a.id ≠ b.id) :
    rank direction a b ≠ .eq := by
  intro heq
  have hid : compare b.id.number.toNat a.id.number.toNat = .eq := by
    unfold rank at heq
    exact (Ordering.then_eq_eq.1 heq).2
  rw [compare_eq_iff_eq] at hid
  refine h (congrArg OrderId.mk (UInt64.toNat_inj.1 hid.symm))

end Bourse
