import Bourse.Depth.Delta
import Mathlib.Algebra.Order.Ring.Int

/-!
# Quantities as numbers

The arithmetic of 64-bit quantities and differences, read in `Nat` and `Int`. An operation that has
to fit has its number as answer when it does; the gentle ones always have theirs.
-/

namespace Bourse

namespace Quantity

variable {a b q : Quantity}

/-- A quantity is below 2⁶⁴. -/
theorem toNat_lt (q : Quantity) : q.toNat < 2 ^ 64 := q.count.toNat_lt

/-- Quantities are equal as numbers only. -/
theorem toNat_inj : a.toNat = b.toNat ↔ a = b :=
  ⟨fun h => congrArg Quantity.mk (UInt64.toNat_inj.1 h), fun h => h ▸ rfl⟩

/-- A quantity is zero if it is so as a number. -/
theorem isZero_iff : q.isZero = true ↔ q.toNat = 0 := by
  unfold isZero toNat
  rw [beq_iff_eq, ← UInt64.toNat_inj]
  rfl

/-- A quantity is positive unless it is zero. -/
theorem isZero_eq_false_iff : q.isZero = false ↔ 0 < q.toNat := by
  rw [Nat.pos_iff_ne_zero, ne_eq, ← isZero_iff, Bool.not_eq_true]

/-- Quantities that fit together are added. -/
theorem add_eq (h : a.toNat + b.toNat < 2 ^ 64) :
    ∃ c, a.add b = .ok c ∧ c.toNat = a.toNat + b.toNat := by
  refine ⟨⟨a.count + b.count⟩, if_pos h, ?_⟩
  show (a.count + b.count).toNat = _
  rw [UInt64.toNat_add]
  exact Nat.mod_eq_of_lt h

/-- Quantities that do not fit together overflow. -/
theorem add_eq_error (h : ¬ a.toNat + b.toNat < 2 ^ 64) : a.add b = .error .additionOverflow :=
  if_neg h

@[simp] theorem toNat_monus (a b : Quantity) : (a.monus b).toNat = a.toNat - b.toNat := by
  unfold monus
  split
  · next h => exact UInt64.toNat_sub_of_le _ _ h
  · next h =>
    rw [le_def] at h
    rw [toNat_zero]
    omega

@[simp] theorem toNat_min (a b : Quantity) : (min a b).toNat = min a.toNat b.toNat := by
  show (if a ≤ b then a else b).toNat = _
  simp only [le_def]
  split <;> omega

/-- A sum that was computed is the sum of the numbers. -/
theorem toNat_of_add {c : Quantity} (h : a.add b = .ok c) : c.toNat = a.toNat + b.toNat := by
  by_cases hfit : a.toNat + b.toNat < 2 ^ 64
  · obtain ⟨c', hc', hn⟩ := add_eq hfit
    cases h.symm.trans hc'
    exact hn
  · cases h.symm.trans (add_eq_error hfit)

/-- The minimum is the left one if it is the smaller one. -/
theorem min_eq_left (h : a.toNat ≤ b.toNat) : min a b = a := by
  rw [← toNat_inj, toNat_min]
  exact Nat.min_eq_left h

/-- The minimum is the right one if it is the smaller one. -/
theorem min_eq_right (h : b.toNat ≤ a.toNat) : min a b = b := by
  rw [← toNat_inj, toNat_min]
  exact Nat.min_eq_right h

/-- Nothing is taken off. -/
theorem monus_zero (a : Quantity) : a.monus .zero = a := by
  rw [← toNat_inj, toNat_monus, toNat_zero, Nat.sub_zero]

/-- Taking off at most what is there takes off as much as taking off all of it. -/
theorem monus_min (a b : Quantity) : a.monus (min b a) = a.monus b := by
  rw [← toNat_inj]
  simp only [toNat_monus, toNat_min]
  omega

/-- What is there can be taken off. -/
theorem sub?_eq (h : b.toNat ≤ a.toNat) :
    ∃ c, a.sub? b = some c ∧ c.toNat = a.toNat - b.toNat := by
  have hle : b ≤ a := le_def.2 h
  exact ⟨⟨a.count - b.count⟩, if_pos hle, UInt64.toNat_sub_of_le _ _ hle⟩

/-- What is not there cannot be taken off. -/
theorem sub?_eq_none (h : a.toNat < b.toNat) : a.sub? b = none :=
  if_neg fun hle => absurd (le_def.1 hle) (Nat.not_le.2 h)

/-- A quantity below 2⁶³ keeps its value with a sign. -/
theorem toInt_signed (h : q.toNat < 2 ^ 63) : q.signed.toInt = q.toNat := by
  show BitVec.toInt q.count.toBitVec = _
  have hq : q.count.toBitVec.toNat = q.toNat := rfl
  rw [BitVec.toInt_eq_toNat_of_lt (by omega), hq]

end Quantity

namespace Delta

/-- A number of 63 bits and a sign. -/
def Fits (n : Int) : Prop := -2 ^ 63 ≤ n ∧ n < 2 ^ 63

/-- A number that fits is a difference. -/
theorem ofInt?_eq {n : Int} (h : Fits n) : ∃ d, ofInt? n = some d ∧ d.toInt = n := by
  have hmin : Int64.minValue.toInt = -2 ^ 63 := by decide
  have hmax : Int64.maxValue.toInt = 2 ^ 63 - 1 := by decide
  refine ⟨Int64.ofInt n, if_pos ⟨hmin ▸ h.1, ?_⟩, Int64.toInt_ofInt_of_le h.1 h.2⟩
  have := h.2
  omega

/-- Differences whose sum fits are added. -/
theorem add_eq {a b : Int64} (h : Fits (a.toInt + b.toInt)) :
    ∃ c, add a b = .ok c ∧ c.toInt = a.toInt + b.toInt := by
  obtain ⟨c, hc, hn⟩ := ofInt?_eq h
  exact ⟨c, by rw [add, hc], hn⟩

/-- Differences whose sum does not fit overflow. -/
theorem add_eq_error {a b : Int64} (h : ¬ Fits (a.toInt + b.toInt)) :
    add a b = .error .additionOverflow := by
  have hmin : Int64.minValue.toInt = -2 ^ 63 := by decide
  have hmax : Int64.maxValue.toInt = 2 ^ 63 - 1 := by decide
  unfold Fits at h
  rw [add, ofInt?, if_neg (by omega)]

/-- A difference is negated if the result fits. -/
theorem neg_eq {a : Int64} (h : Fits (-a.toInt)) : ∃ c, neg a = .ok c ∧ c.toInt = -a.toInt := by
  obtain ⟨c, hc, hn⟩ := ofInt?_eq h
  exact ⟨c, by rw [neg, hc], hn⟩

/-- A difference overflows when negated if the result does not fit. -/
theorem neg_eq_error {a : Int64} (h : ¬ Fits (-a.toInt)) : neg a = .error .negationOverflow := by
  have hmin : Int64.minValue.toInt = -2 ^ 63 := by decide
  have hmax : Int64.maxValue.toInt = 2 ^ 63 - 1 := by decide
  unfold Fits at h
  rw [neg, ofInt?, if_neg (by omega)]

/-- A negation that was computed is that of the number. -/
theorem toInt_of_neg {a c : Int64} (h : neg a = .ok c) : c.toInt = -a.toInt := by
  by_cases hfit : Fits (-a.toInt)
  · obtain ⟨c', hc', hn⟩ := neg_eq hfit
    cases h.symm.trans hc'
    exact hn
  · cases h.symm.trans (neg_eq_error hfit)

end Delta

end Bourse
