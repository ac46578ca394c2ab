import Bourse.Decimal.Scientific

/-!
# The text of a decimal is read as the decimal

The digits of a decimal, with the point among them, are read one by one, and none of them is cut
off because the coefficient they amount to fits (`Decimal.readDigits_append`). So the text of a
decimal is read as the decimal, with its places (`Decimal.read?_text`), except that a zero loses
its minus sign (`Decimal.plain`). No two decimals have one text (`Decimal.text_injective`).
-/

namespace Bourse.Decimal

variable {d : Decimal}

/-! ## Signs of zero -/

/-- The decimal, without the sign of a zero. -/
def plain (d : Decimal) : Decimal :=
  ofParts d.negative d.coefficient d.scale d.coefficient_lt d.scale_le

/-- A zero with a minus sign. -/
def isNegativeZero (d : Decimal) : Bool := d.negative && d.coefficient == 0

/-- A decimal is plain unless it is a negative zero. -/
theorem plain_eq_self_iff : d.plain = d ↔ d.isNegativeZero = false := by
  obtain ⟨negative, coefficient, scale, hc, hs⟩ := d
  cases negative <;> simp [plain, ofParts, isNegativeZero]

/-- The value is the same without the sign of a zero. -/
@[simp] theorem units_plain (d : Decimal) : d.plain.units = d.units := by
  obtain ⟨negative, coefficient, scale, hc, hs⟩ := d
  cases coefficient <;> cases negative <;> simp [plain, ofParts, units]

/-! ## Reading digits -/

/-- Reading digits does not fall below what was read before. -/
theorem le_ofDigitChars (ds : List Char) (n : Nat) : n ≤ Nat.ofDigitChars 10 ds n := by
  rw [Nat.ofDigitChars_eq_ofDigitChars_zero]
  have hpow : 0 < 10 ^ ds.length := Nat.pow_pos (by decide)
  exact Nat.le_add_right_of_le (Nat.le_mul_of_pos_left n hpow)

/-- Digits are read one by one as long as what they amount to fits. Behind the point each is a
place. -/
theorem readDigits_append (negative point started : Bool) (coefficient scale : Nat)
    {ds : List Char} (rest : List Char) (hds : ∀ c ∈ ds, c.isDigit = true)
    (hfits : Nat.ofDigitChars 10 ds coefficient < coefficientBound)
    (hplaces : scale + (if point then ds.length else 0) ≤ 28) :
    readDigits negative point started coefficient scale (ds ++ rest) =
      readDigits negative point (started || !ds.isEmpty) (Nat.ofDigitChars 10 ds coefficient)
        (scale + if point then ds.length else 0) rest := by
  induction ds generalizing started coefficient scale with
  | nil => simp
  | cons c ds ih =>
    have hc : digit? c = some (c.toNat - '0'.toNat) := if_pos (hds c List.mem_cons_self)
    have hlength : scale + (if point then (c :: ds).length else 0) =
        (if point then scale + 1 else scale) + if point then ds.length else 0 := by
      cases point <;> simp [Nat.add_assoc, Nat.add_comm 1]
    rw [Nat.ofDigitChars_cons, Nat.mul_comm] at hfits ⊢
    rw [hlength] at hplaces ⊢
    have hnext := Nat.lt_of_le_of_lt (le_ofDigitChars ds _) hfits
    simp only [List.cons_append, readDigits, hc]
    rw [if_pos ⟨hnext, Nat.le_of_add_right_le hplaces⟩,
      ih _ _ _ (fun c' hc' => hds c' (List.mem_cons_of_mem _ hc')) hfits hplaces]
    simp

/-! ## The digits of a decimal -/

/-- The digits of a decimal are digits. -/
theorem isDigit_of_mem_digits {c : Char} (h : c ∈ d.digits) : c.isDigit = true := by
  rcases List.mem_append.1 h with h | h
  · rw [(List.mem_replicate.1 h).2]
    rfl
  · exact Nat.isDigit_of_mem_toDigits (by decide) (by decide) h

/-- More digits are written than there are places. -/
theorem scale_lt_length_digits (d : Decimal) : d.scale < d.digits.length := by
  simp only [digits, List.length_append, List.length_replicate]
  omega

/-- The digits of a decimal read back as its coefficient. -/
theorem ofDigitChars_digits (d : Decimal) : Nat.ofDigitChars 10 d.digits 0 = d.coefficient := by
  rw [digits, Nat.ofDigitChars_append, Nat.ofDigitChars_replicate_zero, Nat.mul_zero,
    Nat.ofDigitChars_ten_toDigits]

/-- The digits before the point. -/
def wholeDigits (d : Decimal) : List Char := d.digits.take (d.digits.length - d.scale)

/-- The digits behind the point. -/
def placeDigits (d : Decimal) : List Char := d.digits.drop (d.digits.length - d.scale)

/-- The digits are those before the point and those after it. -/
theorem wholeDigits_append (d : Decimal) : d.wholeDigits ++ d.placeDigits = d.digits :=
  List.take_append_drop _ _

/-- As many digits follow the point as the scale says. -/
theorem length_placeDigits (d : Decimal) : d.placeDigits.length = d.scale := by
  have := d.scale_lt_length_digits
  rw [placeDigits, List.length_drop]
  omega

/-- At least one digit stands before the point. -/
theorem exists_wholeDigits (d : Decimal) : ∃ c cs, d.wholeDigits = c :: cs ∧ c.isDigit = true := by
  have hlength : d.wholeDigits.length ≠ 0 := by
    have := d.scale_lt_length_digits
    rw [wholeDigits, List.length_take]
    omega
  obtain ⟨c, cs, hcs⟩ := List.exists_cons_of_length_pos (Nat.pos_of_ne_zero hlength)
  have hmem : c ∈ d.wholeDigits := hcs ▸ List.mem_cons_self
  exact ⟨c, cs, hcs, isDigit_of_mem_digits (List.mem_of_mem_take hmem)⟩

/-- The digits of a decimal with the point among them, without the sign. -/
def unsignedChars (d : Decimal) : List Char :=
  d.wholeDigits ++ if d.scale = 0 then [] else '.' :: d.placeDigits

/-- A minus sign stands before the rest if the decimal is negative. -/
theorem chars_eq (d : Decimal) :
    d.chars = (if d.negative then ['-'] else []) ++ d.unsignedChars := by
  simp [chars, unsignedChars, wholeDigits, placeDigits]

/-- The digits of a decimal are read as the decimal, with the sign that was read before. -/
theorem readDigits_unsignedChars (negative : Bool) (d : Decimal) :
    readDigits negative false false 0 0 d.unsignedChars =
      ofParts? negative d.coefficient d.scale := by
  have hall : ∀ c ∈ d.wholeDigits ++ d.placeDigits, c.isDigit = true := fun c hc =>
    isDigit_of_mem_digits (d.wholeDigits_append ▸ hc)
  have hvalue : Nat.ofDigitChars 10 d.placeDigits (Nat.ofDigitChars 10 d.wholeDigits 0) =
      d.coefficient := by
    rw [← Nat.ofDigitChars_append, wholeDigits_append, ofDigitChars_digits]
  have hwhole := fun rest => readDigits_append negative false false 0 0 rest
    (fun c hc => hall c (List.mem_append_left _ hc))
    (Nat.lt_of_le_of_lt (le_ofDigitChars d.placeDigits _) (hvalue ▸ d.coefficient_lt)) (by simp)
  have hplaces := readDigits_append negative true true _ 0 []
    (fun c hc => hall c (List.mem_append_right _ hc)) (hvalue ▸ d.coefficient_lt)
    (by rw [if_pos rfl, length_placeDigits, Nat.zero_add]; exact d.scale_le)
  obtain ⟨c, cs, hcs, -⟩ := d.exists_wholeDigits
  have hstarted : (false || !d.wholeDigits.isEmpty) = true := by rw [hcs]; rfl
  rw [hvalue, List.append_nil, if_pos rfl, length_placeDigits, Nat.zero_add] at hplaces
  simp only [hstarted, Bool.false_eq_true, if_false, Nat.add_zero] at hwhole
  rw [unsignedChars, hwhole]
  split
  · next hscale =>
    have hnone : d.placeDigits = [] :=
      List.length_eq_zero_iff.1 (d.length_placeDigits.trans hscale)
    rw [hnone, Nat.ofDigitChars_nil] at hvalue
    rw [hvalue, hscale]
    rfl
  · exact hplaces

/-- What follows the sign begins with a digit. -/
theorem exists_unsignedChars (d : Decimal) :
    ∃ c cs, d.unsignedChars = c :: cs ∧ c.isDigit = true := by
  obtain ⟨c, cs, hcs, hc⟩ := d.exists_wholeDigits
  exact ⟨c, _, by rw [unsignedChars, hcs]; rfl, hc⟩

/-- The characters of a decimal are read as the decimal, but for the sign of a zero. -/
theorem ofChars?_chars (d : Decimal) : ofChars? d.chars = some d.plain := by
  have hparts : ofParts? d.negative d.coefficient d.scale = some d.plain :=
    dif_pos ⟨d.coefficient_lt, d.scale_le⟩
  rw [chars_eq, ← hparts]
  cases hnegative : d.negative with
  | true => exact d.readDigits_unsignedChars true
  | false =>
    obtain ⟨c, cs, hcs, hc⟩ := d.exists_unsignedChars
    have hread := d.readDigits_unsignedChars false
    rw [hcs] at hread
    rw [hcs, ← hread]
    simp only [Bool.false_eq_true, if_false, List.nil_append]
    unfold ofChars?
    split
    · next heq =>
      rw [(List.cons.inj heq).1] at hc
      exact absurd hc (by decide)
    · next heq =>
      rw [(List.cons.inj heq).1] at hc
      exact absurd hc (by decide)
    · rfl

/-- The text of a decimal is read as the decimal, but for the sign of a zero. -/
theorem read?_text (d : Decimal) : read? d.text = some d.plain := by
  rw [read?, ofText?, text, String.toList_ofList, ofChars?_chars]
  rfl

/-- Two decimals have different texts. -/
theorem text_injective : Function.Injective text := by
  intro a b h
  have hchars : a.chars = b.chars := by
    have hlist := congrArg String.toList h
    rwa [text, text, String.toList_ofList, String.toList_ofList] at hlist
  have hplain : a.plain = b.plain := by
    have hread := a.ofChars?_chars
    rw [hchars, ofChars?_chars] at hread
    exact (Option.some.inj hread).symm
  have hnegative : a.negative = b.negative := by
    obtain ⟨c, cs, hcs, hc⟩ := a.exists_unsignedChars
    obtain ⟨c', cs', hcs', hc'⟩ := b.exists_unsignedChars
    rw [chars_eq, chars_eq, hcs, hcs'] at hchars
    cases ha : a.negative <;> cases hb : b.negative <;> rw [ha, hb] at hchars
    · rw [(List.cons.inj hchars).1] at hc
      exact absurd hc (by decide)
    · rw [← (List.cons.inj hchars).1] at hc'
      exact absurd hc' (by decide)
  cases a
  cases b
  cases hnegative
  cases congrArg coefficient hplain
  cases congrArg scale hplain
  rfl

end Bourse.Decimal
