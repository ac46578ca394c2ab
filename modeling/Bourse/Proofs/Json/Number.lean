import Bourse.Json.Parser
import Bourse.Json.Printer

/-!
# Numbers are read as they are written

A number is read up to the first character that would not go on with it (`Json.Apart`), and read as
it was written: its sign, its digits, of which no zero leads, the places behind the point, and the
power of ten (`Json.readNumber_numberChars`).
-/

namespace Bourse.Json

variable {ds rest : List Char} {n : Nat}

/-- No number goes on with these characters. -/
def Apart (cs : List Char) : Prop :=
  ∀ c ∈ cs.head?, c.isDigit = false ∧ c ≠ '.' ∧ c ≠ 'e' ∧ c ≠ 'E'

/-- No number goes on at the end of a text. -/
theorem apart_nil : Apart [] := nofun

/-- What follows is no digit. -/
def Stops (cs : List Char) : Prop := ∀ c ∈ cs.head?, c.isDigit = false

/-- What no number goes on with is no digit. -/
theorem Apart.stops (h : Apart rest) : Stops rest := fun c hc => (h c hc).1

/-- What is no digit stops a number. -/
theorem stops_cons {c : Char} (h : c.isDigit = false) : Stops (c :: rest) := by
  intro c' hc'
  cases hc'
  exact h

/-! ## Digits -/

/-- Digits are read up to the first character that is none. -/
theorem readDigits_append (hne : ds ≠ []) (hds : ∀ c ∈ ds, c.isDigit = true) (hrest : Stops rest) :
    readDigits (ds ++ rest) = some (ds, rest) := by
  have hnone : rest.takeWhile Char.isDigit = [] ∧ rest.dropWhile Char.isDigit = rest := by
    cases rest with
    | nil => exact ⟨rfl, rfl⟩
    | cons c rest => simp [hrest c rfl]
  simp only [readDigits, List.takeWhile_append_of_pos hds, List.dropWhile_append_of_pos hds, hnone,
    List.append_nil]
  simp [hne]

/-- The digits of a number are digits. -/
theorem isDigit_of_mem_toDigits {c : Char} (h : c ∈ Nat.toDigits 10 n) : c.isDigit = true :=
  Nat.isDigit_of_mem_toDigits (by decide) (by decide) h

/-- At least one digit is written for a number. -/
theorem exists_toDigits (n : Nat) : ∃ d ds, Nat.toDigits 10 n = d :: ds ∧ d.isDigit = true := by
  obtain ⟨d, ds, hds⟩ := List.exists_cons_of_ne_nil (Nat.toDigits_ne_nil (n := n) (b := 10))
  exact ⟨d, ds, hds, isDigit_of_mem_toDigits (hds ▸ List.mem_cons_self)⟩

/-- A digit is not one of the other characters. -/
theorem ne_of_isDigit {c d : Char} (h : c.isDigit = true) (hd : d.isDigit = false) : c ≠ d := by
  rintro rfl
  exact absurd (h.symm.trans hd) nofun

/-- The first digit of a number above zero is not zero. -/
theorem head?_toDigits_ne (h : 0 < n) : (Nat.toDigits 10 n).head? ≠ some '0' := by
  induction n using Nat.strongRecOn with
  | ind n ih =>
    by_cases hlt : n < 10
    · rw [Nat.toDigits_of_lt_base hlt, List.head?_cons]
      intro heq
      have := Nat.digitChar_eq_zero.1 (Option.some.inj heq)
      omega
    · -- the first digit is that of the number without its last one
      have hrest := ih (n / 10) (by omega) (by omega)
      obtain ⟨d, ds, hds, -⟩ := exists_toDigits (n / 10)
      rw [Nat.toDigits_of_base_le (by decide) (by omega), hds]
      rwa [hds] at hrest

/-- The digits of a number are read as its whole part. -/
theorem readWhole_toDigits (n : Nat) (hrest : Stops rest) :
    readWhole (Nat.toDigits 10 n ++ rest) = some (Nat.toDigits 10 n, rest) := by
  have hread := readDigits_append Nat.toDigits_ne_nil
    (fun c => isDigit_of_mem_toDigits (n := n)) hrest
  unfold readWhole
  rw [hread]
  split
  · next d ds cs heq =>
    -- a number with more than one digit is not zero
    obtain ⟨hdigits, -⟩ := Prod.mk.inj (Option.some.inj heq)
    rcases Nat.eq_zero_or_pos n with rfl | hpos
    · cases hdigits
    · exact absurd (congrArg List.head? hdigits) (head?_toDigits_ne hpos)
  · rfl

/-! ## The parts of a number -/

/-- The digit of a number below ten reads as the number. -/
theorem digitOf_digitChar (d : Fin 10) : digitOf (Nat.digitChar d.val) = d := by
  revert d
  decide

/-- The digit of a number below ten is a digit. -/
theorem isDigit_digitChar (d : Fin 10) : (Nat.digitChar d.val).isDigit = true := by
  rw [Nat.isDigit_digitChar]
  exact decide_eq_true d.isLt

/-- The places are read back, as many as there are. -/
theorem readPlaces_placeChars (places : List (Fin 10)) (hrest : Stops rest)
    (hpoint : ∀ c ∈ rest.head?, c ≠ '.') :
    readPlaces (placeChars places ++ rest) = some
    (places.map fun d => Nat.digitChar d.val, rest) := by
  cases places with
  | nil =>
    show readPlaces rest = some ([], rest)
    unfold readPlaces
    split
    · exact absurd rfl (hpoint _ rfl)
    · rfl
  | cons d places =>
    refine readDigits_append (List.cons_ne_nil _ _) ?_ hrest
    intro c hc
    obtain ⟨d', -, rfl⟩ := List.mem_map.1 hc
    exact isDigit_digitChar d'

/-- The digits of a power of ten are read back with their sign. -/
theorem readPower_toDigits (negative : Bool) (n : Nat) (hrest : Stops rest) :
    readPower negative (Nat.toDigits 10 n ++ rest) =
      some (if negative then -(n : Int) else n, rest) := by
  rw [readPower, readDigits_append Nat.toDigits_ne_nil (fun c => isDigit_of_mem_toDigits) hrest]
  simp only [Option.map_some, Nat.ofDigitChars_ten_toDigits]

/-- The power of ten is read back. -/
theorem readExponent_signedChars (exponent : Int) (hrest : Stops rest) :
    readExponent ('e' :: signedChars (exponent < 0) exponent.natAbs ++ rest) =
      some (some exponent, rest) := by
  by_cases hneg : exponent < 0
  · have hread := readPower_toDigits true exponent.natAbs hrest
    have habs : -(exponent.natAbs : Int) = exponent := by omega
    simp only [signedChars, hneg, decide_true, if_true]
    show (readPower true (Nat.toDigits 10 exponent.natAbs ++ rest)).map _ = _
    rw [hread, if_pos rfl, habs]
    rfl
  · have hread := readPower_toDigits false exponent.natAbs hrest
    have habs : (exponent.natAbs : Int) = exponent := by omega
    obtain ⟨d, ds, hds, hd⟩ := exists_toDigits exponent.natAbs
    simp only [signedChars, hneg, decide_false, Bool.false_eq_true, if_false, List.nil_append]
    rw [hds] at hread ⊢
    simp only [readExponent, List.cons_append, true_or, if_true]
    split
    · next heq => exact absurd (List.cons.inj heq).1 (ne_of_isDigit hd (by decide))
    · next heq => exact absurd (List.cons.inj heq).1 (ne_of_isDigit hd (by decide))
    · rw [← List.cons_append, hread, habs]
      rfl

/-- A number is not read on beyond its end. -/
theorem readExponent_of_apart (hrest : Apart rest) : readExponent rest = some (none, rest) := by
  cases rest with
  | nil => rfl
  | cons c rest =>
    obtain ⟨-, -, he, hE⟩ := hrest c rfl
    simp [readExponent, he, hE]

/-- A number of digits only is read as it was written. -/
theorem readUnsigned_whole (negative : Bool) (n : Nat) (hrest : Apart rest) :
    readUnsigned negative (Nat.toDigits 10 n ++ rest) = some (.whole negative n, rest) := by
  have hplaces := readPlaces_placeChars [] hrest.stops fun c hc => (hrest c hc).2.1
  simp only [placeChars, List.nil_append, List.map_nil] at hplaces
  simp only [readUnsigned, readWhole_toDigits n hrest.stops, Option.bind_eq_bind,
    Option.bind_some, hplaces, readExponent_of_apart hrest, Nat.ofDigitChars_ten_toDigits]
  rfl

/-- A number with places or a power of ten is read as it was written. -/
theorem readUnsigned_scaled (negative : Bool) (n : Nat) (places : List (Fin 10)) (exponent : Int)
    (hrest : Apart rest) : readUnsigned negative (Nat.toDigits 10 n ++ (placeChars places ++
      ('e' :: signedChars (exponent < 0) exponent.natAbs ++ rest))) =
        some (.scaled negative n places exponent, rest) := by
  have hplaces : readPlaces (placeChars places ++
      ('e' :: signedChars (exponent < 0) exponent.natAbs ++ rest)) = some (_, _) :=
    readPlaces_placeChars places (stops_cons (by decide)) (by simp)
  have hstops :
    Stops (placeChars places ++ ('e' :: signedChars (exponent < 0) exponent.natAbs ++ rest)) := by
    cases places with
    | nil => exact stops_cons (by decide)
    | cons d places => exact stops_cons (by decide)
  simp only [readUnsigned, readWhole_toDigits n hstops, Option.bind_eq_bind,
    Option.bind_some, hplaces, readExponent_signedChars exponent hrest.stops,
    Nat.ofDigitChars_ten_toDigits]
  simp [Function.comp_def, digitOf_digitChar]

/-- A number is read as it was written. -/
theorem readNumber_numberChars (n : JsonNumber) (hrest : Apart rest) :
    readNumber (numberChars n ++ rest) = some (n, rest) := by
  have hunsigned : ∀ (m : Nat) (cs : List Char),
      readNumber (Nat.toDigits 10 m ++ cs) = readUnsigned false (Nat.toDigits 10 m ++ cs) := by
    intro m cs
    obtain ⟨d, ds, hds, hd⟩ := exists_toDigits m
    rw [hds, List.cons_append]
    unfold readNumber
    split
    · next heq => exact absurd (List.cons.inj heq).1 (ne_of_isDigit hd (by decide))
    · rfl
  cases n with
  | whole negative m =>
    cases negative with
    | true => exact readUnsigned_whole true m hrest
    | false => exact (hunsigned m rest).trans (readUnsigned_whole false m hrest)
  | scaled negative m places exponent =>
    have happend : numberChars (.scaled negative m places exponent) ++ rest =
        (if negative then ['-'] else []) ++ (Nat.toDigits 10 m ++ (placeChars places ++
          ('e' :: signedChars (exponent < 0) exponent.natAbs ++ rest))) := by
      rw [numberChars, signedChars]
      simp only [List.append_assoc]
    rw [happend]
    cases negative with
    | true => exact readUnsigned_scaled true m places exponent hrest
    | false => exact (hunsigned m _).trans (readUnsigned_scaled false m places exponent hrest)

end Bourse.Json
