import Bourse.Proofs.Json.Number
import Bourse.Proofs.Json.Text

/-!
# Values are read as they are written

What `Json.compact` writes is read as the value it was written for (`Json.parse?_compact`), so no
two values are written in the same way (`Json.compact_injective`).

Reading goes down into a value by steps, and there are as many left as characters that belong to it
(`Json.Reads`).
-/

namespace Bourse.Json

variable {steps : Nat} {rest : List Char}

/-! ## First characters -/

/-- What is no space is not skipped. -/
theorem skipSpace_cons {c : Char} {cs : List Char} (h : isSpace c = false) :
    skipSpace (c :: cs) = c :: cs := by
  simp [skipSpace, h]

/-- A digit is no space. -/
theorem isSpace_of_isDigit {c : Char} (h : c.isDigit = true) : isSpace c = false := by
  have hne : ∀ d : Char, d.isDigit = false → c ≠ d := fun d hd => ne_of_isDigit h hd
  simp [isSpace, hne ' ' (by decide), hne '\t' (by decide), hne '\n' (by decide),
    hne '\r' (by decide)]

/-- A number begins with a digit or a minus sign. -/
theorem exists_numberChars (n : JsonNumber) :
    ∃ c cs, numberChars n = c :: cs ∧ (c.isDigit = true ∨ c = '-') := by
  have hsigned : ∀ (negative : Bool) (m : Nat) (more : List Char),
      ∃ c cs, signedChars negative m ++ more = c :: cs ∧ (c.isDigit = true ∨ c = '-') := by
    intro negative m more
    obtain ⟨d, ds, hds, hd⟩ := exists_toDigits m
    cases negative with
    | true => exact ⟨'-', _, rfl, .inr rfl⟩
    | false => exact ⟨d, ds ++ more, by simp [signedChars, hds], .inl hd⟩
  cases n with
  | whole negative m =>
    obtain ⟨c, cs, hcs, hc⟩ := hsigned negative m []
    exact ⟨c, cs, by rw [← hcs, List.append_nil]; rfl, hc⟩
  | scaled negative m places exponent =>
    obtain ⟨c, cs, hcs, hc⟩ := hsigned negative m (placeChars places ++
      'e' :: signedChars (exponent < 0) exponent.natAbs)
    exact ⟨c, cs, by rw [← hcs]; simp [numberChars], hc⟩

/-- A value begins with a character that is no blank and does not end a list. -/
theorem exists_chars (j : Json) : ∃ c cs, chars j = c :: cs ∧ isSpace c = false ∧ c ≠ ']' := by
  cases j with
  | null => exact ⟨_, _, rfl, rfl, by decide⟩
  | bool b => cases b <;> exact ⟨_, _, rfl, rfl, by decide⟩
  | number n =>
    obtain ⟨c, cs, hcs, hc⟩ := exists_numberChars n
    refine ⟨c, cs, hcs, ?_⟩
    rcases hc with hc | rfl
    · exact ⟨isSpace_of_isDigit hc, ne_of_isDigit hc (by decide)⟩
    · exact ⟨rfl, by decide⟩
  | text content => cases content <;> exact ⟨_, _, rfl, rfl, by decide⟩
  | array items => cases items <;> exact ⟨_, _, rfl, rfl, by decide⟩
  | object fields =>
    obtain _ | ⟨⟨name, value⟩, fields⟩ := fields <;> exact ⟨_, _, rfl, rfl, by decide⟩

/-- No number goes on into the rest of a list. -/
theorem apart_itemsChars (items : List Json) : Apart (itemsChars items ++ rest) := by
  cases items <;> · intro c hc; cases hc; decide

/-- No number goes on with what follows a field. -/
theorem apart_fieldsChars (fields : List (Option String × Json)) :
    Apart (fieldsChars fields ++ rest) := by
  obtain _ | ⟨⟨name, value⟩, fields⟩ := fields <;> · intro c hc; cases hc; decide

/-! ## Steps -/

/-- What is read back within a number of steps. -/
structure Reads (steps : Nat) : Prop where
  value : ∀ j rest, (chars j).length ≤ steps → Apart rest →
    readValue steps (chars j ++ rest) = some (j, rest)
  items : ∀ item items rest, (chars item).length + (itemsChars items).length ≤ steps →
    readItems steps (chars item ++ (itemsChars items ++ rest)) = some (item :: items, rest)
  fields : ∀ name value fields rest,
    (textChars name).length + (chars value).length + (fieldsChars fields).length ≤ steps →
    readFields steps (textChars name ++ ':' :: (chars value ++ (fieldsChars fields ++ rest))) =
      some ((name, value) :: fields, rest)

/-- A number is read back, if no number goes on behind it. -/
theorem readValue_number (n : JsonNumber) (hrest : Apart rest) :
    readValue (steps + 1) (numberChars n ++ rest) = some (.number n, rest) := by
  have hread := readNumber_numberChars n hrest
  obtain ⟨c, cs, hcs, hc⟩ := exists_numberChars n
  rw [hcs, List.cons_append] at hread ⊢
  have hspace : isSpace c = false := by
    rcases hc with hc | rfl
    · exact isSpace_of_isDigit hc
    · rfl
  have hne : ∀ d : Char, d.isDigit = false → d ≠ '-' → c ≠ d := by
    intro d hd hminus
    rcases hc with hc | rfl
    · exact ne_of_isDigit hc hd
    · exact hminus.symm
  rw [readValue, skipSpace_cons hspace]
  split
  case h_7 => rw [hread]; rfl
  all_goals next heq => exact absurd (List.cons.inj heq).1 (hne _ (by decide) (by decide))

/-- A value is read back with one step more, one case for each kind of value. -/
theorem Reads.succ_value (h : Reads steps) (j : Json) (rest : List Char)
    (hlength : (chars j).length ≤ steps + 1) (hrest : Apart rest) :
    readValue (steps + 1) (chars j ++ rest) = some (j, rest) := by
  cases j with
  | null => rfl
  | bool b => cases b <;> rfl
  | number n => exact readValue_number n hrest
  | text content =>
    obtain ⟨cs, hcs, hread⟩ := readString_textChars content rest
    rw [chars, hcs]
    show (readString cs).map _ = _
    rw [hread]
    rfl
  | array items =>
    cases items with
    | nil => rfl
    | cons item items =>
      have hread := h.items item items rest (by
        simp only [chars, List.length_cons, List.length_append] at hlength
        omega)
      obtain ⟨c, cs, hcs, hspace, hc⟩ := exists_chars item
      have hchars : chars (.array (item :: items)) ++ rest =
          '[' :: (chars item ++ (itemsChars items ++ rest)) := by simp [chars]
      rw [hchars, readValue, skipSpace_cons rfl]
      rw [hcs, List.cons_append] at hread ⊢
      simp only [skipSpace_cons hspace]
      split
      · next heq => exact absurd (List.cons.inj heq).1 hc
      · rw [hread]
        rfl
  | object fields =>
    obtain _ | ⟨⟨name, value⟩, fields⟩ := fields
    · rfl
    · have hread := h.fields name value fields rest (by
        simp only [chars, List.length_cons, List.length_append] at hlength
        omega)
      obtain ⟨cs, hcs, -⟩ :=
        readString_textChars name (':' :: (chars value ++ (fieldsChars fields ++ rest)))
      rw [hcs] at hread
      have hchars : chars (.object ((name, value) :: fields)) ++ rest = '\x7b' :: '"' :: cs := by
        rw [← hcs]
        simp [chars]
      rw [hchars]
      show (readFields steps ('"' :: cs)).map _ = _
      rw [hread]
      rfl

/-- Items are read back with one step more. -/
theorem Reads.succ_items (h : Reads steps) (item : Json) (items : List Json) (rest : List Char)
    (hlength : (chars item).length + (itemsChars items).length ≤ steps + 1) :
    readItems (steps + 1) (chars item ++ (itemsChars items ++ rest)) = some
    (item :: items, rest) := by
  cases items with
  | nil =>
    simp only [itemsChars, List.length_cons, List.length_nil] at hlength
    have hitem := h.value item (itemsChars [] ++ rest) (by omega) (apart_itemsChars [])
    rw [readItems, hitem]
    rfl
  | cons next items =>
    have hpos : 0 < (chars next).length := by
      obtain ⟨c, cs, hcs, -⟩ := exists_chars next
      rw [hcs]
      exact Nat.succ_pos _
    simp only [itemsChars, List.length_cons, List.length_append] at hlength
    have hitem := h.value item (itemsChars (next :: items) ++ rest) (by omega) (apart_itemsChars _)
    have hmore := h.items next items rest (by omega)
    rw [readItems, hitem]
    show (readItems steps (chars next ++ itemsChars items ++ rest)).map _ = _
    rw [List.append_assoc, hmore]
    rfl

/-- Fields are read back with one step more. -/
theorem Reads.succ_fields (h : Reads steps) (name : Option String) (value : Json)
    (fields : List (Option String × Json)) (rest : List Char)
    (hlength : (textChars name).length + (chars value).length + (fieldsChars fields).length ≤
      steps + 1) :
    readFields (steps + 1)
    (textChars name ++ ':' :: (chars value ++ (fieldsChars fields ++ rest))) =
      some ((name, value) :: fields, rest) := by
  rw [readFields, readName_textChars]
  have hname : 0 < (textChars name).length := by cases name <;> exact Nat.succ_pos _
  cases fields with
  | nil =>
    simp only [fieldsChars, List.length_cons, List.length_nil] at hlength
    have hvalue := h.value value (fieldsChars [] ++ rest) (by omega) (apart_fieldsChars [])
    simp only [hvalue]
    rfl
  | cons next fields =>
    obtain ⟨name', value'⟩ := next
    simp only [fieldsChars, List.length_cons, List.length_append] at hlength
    have hvalue := h.value value (fieldsChars ((name', value') :: fields) ++ rest) (by omega)
      (apart_fieldsChars _)
    have hmore := h.fields name' value' fields rest (by omega)
    simp only [hvalue]
    have hchars : fieldsChars ((name', value') :: fields) ++ rest =
        ',' :: (textChars name' ++ ':' :: (chars value' ++ (fieldsChars fields ++ rest))) := by
      simp [fieldsChars]
    rw [hchars]
    show (readFields steps _).map _ = _
    rw [hmore]
    rfl

/-- As many steps as characters are enough. -/
theorem reads (steps : Nat) : Reads steps := by
  induction steps with
  | zero =>
    have hpos : ∀ j, ¬ (chars j).length ≤ 0 := by
      intro j
      obtain ⟨c, cs, hcs, -⟩ := exists_chars j
      simp [hcs]
    exact ⟨fun j _ h => absurd h (hpos j), fun j _ _ h => absurd (by omega) (hpos j),
      fun _ j _ _ h => absurd (by omega) (hpos j)⟩
  | succ steps ih => exact ⟨ih.succ_value, ih.succ_items, ih.succ_fields⟩

/-- What is written is read as the value that it was written for. -/
theorem parse?_compact (j : Json) : parse? j.compact = some j := by
  have hread := (reads (2 * (chars j).length + 2)).value j [] (by omega) apart_nil
  rw [List.append_nil] at hread
  rw [parse?, compact, String.toList_ofList, ofChars?, hread]
  rfl

/-- No two values are written alike. -/
theorem compact_injective : Function.Injective compact := by
  intro j j' h
  have hread := parse?_compact j
  rw [h, parse?_compact] at hread
  exact (Option.some.inj hread).symm

end Bourse.Json
