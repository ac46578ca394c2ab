import Bourse.Json.Parser
import Bourse.Json.Printer

/-!
# Texts are read as they are written

A character of a text is written as an escape or as it is, and either way it is read as this
character (`Json.readText_escapeChar`). So a text is read up to its closing quote, whatever comes
behind it (`Json.readString_textChars`).
-/

namespace Bourse.Json

variable {c : Char} {cs rest : List Char}

/-- The two digits of a control character name its code unit. -/
theorem codeUnit?_digitChar : ∀ n < 0x20,
    codeUnit? '0' '0' (Nat.digitChar (n / 16)) (Nat.digitChar (n % 16)) = some n := by
  decide

/-- A control character is escaped by its code unit. -/
theorem readText_codeUnit (h : c.toNat < 0x20) :
    readText none ('\\' :: 'u' :: '0' :: '0' :: Nat.digitChar (c.toNat / 16) ::
      Nat.digitChar (c.toNat % 16) :: cs) = consChar c (readText none cs) := by
  have hhigh : isHighSurrogate c.toNat = false := by
    simp only [isHighSurrogate, Bool.and_eq_false_iff, decide_eq_false_iff_not]
    omega
  have hlow : isLowSurrogate c.toNat = false := by
    simp only [isLowSurrogate, Bool.and_eq_false_iff, decide_eq_false_iff_not]
    omega
  simp only [readText, codeUnit?_digitChar _ h, hhigh, hlow, Bool.false_eq_true, if_false,
    Char.ofNat_toNat]

/-- A character that is not escaped stands for itself. -/
theorem readText_plain (hquote : c ≠ '"') (hslash : c ≠ '\\') (h : ¬ c.toNat < 0x20) :
    readText none (c :: cs) = consChar c (readText none cs) := by
  rw [readText]
  · simp [hslash, h]
  · exact hquote
  · exact fun _ _ _ _ _ heq => absurd heq hslash
  · exact fun _ _ heq => absurd heq hslash

/-- A character is read as it was written. -/
theorem readText_escapeChar (c : Char) (cs : List Char) :
    readText none (escapeChar c ++ cs) = consChar c (readText none cs) := by
  by_cases hescape : c ∈ ['"', '\\', '\x08', '\t', '\n', '\x0c', '\r']
  · simp only [List.mem_cons, List.not_mem_nil, or_false] at hescape
    rcases hescape with rfl | rfl | rfl | rfl | rfl | rfl | rfl <;> rfl
  · simp only [List.mem_cons, List.not_mem_nil, or_false, not_or] at hescape
    obtain ⟨hquote, hslash, h₁, h₂, h₃, h₄, h₅⟩ := hescape
    simp only [escapeChar, if_neg hquote, if_neg hslash, if_neg h₁, if_neg h₂,
      if_neg h₃, if_neg h₄, if_neg h₅]
    split
    · next h => exact readText_codeUnit h
    · next h => exact readText_plain hquote hslash h

/-- The content of a text is read up to the closing quote. -/
theorem readText_flatMap (content rest : List Char) :
    readText none (content.flatMap escapeChar ++ '"' :: rest) = some (some content, rest) := by
  induction content with
  | nil => rfl
  | cons c content ih => rw [List.flatMap_cons, List.append_assoc, readText_escapeChar, ih]; rfl

/-- A text is read as it was written, whether or not it has content. -/
theorem readString_textChars (content : Option String) (rest : List Char) :
    ∃ cs, textChars content ++ rest = '"' :: cs ∧ readString cs = some (content, rest) := by
  cases content with
  | none => exact ⟨_, rfl, rfl⟩
  | some s =>
    refine ⟨s.toList.flatMap escapeChar ++ '"' :: rest, ?_, ?_⟩
    · simp [textChars]
    · rw [readString, readText_flatMap, Option.map_some, Option.map_some, String.ofList_toList]

/-- A name and the colon behind it are read as they were written. -/
theorem readName_textChars (name : Option String) (rest : List Char) :
    readName (textChars name ++ ':' :: rest) = some (name, rest) := by
  obtain ⟨cs, hcs, hread⟩ := readString_textChars name (':' :: rest)
  have hquote : skipSpace ('"' :: cs) = '"' :: cs := rfl
  have hcolon : skipSpace (':' :: rest) = ':' :: rest := rfl
  simp only [readName, hcs, hquote, hread, hcolon]

end Bourse.Json
