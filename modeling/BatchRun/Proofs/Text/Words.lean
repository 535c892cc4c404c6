import BatchRun.Text.Blank
import Mathlib

/-! # Blanks around texts and letters of any case

Trimming takes off whatever blanks stand around a text, and the rest is all that is read. A word in
lower case is what becomes of its spellings in letters of any case, and of nothing else.
-/

namespace BatchRun.Text

variable {c d : Char} {chars : List Char} {text core word other : String}

/-! ## Blanks around a text -/

/-- The text is another one with blanks around it. -/
def Padded (text core : String) : Prop :=
  ∃ before after, text.toList = before ++ core.toList ++ after ∧
    (∀ c ∈ before, isBlank c = true) ∧ ∀ c ∈ after, isBlank c = true

theorem Padded.trans (outer : Padded text core) (inner : Padded core other) :
    Padded text other := by
  obtain ⟨before, after, around, blankBefore, blankAfter⟩ := outer
  obtain ⟨before', after', around', blankBefore', blankAfter'⟩ := inner
  refine ⟨before ++ before', after' ++ after, by simp [around, around'], ?_, ?_⟩
  · exact List.forall_mem_append.2 ⟨blankBefore, blankBefore'⟩
  · exact List.forall_mem_append.2 ⟨blankAfter', blankAfter⟩

private theorem dropBlank_append (blank : ∀ c ∈ chars, isBlank c = true) (rest : List Char) :
    dropBlank (chars ++ rest) = dropBlank rest :=
  List.dropWhile_append_of_pos blank

private theorem dropBlank_of_solid (solid : ∀ c ∈ chars, isBlank c = false) :
    dropBlank chars = chars := by
  cases chars with
  | nil => rfl
  | cons first rest => exact dropBlank_cons (solid first List.mem_cons_self) rest

private theorem exists_eq_append_dropBlank (chars : List Char) :
    ∃ blanks, chars = blanks ++ dropBlank chars ∧ ∀ c ∈ blanks, isBlank c = true :=
  ⟨chars.takeWhile isBlank, List.takeWhile_append_dropWhile.symm,
    fun _ member => List.mem_takeWhile_imp member⟩

/-- Only blanks are taken off. -/
theorem padded_trim (text : String) : Padded text (trim text) := by
  obtain ⟨before, front, blankBefore⟩ := exists_eq_append_dropBlank text.toList
  obtain ⟨after, back, blankAfter⟩ := exists_eq_append_dropBlank (dropBlank text.toList).reverse
  refine ⟨before, after.reverse, ?_, blankBefore, by simpa using blankAfter⟩
  have kept : dropBlank text.toList = (trim text).toList ++ after.reverse := by
    rw [trim, String.toList_ofList, trimChars, ← List.reverse_append, ← back, List.reverse_reverse]
  rw [List.append_assoc, ← kept]
  exact front

private theorem trimChars_append {before after : List Char} (solid : ∀ c ∈ chars, isBlank c = false)
    (blankBefore : ∀ c ∈ before, isBlank c = true) (blankAfter : ∀ c ∈ after, isBlank c = true) :
    trimChars (before ++ chars ++ after) = chars := by
  have reversed : ∀ c ∈ after.reverse, isBlank c = true := by simpa using blankAfter
  rw [trimChars, List.append_assoc, dropBlank_append blankBefore]
  cases chars with
  | nil =>
    have none := dropBlank_append blankAfter []
    rw [List.append_nil] at none
    rw [List.nil_append, none]
    rfl
  | cons first rest =>
    have start : dropBlank (first :: rest ++ after) = first :: rest ++ after :=
      dropBlank_cons (solid first List.mem_cons_self) _
    rw [start, List.reverse_append, dropBlank_append reversed,
      dropBlank_of_solid fun c member => solid c (List.mem_reverse.1 member),
      List.reverse_reverse]

/-- A text without blanks in it is left when the blanks around it are taken off. -/
theorem padded_iff (solid : ∀ c ∈ core.toList, isBlank c = false) :
    Padded text core ↔ trim text = core := by
  constructor
  · rintro ⟨before, after, around, blankBefore, blankAfter⟩
    rw [trim, around, trimChars_append solid blankBefore blankAfter, String.ofList_toList]
  · rintro rfl
    exact padded_trim text

/-- Blanks around a text do not matter to what has no blanks in it. -/
theorem padded_trim_iff (solid : ∀ c ∈ core.toList, isBlank c = false) :
    Padded (trim text) core ↔ Padded text core := by
  refine ⟨(padded_trim text).trans, fun padded => ?_⟩
  rw [(padded_iff solid).1 padded]
  exact ⟨[], [], by simp, List.forall_mem_nil _, List.forall_mem_nil _⟩

/-! ## Letters of any case -/

/-- The text is the word, each letter of it in lower or upper case. -/
def Spells (text word : String) : Prop :=
  List.Forall₂ (fun c d => c = d ∨ c = d.toUpper) text.toList word.toList

private theorem toLower_eq_iff (lower : d.isLower = true) :
    c.toLower = d ↔ c = d ∨ c = d.toUpper := by
  have fixed : d.toLower = d :=
    Char.toLower_eq_of_not_isUpper (Char.not_isUpper_of_isLower lower)
  constructor
  · rintro rfl
    by_cases upper : c.isUpper = true
    · refine .inr ?_
      rw [Char.toUpper_toLower_eq_toUpper,
        Char.toUpper_eq_of_not_isLower (Char.not_isLower_of_isUpper upper)]
    · exact .inl (Char.toLower_eq_of_not_isUpper upper).symm
  · rintro (rfl | rfl)
    · exact fixed
    · rw [Char.toLower_toUpper_eq_toLower, fixed]

/-- The spellings of a word are the texts that have it in lower case. -/
theorem spells_iff (lower : ∀ d ∈ word.toList, d.isLower = true) :
    Spells text word ↔ lowerAscii text = word := by
  rw [← String.toList_inj, lowerAscii, String.toList_ofList, Spells]
  generalize text.toList = chars
  generalize word.toList = letters at lower ⊢
  rw [← List.forall₂_eq_eq_eq, List.forall₂_map_left_iff]
  induction letters generalizing chars with
  | nil => simp
  | cons d rest ih =>
    obtain ⟨first, others⟩ := List.forall_mem_cons.1 lower
    cases chars with
    | nil => simp
    | cons c chars => rw [List.forall₂_cons, List.forall₂_cons, toLower_eq_iff first, ih _ others]

private theorem isBlank_of_isAlpha (letter : c.isAlpha = true) : isBlank c = false := by
  simp only [Char.isAlpha, Char.isUpper, Char.isLower, Bool.or_eq_true, Bool.and_eq_true,
    decide_eq_true_eq, UInt32.le_iff_toNat_le] at letter
  simp only [isBlank, Bool.or_eq_false_iff, Bool.and_eq_false_iff, decide_eq_false_iff_not,
    beq_eq_false_iff_ne]
  change (65 ≤ c.toNat ∧ c.toNat ≤ 90) ∨ (97 ≤ c.toNat ∧ c.toNat ≤ 122) at letter
  omega

/-- A word has no blanks in it, however it is spelled. -/
theorem Spells.not_isBlank (spells : Spells text word)
    (lower : ∀ d ∈ word.toList, d.isLower = true) : ∀ c ∈ text.toList, isBlank c = false := by
  intro c member
  refine isBlank_of_isAlpha ?_
  rw [← Char.isLower_toLower_eq_isAlpha]
  rw [spells_iff lower] at spells
  refine lower _ ?_
  rw [← spells, lowerAscii, String.toList_ofList]
  exact List.mem_map_of_mem member

end BatchRun.Text
