import BatchRun.Text.Blank
import BatchRun.Text.Numeral
import Mathlib.Algebra.Group.Nat.Defs

/-! # Which texts are read as numbers

The numerals of a number are its decimal digits, with any zeros and perhaps a plus in front of them.
A numeral is read as its number if that is below the bound, and no other text is read at all.
-/

namespace BatchRun.Text

variable {c : Char} {chars digits : List Char} {bound value number : Nat} {text : String}

/-! ## Digits -/

private theorem toNat_of_isDigit (digit : c.isDigit = true) : 48 ≤ c.toNat ∧ c.toNat ≤ 57 := by
  simp only [Char.isDigit, Bool.and_eq_true, decide_eq_true_eq] at digit
  exact ⟨UInt32.le_iff_toNat_le.1 digit.1, UInt32.le_iff_toNat_le.1 digit.2⟩

theorem digit?_of_isDigit (digit : c.isDigit = true) : digit? c = some (c.toNat - '0'.toNat) := by
  obtain ⟨low, high⟩ := toNat_of_isDigit digit
  refine if_pos ⟨?_, ?_⟩
  · exact UInt32.le_iff_toNat_le.2 low
  · exact UInt32.le_iff_toNat_le.2 high

private theorem digit?_of_not_isDigit (other : c.isDigit = false) : digit? c = none := by
  refine if_neg fun ⟨low, high⟩ => ?_
  have digit : c.isDigit = true := by
    simp only [Char.isDigit, Bool.and_eq_true, decide_eq_true_eq]
    exact ⟨low, high⟩
  exact Bool.false_ne_true (other.symm.trans digit)

theorem isBlank_of_isDigit (digit : c.isDigit = true) : isBlank c = false := by
  obtain ⟨low, high⟩ := toNat_of_isDigit digit
  simp only [isBlank, Bool.or_eq_false_iff, Bool.and_eq_false_iff, decide_eq_false_iff_not,
    beq_eq_false_iff_ne]
  omega

/-! ## Numerals -/

/-- More digits do not make a number smaller. -/
theorem le_ofDigitChars (digits : List Char) (value : Nat) :
    value ≤ Nat.ofDigitChars 10 digits value := by
  rw [Nat.ofDigitChars_eq_ofDigitChars_zero]
  have positive : 1 ≤ 10 ^ digits.length := Nat.one_le_pow _ _ (by decide)
  have grown := Nat.mul_le_mul_right value positive
  omega

/-- Digits are read as their value, as long as that stays below the bound. -/
theorem readDigits_eq_ok_iff (small : value < bound) :
    readDigits bound value chars = .ok number ↔
      (∀ c ∈ chars, c.isDigit = true) ∧ Nat.ofDigitChars 10 chars value = number ∧
        number < bound := by
  induction chars generalizing value with
  | nil =>
    simp only [readDigits, Nat.ofDigitChars_nil, Except.ok.injEq]
    constructor
    · rintro rfl
      exact ⟨List.forall_mem_nil _, rfl, small⟩
    · exact fun read => read.2.1
  | cons first rest ih =>
    rw [List.forall_mem_cons, Nat.ofDigitChars_cons]
    cases digit : first.isDigit with
    | false => simp [readDigits, digit?_of_not_isDigit digit]
    | true =>
      simp only [readDigits, digit?_of_isDigit digit]
      split
      · rename_i below
        rw [ih below, true_and]
      · rename_i reached
        have grown := le_ofDigitChars rest (10 * value + (first.toNat - '0'.toNat))
        refine iff_of_false nofun ?_
        rintro ⟨-, rfl, below⟩
        omega

/-- Digits after at most one plus, of which there is at least one, with their value. -/
def IsNumeral (chars : List Char) (number : Nat) : Prop :=
  ∃ digits, (chars = digits ∨ chars = '+' :: digits) ∧ digits ≠ [] ∧
    (∀ c ∈ digits, c.isDigit = true) ∧ Nat.ofDigitChars 10 digits 0 = number

/-- Digits do not start with a plus. -/
theorem ne_plus_cons (isDigits : ∀ c ∈ digits, c.isDigit = true) (rest : List Char) :
    digits ≠ '+' :: rest := by
  rintro rfl
  exact absurd (isDigits '+' List.mem_cons_self) (by decide)

private theorem isNumeral_of_plus : IsNumeral ('+' :: chars) number ↔
    chars ≠ [] ∧ (∀ c ∈ chars, c.isDigit = true) ∧ Nat.ofDigitChars 10 chars 0 = number := by
  constructor
  · rintro ⟨digits, rfl | plus, nonempty, isDigits, value⟩
    · exact absurd rfl (ne_plus_cons isDigits _)
    · rw [(List.cons.inj plus).2]
      exact ⟨nonempty, isDigits, value⟩
  · exact fun numeral => ⟨chars, .inr rfl, numeral⟩

private theorem isNumeral_of_no_plus (plain : ∀ digits, chars ≠ '+' :: digits) :
    IsNumeral chars number ↔
      chars ≠ [] ∧ (∀ c ∈ chars, c.isDigit = true) ∧ Nat.ofDigitChars 10 chars 0 = number := by
  constructor
  · rintro ⟨digits, rfl | plus, numeral⟩
    · exact numeral
    · exact absurd plus (plain digits)
  · exact fun numeral => ⟨chars, .inl rfl, numeral⟩

/-- What is read is what the numeral says, below the bound. -/
theorem readNumeral_eq_ok_iff (positive : 0 < bound) :
    readNumeral bound text = .ok number ↔ IsNumeral text.toList number ∧ number < bound := by
  unfold readNumeral
  split
  · rename_i empty
    have plain : ∀ digits, text.toList ≠ '+' :: digits := by simp [empty]
    rw [isNumeral_of_no_plus plain]
    simp [empty]
  · rename_i plus
    rw [plus, isNumeral_of_plus]
    simp
  · rename_i digits nonempty plus
    rw [plus, isNumeral_of_plus, readDigits_eq_ok_iff positive, and_iff_right nonempty, and_assoc]
  · rename_i nonempty _ plain
    rw [isNumeral_of_no_plus plain, readDigits_eq_ok_iff positive, and_iff_right nonempty,
      and_assoc]

/-- The usual decimal numeral of a number. -/
theorem isNumeral_toDigits (number : Nat) : IsNumeral (Nat.toDigits 10 number) number :=
  ⟨_, .inl rfl, Nat.toDigits_ne_nil,
    fun _ member => Nat.isDigit_of_mem_toDigits (by decide) (by decide) member,
    Nat.ofDigitChars_ten_toDigits⟩

/-- A text is a numeral of one number at most. -/
theorem IsNumeral.unique {other : Nat} (first : IsNumeral chars number)
    (second : IsNumeral chars other) : number = other := by
  obtain ⟨digits, whole, -, isDigits, rfl⟩ := first
  obtain ⟨digits', whole', -, isDigits', rfl⟩ := second
  rcases whole with rfl | rfl <;> rcases whole' with rfl | same
  · rfl
  · exact absurd same (ne_plus_cons isDigits _)
  · exact absurd rfl (ne_plus_cons isDigits' _)
  · rw [(List.cons.inj same).2]

theorem IsNumeral.not_isBlank (numeral : IsNumeral chars number) :
    ∀ c ∈ chars, isBlank c = false := by
  obtain ⟨digits, rfl | rfl, -, isDigits, -⟩ := numeral
  · exact fun c member => isBlank_of_isDigit (isDigits c member)
  · refine List.forall_mem_cons.2 ⟨by decide, ?_⟩
    exact fun c member => isBlank_of_isDigit (isDigits c member)

end BatchRun.Text
