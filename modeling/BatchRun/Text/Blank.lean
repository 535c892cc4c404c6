/-! # Blank characters

The blank characters are those with the Unicode property `White_Space`. Texts of settings are
trimmed of them on both sides before they are read.
-/

namespace BatchRun.Text

/-- Whether a character has the Unicode property `White_Space`. -/
def isBlank (c : Char) : Bool :=
  let code := c.toNat
  (0x9 ≤ code && code ≤ 0xD) || code == 0x20 || code == 0x85 || code == 0xA0 || code == 0x1680 ||
    (0x2000 ≤ code && code ≤ 0x200A) || code == 0x2028 || code == 0x2029 || code == 0x202F ||
    code == 0x205F || code == 0x3000

/-- Every character that core calls white space is blank. -/
theorem isBlank_of_isWhitespace {c : Char} (space : c.isWhitespace) : isBlank c := by
  simp only [Char.isWhitespace, Bool.or_eq_true, decide_eq_true_eq] at space
  rcases space with ((rfl | rfl) | rfl) | rfl <;> decide

def dropBlank (chars : List Char) : List Char := chars.dropWhile isBlank

theorem dropBlank_cons {c : Char} (solid : isBlank c = false) (rest : List Char) :
    dropBlank (c :: rest) = c :: rest :=
  List.dropWhile_cons_of_neg (by simp [solid])

/-- Leaves out the blank characters at both ends. -/
def trimChars (chars : List Char) : List Char :=
  (dropBlank (dropBlank chars).reverse).reverse

/-- The text without blank characters at its ends. -/
def trim (text : String) : String := String.ofList (trimChars text.toList)

/-- The text with the letters `A` to `Z` in lower case and all else unchanged. -/
def lowerAscii (text : String) : String := String.ofList (text.toList.map Char.toLower)

end BatchRun.Text
