import CommBindings.Text.Ranges

set_option autoImplicit false

/-! # Blank characters

The white space of Unicode together with the four information separators. Trimming removes blank
characters from the ends of a text, and a text is blank when nothing is left of it.
-/

namespace CommBindings.Text

/-- The blank characters, as code point ranges in ascending order. -/
def blankRanges : List (Nat × Nat) := [
  (9, 13), (28, 32), (133, 133), (160, 160), (5760, 5760), (8192, 8202), (8232, 8233),
  (8239, 8239), (8287, 8287), (12288, 12288)]

/-- A character that trimming removes. -/
def isBlank (c : Char) : Bool := covers blankRanges c

/-- Whether trimming would leave nothing of the text. -/
def isBlankText (text : List Char) : Bool := text.all isBlank

/-- The text without the blank characters at its end. -/
def trimEnd (text : List Char) : List Char := (text.reverse.dropWhile isBlank).reverse

/-- The text without the blank characters at its two ends. -/
def trim (text : List Char) : List Char := trimEnd (text.dropWhile isBlank)

theorem isBlank_space : isBlank ' ' = true := by decide

/-- Every white space character of the standard library is blank. -/
theorem isBlank_of_isWhitespace {c : Char} (h : c.isWhitespace = true) : isBlank c = true := by
  simp only [Char.isWhitespace, Bool.or_eq_true, decide_eq_true_eq] at h
  rcases h with ((h | h) | h) | h <;> subst h <;> decide

end CommBindings.Text
