import CommBindings.Text.Blank

set_option autoImplicit false

/-! # Wrapping text

A text is broken into lines at runs of spaces, filling each line as far as its width allows. A
word is never split, so a word longer than the width has a line of its own. White space between
words is kept inside a line and dropped where a line ends.
-/

namespace CommBindings.Text

/-- The six ASCII white space characters, at which words end. -/
def isSeparator (c : Char) : Bool :=
  c = ' ' || c = '\t' || c = '\n' || c = '\x0b' || c = '\x0c' || c = '\r'

/-- Spaces in place of tabs, up to the next column that is a multiple of eight, and in place of
each other separator. Columns are counted from the last line feed or carriage return. -/
def spaced (column : Nat) : List Char → List Char
  | [] => []
  | c :: rest =>
    if c = '\t' then
      let gap := 8 - column % 8
      List.replicate gap ' ' ++ spaced (column + gap) rest
    else if c = '\n' || c = '\r' then ' ' :: spaced 0 rest
    else if isSeparator c then ' ' :: spaced (column + 1) rest
    else c :: spaced (column + 1) rest

/-- The maximal runs of spaces and of other characters, in order. -/
def chunks (text : List Char) : List (List Char) :=
  text.splitBy fun a b => (a == ' ') == (b == ' ')

/-- The chunks that fit on a line on which `used` characters are taken, and the others. -/
def fill (width : Nat) : Nat → List (List Char) → List (List Char) × List (List Char)
  | _, [] => ([], [])
  | used, chunk :: rest =>
    if used + chunk.length ≤ width then
      let (line, left) := fill width (used + chunk.length) rest
      (chunk :: line, left)
    else ([], chunk :: rest)

/-- The chunks of one line and the others: as many as fit, but at least one. -/
def takeLine (width : Nat) (text : List (List Char)) : List (List Char) × List (List Char) :=
  match fill width 0 text with
  | ([], chunk :: rest) => ([chunk], rest)
  | split => split

/-- The line without a blank chunk at its end. -/
def dropTrailingBlank (line : List (List Char)) : List (List Char) :=
  match line.getLast? with
  | some chunk => if isBlankText chunk then line.dropLast else line
  | none => line

/-- The chunks without a blank one at their head. -/
def dropLeadingBlank : List (List Char) → List (List Char)
  | [] => []
  | chunk :: rest => if isBlankText chunk then rest else chunk :: rest

theorem length_fill_le (width : Nat) (text : List (List Char)) (used : Nat) :
    (fill width used text).2.length ≤ text.length := by
  induction text generalizing used with
  | nil => simp [fill]
  | cons chunk rest ih =>
    rw [fill]
    split
    · exact Nat.le_succ_of_le (ih _)
    · simp

theorem length_takeLine_lt (width : Nat) (chunk : List Char) (rest : List (List Char)) :
    (takeLine width (chunk :: rest)).2.length < (chunk :: rest).length := by
  unfold takeLine
  by_cases h : 0 + chunk.length ≤ width
  · have := length_fill_le width rest (0 + chunk.length)
    simp only [fill, h, if_true]
    simp only [List.length_cons]
    omega
  · have tooLong : ¬ chunk.length ≤ width := by omega
    simp [fill, tooLong]

theorem length_dropLeadingBlank_le (text : List (List Char)) :
    (dropLeadingBlank text).length ≤ text.length := by
  cases text with
  | nil => simp [dropLeadingBlank]
  | cons chunk rest =>
    rw [dropLeadingBlank]
    split <;> simp

/-- The lines after the first: a blank chunk at the head of a line is dropped, and so is one at
its end; a line with nothing left is not kept. -/
def laterLines (width : Nat) (text : List (List Char)) : List (List Char) :=
  match _h : dropLeadingBlank text with
  | [] => []
  | chunk :: rest =>
    let line := dropTrailingBlank (takeLine width (chunk :: rest)).1
    let others := laterLines width (takeLine width (chunk :: rest)).2
    if line.isEmpty then others else line.flatten :: others
termination_by text.length
decreasing_by
  have before := length_dropLeadingBlank_le text
  have after := length_takeLine_lt width chunk rest
  rw [_h] at before
  omega

/-- All lines. As long as no line is kept, a blank chunk at the head of the text stays. -/
def linesOf (width : Nat) : List (List Char) → List (List Char)
  | [] => []
  | chunk :: rest =>
    let line := dropTrailingBlank (takeLine width (chunk :: rest)).1
    if line.isEmpty then linesOf width (takeLine width (chunk :: rest)).2
    else line.flatten :: laterLines width (takeLine width (chunk :: rest)).2
termination_by text => text.length
decreasing_by exact length_takeLine_lt width chunk rest

/-- The lines of a text, each at most `width` characters long unless it is a single word. A text
without words has one empty line. -/
def wrap (width : Nat) (text : String) : List String :=
  match linesOf width (chunks (spaced 0 text.toList)) with
  | [] => [""]
  | lines => lines.map String.ofList

/-- The lines of a text, if the width leaves room for any. -/
def wrap? (width : Int) (text : String) : Option (List String) :=
  if 0 < width then some (wrap width.toNat text) else none

end CommBindings.Text
