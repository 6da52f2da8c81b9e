import CommBindings.Text.CaseTable
import CommBindings.Text.Ranges

set_option autoImplicit false

/-! # Upper and lower case

The full case mappings of Unicode: a character may become several characters, as `ß` becomes
`SS`, and a capital sigma becomes the final form of its small letter at the end of a word.
-/

namespace CommBindings.Text

/-- The image of one character under a table of runs and sequences; a character in neither stays
as it is. -/
def mapCase (runs : List CaseRun) (sequences : List (Nat × List Nat)) (c : Char) : List Char :=
  match sequences.lookup c.toNat with
  | some codes => codes.map Char.ofNat
  | none =>
    match runs.find? (·.holds c.toNat) with
    | some run => [Char.ofNat (c.toNat + run.distance).toNat]
    | none => [c]

/-- The upper case of a character. -/
def upperOf (c : Char) : List Char := mapCase upperRuns upperSequences c

/-- The lower case of a character that stands alone. -/
def lowerOf (c : Char) : List Char := mapCase lowerRuns lowerSequences c

/-- A lower-case character. -/
def isLowercase (c : Char) : Bool := covers lowercaseRanges c

/-- A character with case, by which its neighbours tell that they stand in a word. -/
def isCased (c : Char) : Bool := covers casedRanges c

/-- A character, such as an apostrophe or an accent, that does not end a word. -/
def isCaseIgnorable (c : Char) : Bool := covers caseIgnorableRanges c

/-- The lower case of a capital sigma: `σ` inside a word and `ς` at its end. -/
def lowerSigma (afterCased : Bool) (rest : List Char) : Char :=
  let wordGoesOn := ((rest.dropWhile isCaseIgnorable).head?.map isCased).getD false
  if afterCased && !wordGoesOn then 'ς' else 'σ'

/-- Lower case of a text, where `afterCased` says that the last character before it that counts
has case. -/
def lowerFrom (afterCased : Bool) : List Char → List Char
  | [] => []
  | c :: rest =>
    let image := if c = 'Σ' then [lowerSigma afterCased rest] else lowerOf c
    image ++ lowerFrom (if isCaseIgnorable c then afterCased else isCased c) rest

/-- The text in lower case. -/
def lower (text : String) : String := String.ofList (lowerFrom false text.toList)

end CommBindings.Text
