import CommBindings.Number.Numeral
import CommBindings.Target.Basic
import CommBindings.Text.Quoted
import Mathlib

set_option autoImplicit false

/-! # String literals of the targets

Each target has rules of its own for string literals: which characters stand for themselves, what
follows a backslash, and what may not stand between the quotes at all. A literal is read from its
opening quote on, one *piece* at a time, up to the closing quote, which has to be the last
character (`LiteralRules.read`). What it denotes is a string of the target: UTF-16 units in
TypeScript, code points in Rust and Python.

The quoted forms of a text are read against these rules (`quoted_denotes`). A line end is written
raw in TypeScript, where it breaks the literal off. The escapes of the plain form are those of JSON;
Rust does not know most of them, and in Python the two halves of a surrogate pair stay apart.
-/

namespace CommBindings

open Text

/-! ## Reading a literal -/

/-- What a part of a literal denotes, and how many characters it takes after the first. -/
structure Piece where
  values : List Nat
  length : Nat
  deriving Repr, DecidableEq

/-- The rules for the string literals of a language: the quote around them, and the piece that a
character begins before those after it, if it may begin one. -/
structure LiteralRules where
  quote : Char
  piece? : Char → List Char → Option Piece

namespace LiteralRules

/-- What the characters after the opening quote denote. The closing quote has to be the last. -/
def readBody (rules : LiteralRules) : List Char → Option (List Nat)
  | [] => none
  | c :: rest =>
    if c = rules.quote then if rest.isEmpty then some [] else none
    else
      match rules.piece? c rest with
      | none => none
      | some piece => (rules.readBody (rest.drop piece.length)).map (piece.values ++ ·)
termination_by text => text.length
decreasing_by
  simp only [List.length_drop, List.length_cons]
  omega

/-- What a text denotes that is one literal. -/
def read (rules : LiteralRules) (literal : String) : Option (List Nat) :=
  match literal.toList with
  | [] => none
  | c :: rest => if c = rules.quote then rules.readBody rest else none

end LiteralRules

/-! ## The values of characters -/

/-- The UTF-16 units of a code point. -/
def units16 (code : Nat) : List Nat :=
  if code < 0x10000 then [code]
  else [0xD800 + (code - 0x10000) / 0x400, 0xDC00 + (code - 0x10000) % 0x400]

/-- The number that is written by as many hexadecimal digits at the head of a text. -/
def hexCode? (width : Nat) (text : List Char) : Option Nat :=
  if width ≤ text.length then
    (Numeral.plainDigits? 16 (text.take width)).map (Numeral.ofDigits 16)
  else none

/-- The number that is written in braces at the head of a text, with the number of characters that
it takes. Low lines between the digits are for the caller to take out or to refuse. -/
def bracedCode? (digitsOf : List Char → Option (List Nat)) : List Char → Option (Nat × Nat)
  | '{' :: rest =>
    let inside := rest.takeWhile fun c => c ≠ '}'
    if inside.length < rest.length then
      (digitsOf inside).map fun digits => (Numeral.ofDigits 16 digits, inside.length + 2)
    else none
  | _ => none

/-- The largest code point. -/
def maxCode : Nat := 0x10FFFF

/-- The digits of a number if there is one at least. -/
def someDigits? (base : Nat) (text : List Char) : Option (List Nat) :=
  (Numeral.plainDigits? base text).filter fun digits => !digits.isEmpty

/-! ## TypeScript

The rules are those of a module: octal escapes are errors there. The two line separators of Unicode
may stand in a literal, but a line feed or a carriage return may not. -/

namespace TypeScript

/-- The letters after a backslash that stand for a control character. -/
def letterEscapes : List (Char × Nat) :=
  [('b', 8), ('t', 9), ('n', 10), ('v', 11), ('f', 12), ('r', 13)]

/-- The piece that begins with a backslash before the given characters. What has no meaning after a
backslash stands for itself. -/
def escape? : List Char → Option Piece
  | [] => none
  | c :: rest =>
    if c = 'x' then (hexCode? 2 rest).map fun code => ⟨[code], 3⟩
    else if c = 'u' then
      match hexCode? 4 rest with
      | some code => some ⟨[code], 5⟩
      | none =>
        (bracedCode? (someDigits? 16) rest).bind fun (code, length) =>
          if code ≤ maxCode then some ⟨units16 code, length + 1⟩ else none
    else if c = '0' then
      if rest.head?.any Numeral.isDecimal then none else some ⟨[0], 1⟩
    else if Numeral.isDecimal c then none
    else if c = '\r' then some ⟨[], if rest.head? = some '\n' then 2 else 1⟩
    else if c = '\n' || c = '\u2028' || c = '\u2029' then some ⟨[], 1⟩
    else
      match letterEscapes.lookup c with
      | some code => some ⟨[code], 1⟩
      | none => some ⟨units16 c.toNat, 1⟩

/-- The rules for literals between single quotes. -/
def literalRules : LiteralRules where
  quote := '\''
  piece? c rest :=
    if c = '\\' then escape? rest
    else if c = '\n' || c = '\r' then none
    else some ⟨units16 c.toNat, 0⟩

end TypeScript

/-! ## Rust -/

namespace Rust

/-- The characters after a backslash that stand for one character. -/
def shortEscapes : List (Char × Nat) :=
  [('n', 10), ('r', 13), ('t', 9), ('\\', 92), ('0', 0), ('\'', 39), ('"', 34)]

/-- The digits of a code in braces: six at most, and a low line may follow a digit. -/
def codeDigits? (text : List Char) : Option (List Nat) :=
  if text.head? = some '_' then none
  else (someDigits? 16 (text.filter fun c => c ≠ '_')).filter fun digits => digits.length ≤ 6

/-- Half of a surrogate pair, which is no character. -/
def isHalf (code : Nat) : Bool := 0xD800 ≤ code && code ≤ 0xDFFF

/-- A character that is passed over after a line end with a backslash. -/
def isPassedOver (c : Char) : Bool := c = ' ' || c = '\n' || c = '\r' || c = '\t'

/-- The piece that begins with a backslash before the given characters. -/
def escape? : List Char → Option Piece
  | [] => none
  | c :: rest =>
    if c = 'x' then
      (hexCode? 2 rest).bind fun code => if code < 128 then some ⟨[code], 3⟩ else none
    else if c = 'u' then
      (bracedCode? codeDigits? rest).bind fun (code, length) =>
        if code ≤ maxCode && !isHalf code then some ⟨[code], length + 1⟩ else none
    else if c = '\n' || (c = '\r' && rest.head? = some '\n') then
      some ⟨[], 1 + (rest.takeWhile isPassedOver).length⟩
    else (shortEscapes.lookup c).map fun code => ⟨[code], 1⟩

/-- The rules for literals between double quotes. A line end is a line feed also where a carriage
return stands before it; alone, that may not stand there. -/
def literalRules : LiteralRules where
  quote := '"'
  piece? c rest :=
    if c = '\\' then escape? rest
    else if c = '\r' then if rest.head? = some '\n' then some ⟨[10], 1⟩ else none
    else some ⟨[c.toNat], 0⟩

end Rust

/-! ## Python -/

namespace Python

/-- The characters after a backslash that stand for one character. -/
def shortEscapes : List (Char × Nat) :=
  [('\\', 92), ('\'', 39), ('"', 34), ('a', 7), ('b', 8), ('f', 12), ('n', 10), ('r', 13),
    ('t', 9), ('v', 11)]

/-- An octal digit. -/
def isOctal (c : Char) : Bool := '0' ≤ c && c ≤ '7'

/-- The piece that begins with a backslash before the given characters. Escapes by the name of a
character are not read here. What has no meaning after a backslash is kept together with it. -/
def escape? : List Char → Option Piece
  | [] => none
  | c :: rest =>
    if c = 'x' then (hexCode? 2 rest).map fun code => ⟨[code], 3⟩
    else if c = 'u' then (hexCode? 4 rest).map fun code => ⟨[code], 5⟩
    else if c = 'U' then
      (hexCode? 8 rest).bind fun code => if code ≤ maxCode then some ⟨[code], 9⟩ else none
    else if c = 'N' || c = '\x00' then none
    else if isOctal c then
      let digits := c :: (rest.take 2).takeWhile isOctal
      (Numeral.plainDigits? 8 digits).map fun values =>
        ⟨[Numeral.ofDigits 8 values], digits.length⟩
    else if c = '\r' then some ⟨[], if rest.head? = some '\n' then 2 else 1⟩
    else if c = '\n' then some ⟨[], 1⟩
    else
      match shortEscapes.lookup c with
      | some code => some ⟨[code], 1⟩
      | none => some ⟨[92, c.toNat], 1⟩

/-- The rules for literals between double quotes, one on each side. -/
def literalRules : LiteralRules where
  quote := '"'
  piece? c rest :=
    if c = '\\' then escape? rest
    else if c = '\n' || c = '\r' || c = '\x00' then none
    else some ⟨[c.toNat], 0⟩

end Python

/-! ## Literals of the targets -/

namespace Target

/-- The rules for the string literals of a target. -/
def literalRules : Target → LiteralRules
  | typeScript => TypeScript.literalRules
  | rust => Rust.literalRules
  | python => Python.literalRules

/-- The literal for a text. -/
def quoted (target : Target) (text : String) : String :=
  match target with
  | typeScript => Quoted.single text
  | rust | python => Quoted.plain text

/-- The string of a target that is a text: its UTF-16 units or its code points. -/
def stringOf (target : Target) (text : String) : List Nat :=
  match target with
  | typeScript => text.toList.flatMap fun c => units16 c.toNat
  | rust | python => text.toList.map Char.toNat

/-- Whether the literal for a text that holds the character can denote the text: there is no line
end in TypeScript, no escape by a code in Rust, and no surrogate pair in Python. -/
def carries (target : Target) (c : Char) : Bool :=
  match target with
  | typeScript => c ≠ '\n' && c ≠ '\r'
  | rust => (32 ≤ c.toNat && c.toNat ≤ 126) || c = '\n' || c = '\r' || c = '\t'
  | python => c.toNat < 0x10000

end Target

/-! ## Reading piece by piece -/

namespace LiteralRules

variable {rules : LiteralRules}

/-- The text is read as the values, whatever comes after it. -/
def Denotes (rules : LiteralRules) (text : List Char) (values : List Nat) : Prop :=
  ∀ rest, rules.readBody (text ++ rest) = (rules.readBody rest).map (values ++ ·)

/-- The text cannot be read, whatever comes after it. -/
def Breaks (rules : LiteralRules) (text : List Char) : Prop :=
  ∀ rest, rules.readBody (text ++ rest) = none

theorem readBody_cons {c : Char} (hQuote : c ≠ rules.quote) (rest : List Char) :
    rules.readBody (c :: rest) =
      match rules.piece? c rest with
      | none => none
      | some piece => (rules.readBody (rest.drop piece.length)).map (piece.values ++ ·) := by
  rw [readBody, if_neg hQuote]

/-- A piece that takes the whole text denotes its values. -/
theorem denotes_of_piece {c : Char} {text : List Char} {values : List Nat}
    (hQuote : c ≠ rules.quote)
    (hPiece : ∀ rest, rules.piece? c (text ++ rest) = some ⟨values, text.length⟩) :
    rules.Denotes (c :: text) values := by
  intro rest
  have hRead := readBody_cons hQuote (text ++ rest)
  rw [hPiece rest] at hRead
  simp only [List.drop_left] at hRead
  exact hRead

theorem breaks_of_piece {c : Char} {text : List Char} (hQuote : c ≠ rules.quote)
    (hPiece : ∀ rest, rules.piece? c (text ++ rest) = none) : rules.Breaks (c :: text) := by
  intro rest
  have hRead := readBody_cons hQuote (text ++ rest)
  rw [hPiece rest] at hRead
  exact hRead

theorem Denotes.append {text text' : List Char} {values values' : List Nat}
    (h : rules.Denotes text values) (h' : rules.Denotes text' values') :
    rules.Denotes (text ++ text') (values ++ values') := by
  intro rest
  rw [List.append_assoc, h, h', Option.map_map]
  congr 1
  funext more
  exact (List.append_assoc values values' more).symm

/-- A literal that is written character by character is read character by character, up to the first
one that cannot be read. -/
theorem readBody_written {write : Char → List Char} {carries : Char → Bool}
    {values : Char → List Nat}
    (hReads : ∀ c, carries c = true → rules.Denotes (write c) (values c))
    (hBreaks : ∀ c, carries c = false → rules.Breaks (write c)) (text : List Char) :
    rules.readBody (text.flatMap write ++ [rules.quote]) =
      if text.all carries then some (text.flatMap values) else none := by
  induction text with
  | nil =>
      show rules.readBody [rules.quote] = some []
      rw [readBody]
      simp
  | cons c text ih =>
      rw [List.flatMap_cons, List.append_assoc, List.all_cons]
      cases hCarries : carries c with
      | true =>
          rw [hReads c hCarries, ih, Bool.true_and]
          split
          · rfl
          · rfl
      | false =>
          rw [hBreaks c hCarries, Bool.false_and]
          rfl

end LiteralRules

/-! ## Hexadecimal codes -/

theorem digitBelow?_hexDigit :
    ∀ d < 16, Numeral.digitBelow? 16 (Quoted.hexDigit d) = some d := by decide

theorem length_hexDigits (width n : Nat) : (Quoted.hexDigits width n).length = width := by
  induction width generalizing n with
  | zero => rfl
  | succ width ih => rw [Quoted.hexDigits, List.length_append, ih, List.length_singleton]

theorem plainDigits?_hexDigits (width n : Nat) :
    (Numeral.plainDigits? 16 (Quoted.hexDigits width n)).map (Numeral.ofDigits 16) =
      some (n % 16 ^ width) := by
  -- the last digit is the remainder, and the others are the digits of the quotient
  induction width generalizing n with
  | zero =>
      rw [Nat.pow_zero, Nat.mod_one]
      rfl
  | succ width ih =>
      obtain ⟨digits, hDigits, hValue⟩ := Option.map_eq_some_iff.mp (ih (n / 16))
      have hLast := digitBelow?_hexDigit (n % 16) (Nat.mod_lt n (by decide))
      have hAll : Numeral.plainDigits? 16 (Quoted.hexDigits (width + 1) n) =
          some (digits ++ [n % 16]) := by
        rw [Numeral.plainDigits?] at hDigits ⊢
        rw [Quoted.hexDigits, List.mapM_append, hDigits]
        simp [hLast]
      have hNumber : n % 16 ^ (width + 1) = n / 16 % 16 ^ width * 16 + n % 16 := by
        rw [Nat.pow_succ, Nat.mul_comm (16 ^ width), Nat.mod_mul]
        omega
      rw [hAll, Option.map_some, hNumber, ← hValue, Numeral.ofDigits, List.foldl_append]
      rfl

/-- The digits of a number are read back where they suffice for it. -/
theorem hexCode?_hexDigits {width n : Nat} (h : n < 16 ^ width) (rest : List Char) :
    hexCode? width (Quoted.hexDigits width n ++ rest) = some n := by
  have hLength : width ≤ (Quoted.hexDigits width n ++ rest).length := by
    rw [List.length_append, length_hexDigits]
    omega
  have hTake : (Quoted.hexDigits width n ++ rest).take width = Quoted.hexDigits width n := by
    rw [List.take_left' (length_hexDigits width n)]
  rw [hexCode?, if_pos hLength, hTake, plainDigits?_hexDigits, Nat.mod_eq_of_lt h]

/-! ## TypeScript -/

namespace TypeScript

theorem denotes_singleChar {c : Char} (h : Target.typeScript.carries c = true) :
    literalRules.Denotes (Quoted.singleChar c) (units16 c.toNat) := by
  unfold Quoted.singleChar
  by_cases hBackslash : c = '\\'
  · subst hBackslash
    exact LiteralRules.denotes_of_piece (by decide) fun rest => rfl
  by_cases hQuote : c = '\''
  · subst hQuote
    exact LiteralRules.denotes_of_piece (by decide) fun rest => rfl
  rw [if_neg hBackslash, if_neg hQuote]
  refine LiteralRules.denotes_of_piece hQuote fun rest => ?_
  have hLine : (c = '\n' || c = '\r') = false := by
    simpa [Target.carries] using h
  show (if c = '\\' then _ else if (c = '\n' || c = '\r') = true then none else _) = _
  rw [if_neg hBackslash, hLine]
  rfl

/-- A line end breaks the literal off. -/
theorem breaks_singleChar {c : Char} (h : Target.typeScript.carries c = false) :
    literalRules.Breaks (Quoted.singleChar c) := by
  have hLine : c = '\n' ∨ c = '\r' := by
    by_contra hNone
    simp [Target.carries, not_or.mp hNone] at h
  rcases hLine with rfl | rfl
  · exact LiteralRules.breaks_of_piece (by decide) fun rest => rfl
  · exact LiteralRules.breaks_of_piece (by decide) fun rest => rfl

theorem read_single (text : String) :
    literalRules.read (Quoted.single text) =
      if text.toList.all Target.typeScript.carries then some (Target.typeScript.stringOf text)
      else none := by
  rw [LiteralRules.read, Quoted.single, String.toList_ofList]
  exact LiteralRules.readBody_written (fun c => denotes_singleChar) (fun c => breaks_singleChar)
    text.toList

end TypeScript

/-! ## The plain form of a character -/

/-- The escapes of one letter in the plain form. -/
def shortForms : List (Char × Char) :=
  [('"', '"'), ('\\', '\\'), ('\n', 'n'), ('\r', 'r'), ('\t', 't'), ('\x0c', 'f'), ('\x08', 'b')]

/-- The ways in which the plain form writes a character. -/
inductive IsPlainForm (c : Char) : List Char → Prop where
  | short {letter : Char} (h : (c, letter) ∈ shortForms) : IsPlainForm c ['\\', letter]
  | self (hPrintable : 32 ≤ c.toNat ∧ c.toNat ≤ 126) (hQuote : c ≠ '"') (hBackslash : c ≠ '\\') :
    IsPlainForm c [c]
  | unit (hSmall : c.toNat < 0x10000) (hOther : Target.rust.carries c = false) :
    IsPlainForm c (Quoted.unitEscape c.toNat)
  | pair (hLarge : 0x10000 ≤ c.toNat) :
    IsPlainForm c (Quoted.unitEscape (0xD800 + (c.toNat - 0x10000) / 0x400) ++
      Quoted.unitEscape (0xDC00 + (c.toNat - 0x10000) % 0x400))

theorem isPlainForm (c : Char) : IsPlainForm c (Quoted.plainChar c) := by
  by_cases hShort : ∃ letter, (c, letter) ∈ shortForms
  · obtain ⟨letter, hMem⟩ := hShort
    have hForm : ∀ form ∈ shortForms, Quoted.plainChar form.1 = ['\\', form.2] := by decide
    rw [hForm _ hMem]
    exact .short hMem
  · have hNot : ∀ form ∈ shortForms, c ≠ form.1 := by
      intro form hForm hSame
      exact hShort ⟨form.2, hSame ▸ hForm⟩
    simp only [shortForms, List.forall_mem_cons] at hNot
    obtain ⟨hQuote, hBackslash, hFeed, hReturn, hTab, hPage, hBack, -⟩ := hNot
    unfold Quoted.plainChar
    rw [if_neg hQuote, if_neg hBackslash, if_neg hFeed, if_neg hReturn, if_neg hTab, if_neg hPage,
      if_neg hBack]
    split
    · next hPrintable =>
      rw [Bool.and_eq_true, decide_eq_true_eq, decide_eq_true_eq] at hPrintable
      exact .self hPrintable hQuote hBackslash
    · next hPrintable =>
      split
      · next hSmall =>
        refine .unit hSmall ?_
        simp only [Target.carries, hFeed, hReturn, hTab, decide_false, Bool.or_false]
        exact Bool.eq_false_iff.mpr hPrintable
      · next hLarge => exact .pair (Nat.le_of_not_lt hLarge)

theorem toNat_le_maxCode (c : Char) : c.toNat ≤ maxCode := by
  have hValid : c.toNat < 0xD800 ∨ 0xDFFF < c.toNat ∧ c.toNat < 0x110000 := c.valid
  unfold maxCode
  omega

/-- No digit of a code opens braces. -/
theorem hexDigit_ne_brace : ∀ d < 16, Quoted.hexDigit d ≠ '{' := by decide

/-- The four digits of a unit. -/
theorem hexDigits_four (n : Nat) :
    ∃ digits, Quoted.hexDigits 4 n = Quoted.hexDigit (n / 16 / 16 / 16 % 16) :: digits :=
  ⟨_, rfl⟩

/-! ## Rust -/

namespace Rust

/-- A code has to stand in braces. -/
theorem breaks_unitEscape (unit : Nat) (text : List Char) :
    literalRules.Breaks (Quoted.unitEscape unit ++ text) := by
  obtain ⟨digits, hDigits⟩ := hexDigits_four unit
  have hBrace := hexDigit_ne_brace (unit / 16 / 16 / 16 % 16) (Nat.mod_lt _ (by decide))
  rw [Quoted.unitEscape, hDigits]
  refine LiteralRules.breaks_of_piece (by decide) fun rest => ?_
  have hNoCode : ∀ more, bracedCode? codeDigits?
      (Quoted.hexDigit (unit / 16 / 16 / 16 % 16) :: more) = none := by
    intro more
    unfold bracedCode?
    split
    · next hOpen => exact absurd (List.cons.inj hOpen).1 hBrace
    · rfl
  show (bracedCode? codeDigits?
    (Quoted.hexDigit (unit / 16 / 16 / 16 % 16) :: (digits ++ text ++ rest))).bind _ = none
  rw [hNoCode]
  rfl

theorem denotes_form {c : Char} {form : List Char} (hForm : IsPlainForm c form)
    (h : Target.rust.carries c = true) : literalRules.Denotes form [c.toNat] := by
  cases hForm with
  | @short letter hMem =>
      -- the escapes of a page break and of a backspace are unknown, and these are not carried
      have hEach : ∀ short ∈ shortForms, Target.rust.carries short.1 = true →
          shortEscapes.lookup short.2 = some short.1.toNat ∧
            short.2 ∉ ['x', 'u', '\n', '\r'] := by decide
      obtain ⟨hLookup, hPlain⟩ := hEach _ hMem h
      simp only [List.mem_cons, List.not_mem_nil, or_false, not_or] at hPlain
      obtain ⟨hByte, hCode, hFeed, hReturn⟩ := hPlain
      refine LiteralRules.denotes_of_piece (by decide) fun rest => ?_
      show escape? (letter :: rest) = _
      simp [escape?, hByte, hCode, hFeed, hReturn, hLookup]
  | self hPrintable hQuote hBackslash =>
      refine LiteralRules.denotes_of_piece hQuote fun rest => ?_
      have hReturn : c ≠ '\r' := by
        rintro rfl
        exact absurd hPrintable (by decide)
      show (if c = '\\' then _ else if c = '\r' then _ else _) = _
      rw [if_neg hBackslash, if_neg hReturn]
      rfl
  | unit hSmall hOther =>
      rw [h] at hOther
      cases hOther
  | pair hLarge =>
      exfalso
      have hFar : ∀ d : Char, d.toNat < 0x10000 → c ≠ d := by
        rintro d hd rfl
        exact absurd hd (Nat.not_lt.mpr hLarge)
      have hPrintable : ¬ c.toNat ≤ 126 := by omega
      simp [Target.carries, hPrintable, hFar '\n' (by decide), hFar '\r' (by decide),
        hFar '\t' (by decide)] at h

theorem breaks_form {c : Char} {form : List Char} (hForm : IsPlainForm c form)
    (h : Target.rust.carries c = false) : literalRules.Breaks form := by
  cases hForm with
  | @short letter hMem =>
      have hEach : ∀ short ∈ shortForms, Target.rust.carries short.1 = false →
          shortEscapes.lookup short.2 = none ∧ short.2 ∉ ['x', 'u', '\n', '\r'] := by decide
      obtain ⟨hLookup, hPlain⟩ := hEach _ hMem h
      simp only [List.mem_cons, List.not_mem_nil, or_false, not_or] at hPlain
      obtain ⟨hByte, hCode, hFeed, hReturn⟩ := hPlain
      refine LiteralRules.breaks_of_piece (by decide) fun rest => ?_
      show escape? (letter :: rest) = none
      simp [escape?, hByte, hCode, hFeed, hReturn, hLookup]
  | self hPrintable hQuote hBackslash =>
      simp [Target.carries, hPrintable.1, hPrintable.2] at h
  | unit hSmall hOther =>
      have hAlone := breaks_unitEscape c.toNat []
      rwa [List.append_nil] at hAlone
  | pair hLarge => exact breaks_unitEscape _ _

theorem read_plain (text : String) :
    literalRules.read (Quoted.plain text) =
      if text.toList.all Target.rust.carries then some (Target.rust.stringOf text) else none := by
  rw [LiteralRules.read, Quoted.plain, String.toList_ofList, Target.stringOf,
    List.map_eq_flatMap]
  exact LiteralRules.readBody_written (fun c => denotes_form (isPlainForm c))
    (fun c => breaks_form (isPlainForm c)) text.toList

end Rust

/-! ## Python -/

namespace Python

theorem denotes_unitEscape {unit : Nat} (h : unit < 0x10000) :
    literalRules.Denotes (Quoted.unitEscape unit) [unit] := by
  refine LiteralRules.denotes_of_piece (by decide) fun rest => ?_
  show (hexCode? 4 (Quoted.hexDigits 4 unit ++ rest)).map _ = _
  rw [hexCode?_hexDigits h]
  rfl

/-- Whatever form a character has, it is read as its UTF-16 units. -/
theorem denotes_plain {c : Char} {form : List Char} (hForm : IsPlainForm c form) :
    literalRules.Denotes form (units16 c.toNat) := by
  cases hForm with
  | @short letter hMem =>
      have hEach : ∀ short ∈ shortForms, units16 short.1.toNat = [short.1.toNat] ∧
          shortEscapes.lookup short.2 = some short.1.toNat ∧ isOctal short.2 = false ∧
          short.2 ∉ ['x', 'u', 'U', 'N', '\x00', '\n', '\r'] := by decide
      obtain ⟨hUnits, hLookup, hOctal, hPlain⟩ := hEach _ hMem
      simp only [List.mem_cons, List.not_mem_nil, or_false, not_or] at hPlain
      obtain ⟨hByte, hCode, hLong, hName, hNul, hFeed, hReturn⟩ := hPlain
      rw [hUnits]
      refine LiteralRules.denotes_of_piece (by decide) fun rest => ?_
      show escape? (letter :: rest) = _
      simp [escape?, hByte, hCode, hLong, hName, hNul, hFeed, hReturn, hOctal, hLookup]
  | self hPrintable hQuote hBackslash =>
      have hUnits : units16 c.toNat = [c.toNat] := if_pos (by omega)
      rw [hUnits]
      refine LiteralRules.denotes_of_piece hQuote fun rest => ?_
      have hOther : ∀ d : Char, d.toNat < 32 → c ≠ d := by
        rintro d hd rfl
        omega
      show (if c = '\\' then _ else if (c = '\n' || c = '\r' || c = '\x00') = true then none
        else _) = _
      rw [if_neg hBackslash]
      simp [hOther '\n' (by decide), hOther '\r' (by decide), hOther '\x00' (by decide)]
  | unit hSmall hOther =>
      have hUnits : units16 c.toNat = [c.toNat] := if_pos hSmall
      rw [hUnits]
      exact denotes_unitEscape hSmall
  | pair hLarge =>
      have hCode := toNat_le_maxCode c
      unfold maxCode at hCode
      have hUnits : units16 c.toNat = [0xD800 + (c.toNat - 0x10000) / 0x400] ++
          [0xDC00 + (c.toNat - 0x10000) % 0x400] := if_neg (by omega)
      rw [hUnits]
      exact (denotes_unitEscape (by omega)).append (denotes_unitEscape (by omega))

theorem read_plain (text : String) :
    literalRules.read (Quoted.plain text) = some (Target.typeScript.stringOf text) := by
  -- all characters are carried
  let carries : Char → Bool := fun _ => true
  have hReads : ∀ c, carries c = true →
      literalRules.Denotes (Quoted.plainChar c) (units16 c.toNat) :=
    fun c _ => denotes_plain (isPlainForm c)
  have hRead := LiteralRules.readBody_written hReads (fun c h => by cases h) text.toList
  rw [List.all_eq_true.mpr fun c _ => rfl, if_pos rfl] at hRead
  rw [LiteralRules.read, Quoted.plain, String.toList_ofList]
  exact hRead

end Python

/-! ## The three literals -/

theorem units16_eq_singleton_iff {code : Nat} : units16 code = [code] ↔ code < 0x10000 := by
  unfold units16
  split
  · next h => exact iff_of_true rfl h
  · next h => exact iff_of_false (by simp) h

/-- The UTF-16 units of a text are its code points if no character needs two. -/
theorem stringOf_eq_iff (text : String) :
    Target.typeScript.stringOf text = Target.python.stringOf text ↔
      text.toList.all Target.python.carries = true := by
  unfold Target.stringOf
  generalize text.toList = chars
  induction chars with
  | nil => exact iff_of_true rfl rfl
  | cons c chars ih =>
      rw [List.flatMap_cons, List.map_cons, List.all_cons, Bool.and_eq_true, ← ih]
      by_cases hSmall : c.toNat < 0x10000
      · rw [units16_eq_singleton_iff.mpr hSmall, List.singleton_append, List.cons.injEq]
        have hCarries : Target.python.carries c = true := decide_eq_true hSmall
        exact and_congr_left' (iff_of_true rfl hCarries)
      · -- the first unit is not the code point, which is larger
        have hUnits : units16 c.toNat = _ := if_neg hSmall
        have hCode := toNat_le_maxCode c
        unfold maxCode at hCode
        rw [hUnits, List.cons_append, List.cons.injEq]
        refine iff_of_false (fun h => ?_) (fun h => hSmall (of_decide_eq_true h.1))
        have hFirst := h.1
        omega

/-- **What the literals for a text denote.** In TypeScript and in Rust the literal denotes the text
if all of its characters are carried, and else it is no literal. In Python it always is one, and
denotes the UTF-16 units of the text. So a literal denotes its text exactly if its target carries
all of the characters. -/
theorem quoted_denotes (text : String) :
    Target.typeScript.literalRules.read (Target.typeScript.quoted text) =
        (if text.toList.all Target.typeScript.carries then some (Target.typeScript.stringOf text)
          else none) ∧
      Target.rust.literalRules.read (Target.rust.quoted text) =
        (if text.toList.all Target.rust.carries then some (Target.rust.stringOf text) else none) ∧
      Target.python.literalRules.read (Target.python.quoted text) =
        some (Target.typeScript.stringOf text) ∧
      ∀ target : Target,
        target.literalRules.read (target.quoted text) = some (target.stringOf text) ↔
          ∀ c ∈ text.toList, target.carries c = true := by
  refine ⟨TypeScript.read_single text, Rust.read_plain text, Python.read_plain text, ?_⟩
  intro target
  rw [← List.all_eq_true]
  cases target with
  | typeScript =>
      show TypeScript.literalRules.read (Quoted.single text) = _ ↔ _
      rw [TypeScript.read_single]
      simp
  | rust =>
      show Rust.literalRules.read (Quoted.plain text) = _ ↔ _
      rw [Rust.read_plain]
      simp
  | python =>
      show Python.literalRules.read (Quoted.plain text) = _ ↔ _
      rw [Python.read_plain, Option.some.injEq, stringOf_eq_iff]

/-- A line feed and a character outside of the basic plane: two of the literals cannot be read, and
the third denotes another string, of three code points. -/
theorem smiley_not_denoted :
    let text := String.ofList ['\n', Char.ofNat 0x1f600]
    Target.typeScript.literalRules.read (Target.typeScript.quoted text) = none ∧
      Target.rust.literalRules.read (Target.rust.quoted text) = none ∧
      Target.python.literalRules.read (Target.python.quoted text) =
        some [0x0a, 0xd83d, 0xde00] ∧
      Target.python.stringOf text = [0x0a, 0x1f600] := by
  refine ⟨(TypeScript.read_single _).trans ?_, (Rust.read_plain _).trans ?_,
    (Python.read_plain _).trans ?_, ?_⟩
  · decide
  · decide
  · decide
  · decide

end CommBindings
