import CommBindings.Text.Quoted

set_option autoImplicit false

/-! # UTF-8

Texts are stored as UTF-8. Where stored bytes are no UTF-8 text, the first malformed sequence is
located; it ends before the first byte that cannot continue it.
-/

namespace CommBindings.Utf8

/-- Why a sequence of bytes is malformed. -/
inductive Reason where
  | invalidStart
  | invalidContinuation
  | unexpectedEnd
  deriving Repr, DecidableEq

/-- The wording of a reason. -/
def Reason.message : Reason → String
  | invalidStart => "invalid start byte"
  | invalidContinuation => "invalid continuation byte"
  | unexpectedEnd => "unexpected end of data"

/-- A malformed sequence: its first byte, its place and its length. -/
structure Malformed where
  byte : UInt8
  position : Nat
  length : Nat
  reason : Reason
  deriving Repr, DecidableEq

/-- The text of a decoding failure. -/
def Malformed.message (m : Malformed) : String :=
  let place :=
    if m.length = 1 then
      "byte 0x" ++ String.ofList (Text.Quoted.hexDigits 2 m.byte.toNat) ++ " in position " ++
        toString m.position
    else
      "bytes in position " ++ toString m.position ++ "-" ++ toString (m.position + m.length - 1)
  "'utf-8' codec can't decode " ++ place ++ ": " ++ m.reason.message

/-- What stands at the head of a list of bytes: a character and its length in bytes, or a
malformed sequence and its length. -/
inductive Unit where
  | char (value : Char) (length : Nat)
  | malformed (length : Nat) (reason : Reason)

/-- A byte inside a sequence. -/
def isContinuation (b : UInt8) : Bool := 0x80 ≤ b && b < 0xC0

/-- Whether `second` may follow `first`. After some first bytes the range is narrower, which rules
out surrogates, too large values and sequences longer than needed. -/
def mayFollow (first second : UInt8) : Bool :=
  isContinuation second &&
    (if first = 0xE0 then 0xA0 ≤ second
      else if first = 0xED then second < 0xA0
      else if first = 0xF0 then 0x90 ≤ second
      else if first = 0xF4 then second < 0x90
      else true)

/-- The number of bytes that a first byte announces; zero for a byte that begins nothing. -/
def announced (first : UInt8) : Nat :=
  if first < 0x80 then 1
  else if first < 0xC2 then 0
  else if first < 0xE0 then 2
  else if first < 0xF0 then 3
  else if first < 0xF5 then 4
  else 0

/-- The bytes after the first that continue the sequence, as far as they are there. -/
def continuations (first : UInt8) (rest : List UInt8) : List UInt8 :=
  match rest with
  | [] => []
  | second :: more =>
    if mayFollow first second then
      second :: (more.take (announced first - 2)).takeWhile isContinuation
    else []

/-- The value of a complete sequence. -/
def sequenceValue (first : UInt8) (rest : List UInt8) : Nat :=
  let head := match rest.length with
    | 0 => first.toNat
    | 1 => first.toNat - 0xC0
    | 2 => first.toNat - 0xE0
    | _ => first.toNat - 0xF0
  rest.foldl (fun value b => value * 64 + (b.toNat - 0x80)) head

/-- Reads the sequence that begins with the given byte. -/
def readUnit (first : UInt8) (rest : List UInt8) : Unit :=
  if announced first = 0 then .malformed 1 .invalidStart
  else
    let more := if announced first = 1 then [] else continuations first rest
    if more.length + 1 = announced first then
      .char (Char.ofNat (sequenceValue first more)) (more.length + 1)
    else if more.length = rest.length then .malformed (more.length + 1) .unexpectedEnd
    else .malformed (more.length + 1) .invalidContinuation

/-- The first malformed sequence at or after a position. -/
def firstMalformed? (position : Nat) : List UInt8 → Option Malformed
  | [] => none
  | first :: rest =>
    match readUnit first rest with
    | .char _ length => firstMalformed? (position + length) (rest.drop (length - 1))
    | .malformed length reason => some ⟨first, position, length, reason⟩
termination_by bytes => bytes.length
decreasing_by simp only [List.length_cons, List.length_drop]; omega

/-- The characters of a list of bytes, with the replacement character for each malformed
sequence. -/
def lossyChars : List UInt8 → List Char
  | [] => []
  | first :: rest =>
    match readUnit first rest with
    | .char value length => value :: lossyChars (rest.drop (length - 1))
    | .malformed length _ => '\uFFFD' :: lossyChars (rest.drop (length - 1))
termination_by bytes => bytes.length
decreasing_by all_goals simp only [List.length_cons, List.length_drop]; omega

/-- The bytes of a text. -/
def encode (text : String) : ByteArray := text.toUTF8

/-- The text that the bytes encode. -/
def decode (bytes : ByteArray) : Except Malformed String :=
  match String.fromUTF8? bytes with
  | some text => .ok text
  | none =>
    .error ((firstMalformed? 0 bytes.toList).getD ⟨0, 0, bytes.size, .unexpectedEnd⟩)

/-- The text that the bytes encode, with the replacement character for what is malformed. -/
def decodeLossy (bytes : ByteArray) : String := String.ofList (lossyChars bytes.toList)

/-- The text with a line feed for each of the line ends `\r\n` and `\r`. -/
def joinLineEnds : List Char → List Char
  | '\r' :: '\n' :: rest => '\n' :: joinLineEnds rest
  | '\r' :: rest => '\n' :: joinLineEnds rest
  | c :: rest => c :: joinLineEnds rest
  | [] => []

/-- The text that the bytes encode, with its line ends read as line feeds. -/
def decodeLines (bytes : ByteArray) : Except Malformed String :=
  (decode bytes).map fun text => String.ofList (joinLineEnds text.toList)

end CommBindings.Utf8
