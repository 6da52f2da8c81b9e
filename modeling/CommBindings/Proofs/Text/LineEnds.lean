import CommBindings.Text.Utf8
import Mathlib

set_option autoImplicit false

/-! # Texts that are read back

A text is stored as UTF-8 and read back with its line ends as line feeds. What is read is the text
that was stored exactly if that held no carriage return (`decodeLines_encode`,
`joinLineEnds_eq_self_iff`).
-/

namespace CommBindings.Utf8

theorem not_mem_joinLineEnds (cs : List Char) : '\r' ∉ joinLineEnds cs := by
  fun_induction joinLineEnds cs with
  | case1 rest ih => exact List.not_mem_cons_of_ne_of_not_mem (by decide) ih
  | case2 rest hNoFeed ih => exact List.not_mem_cons_of_ne_of_not_mem (by decide) ih
  | case3 c rest hNoPair hNoReturn ih =>
      refine List.not_mem_cons_of_ne_of_not_mem ?_ ih
      exact fun hReturn => hNoReturn hReturn.symm
  | case4 => exact List.not_mem_nil

theorem joinLineEnds_of_not_mem {cs : List Char} (h : '\r' ∉ cs) : joinLineEnds cs = cs := by
  fun_induction joinLineEnds cs with
  | case1 rest ih => exact absurd List.mem_cons_self h
  | case2 rest hNoFeed ih => exact absurd List.mem_cons_self h
  | case3 c rest hNoPair hNoReturn ih =>
      exact congrArg (List.cons c) (ih fun hRest => h (List.mem_cons_of_mem _ hRest))
  | case4 => rfl

theorem joinLineEnds_eq_self_iff {cs : List Char} : joinLineEnds cs = cs ↔ '\r' ∉ cs := by
  constructor
  · intro h
    rw [← h]
    exact not_mem_joinLineEnds cs
  · exact joinLineEnds_of_not_mem

theorem decode_encode (text : String) : decode (encode text) = .ok text := by
  have hValid : text.toUTF8.IsValidUTF8 := text.isValidUTF8
  have hRead : String.fromUTF8? text.toUTF8 = some text := by
    rw [String.fromUTF8?, dif_pos hValid]
    rfl
  rw [decode, encode, hRead]

/-- Bytes are decoded to a text exactly if they are what is stored for it. -/
theorem decode_eq_ok_iff {bytes : ByteArray} {text : String} :
    decode bytes = .ok text ↔ bytes = encode text := by
  constructor
  · intro h
    unfold decode String.fromUTF8? at h
    split at h
    · next found hFound =>
      split at hFound
      · cases hFound
        cases h
        rfl
      · cases hFound
    · cases h
  · rintro rfl
    exact decode_encode text

theorem encode_inj {text other : String} : encode text = encode other ↔ text = other := by
  rw [← decode_eq_ok_iff, decode_encode, Except.ok.injEq]

/-- A stored text is read back with its line ends joined. -/
theorem decodeLines_encode (text : String) :
    decodeLines (encode text) = .ok (String.ofList (joinLineEnds text.toList)) := by
  rw [decodeLines, decode_encode]
  rfl

end CommBindings.Utf8
