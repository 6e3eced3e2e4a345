import PageBuild.Frame.Cell

/-!
# Texts in bytes

The bytes of a text are UTF-8: they determine the text, none of them is `ff`, and the first of
them is never one that continues a character. The last two facts are what tells a text that stands
in its cell from its filling and from the mark of a longer one.
-/
namespace PageBuild.Frame

/-- The bytes of a text are those of its characters. -/
theorem textBytes_eq_flatMap (text : String) :
    textBytes text = text.toList.flatMap String.utf8EncodeChar := by
  have encoded : text.toByteArray = (text.toList.flatMap String.utf8EncodeChar).toByteArray := by
    conv => lhs; rw [← String.ofList_toList (s := text)]
    rfl
  rw [textBytes, String.toUTF8_eq_toByteArray, encoded, List.toList_data_toByteArray]

/-- The bytes of a text are read as the text. -/
theorem textOf?_textBytes (text : String) : textOf? (textBytes text) = some text := by
  have valid : (ByteArray.mk (textBytes text).toArray).IsValidUTF8 := text.isValidUTF8
  rw [textOf?, String.fromUTF8?, dif_pos valid]
  rfl

/-- The bytes of a character are below `f8`. -/
theorem lt_of_mem_utf8EncodeChar (char : Char) :
    ∀ byte ∈ String.utf8EncodeChar char, byte.toNat < 248 := by
  fun_cases String.utf8EncodeChar char
  all_goals
    simp only [List.forall_mem_cons, List.not_mem_nil, false_implies, implies_true, and_true,
      UInt8.toNat_ofNat']
    omega

/-- The first byte of a character does not continue one. -/
theorem starts_of_utf8EncodeChar {char : Char} {byte : UInt8} {rest : List UInt8}
    (encoded : String.utf8EncodeChar char = byte :: rest) : byte.toNat / 64 ≠ 2 := by
  revert encoded
  fun_cases String.utf8EncodeChar char
  all_goals
    intro encoded
    rw [← (List.cons.inj encoded).1, UInt8.toNat_ofNat']
    omega

/-- No byte of a text is `ff`. -/
theorem ne_filling_of_mem_textBytes {text : String} {byte : UInt8}
    (inside : byte ∈ textBytes text) : byte ≠ 255 := by
  rw [textBytes_eq_flatMap, List.mem_flatMap] at inside
  obtain ⟨char, _, inside⟩ := inside
  have below := lt_of_mem_utf8EncodeChar char byte inside
  rintro rfl
  exact absurd below (by decide)

/-- The first byte of a text does not continue a character. -/
theorem starts_of_textBytes {text : String} {byte : UInt8} {rest : List UInt8}
    (encoded : textBytes text = byte :: rest) : byte.toNat / 64 ≠ 2 := by
  rw [textBytes_eq_flatMap] at encoded
  cases chars : text.toList with
  | nil =>
    rw [chars] at encoded
    cases encoded
  | cons char tail =>
    rw [chars, List.flatMap_cons] at encoded
    cases first : String.utf8EncodeChar char with
    | nil => exact absurd first String.utf8EncodeChar_ne_nil
    | cons head others =>
      rw [first, List.cons_append] at encoded
      rw [← (List.cons.inj encoded).1]
      exact starts_of_utf8EncodeChar first

end PageBuild.Frame
