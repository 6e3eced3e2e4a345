/-!
# Words in bytes

Unsigned words with the least significant byte first. Reading the bytes of a word that fits its
width gives the word back.
-/
namespace PageBuild.Frame

/-- The bytes of a word, least significant first. -/
def wordBytes : Nat → Nat → List UInt8
  | 0, _ => []
  | width + 1, value => (value % 256).toUInt8 :: wordBytes width (value / 256)

/-- The word of bytes, least significant first. -/
def wordOf : List UInt8 → Nat
  | [] => 0
  | byte :: rest => byte.toNat + 256 * wordOf rest

/-- A word takes as many bytes as it is wide. -/
@[simp]
theorem length_wordBytes (width value : Nat) : (wordBytes width value).length = width := by
  induction width generalizing value with
  | zero => rfl
  | succ width ih => simp [wordBytes, ih]

/-- A word that fits its width is read back. -/
theorem wordOf_wordBytes {width value : Nat} (fits : value < Nat.pow 256 width) :
    wordOf (wordBytes width value) = value := by
  induction width generalizing value with
  | zero =>
    have none : value < 1 := fits
    simp only [wordBytes, wordOf]
    omega
  | succ width ih =>
    have rest : value / 256 < Nat.pow 256 width := by
      have grown : value < Nat.pow 256 width * 256 := fits
      exact Nat.div_lt_of_lt_mul (by omega)
    have low : ((value % 256).toUInt8).toNat = value % 256 := by
      simp
    simp only [wordBytes, wordOf, ih rest, low]
    omega

end PageBuild.Frame
