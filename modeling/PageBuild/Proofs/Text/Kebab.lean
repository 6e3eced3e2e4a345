import Mathlib.Data.List.Basic
import PageBuild.Text.Basic

/-!
# Laws of kebab case

A key without hyphens is read back from its kebab case, since every hyphen there stands before the
letter of a capital (`camelChars_flatMap_kebabChar`); so no two such keys have one kebab case. What is
in kebab case has no capital left and stays as it is.
-/
namespace PageBuild.Text

variable {c : Char} {key first second : String}

/-! ## Letters -/

/-- The capitals are a range. -/
theorem isUpper_iff : c.isUpper = true ↔ 65 ≤ c.toNat ∧ c.toNat ≤ 90 := by
  have between : c.isUpper = true ↔ 'A'.val ≤ c.val ∧ c.val ≤ 'Z'.val := decide_eq_true_iff
  rw [between]
  exact and_congr UInt32.le_iff_toNat_le UInt32.le_iff_toNat_le

/-- The small letter of a capital comes 32 characters later. -/
theorem toNat_toLower (capital : c.isUpper = true) : c.toLower.toNat = c.toNat + 32 := by
  have between : c.val ≥ 'A'.val ∧ c.val ≤ 'Z'.val := of_decide_eq_true capital
  have small : c.val.toNat ≤ 90 := (isUpper_iff.mp capital).2
  have sum : c.toLower.toNat = (c.val + 32).toNat := congrArg Char.toNat (dif_pos between)
  rw [sum, UInt32.toNat_add, ← Char.toNat_val]
  change (c.val.toNat + 32) % 4294967296 = c.val.toNat + 32
  omega

/-- The small letter of a capital is none. -/
theorem isUpper_toLower (capital : c.isUpper = true) : c.toLower.isUpper = false := by
  have range := isUpper_iff.mp capital
  rw [Bool.eq_false_iff, ne_eq, isUpper_iff, toNat_toLower capital]
  omega

/-- The capital of a small letter, by code points that wrap around. -/
theorem val_toUpper (between : 'a'.val ≤ c.val ∧ c.val ≤ 'z'.val) :
    c.toUpper.val = c.val + ('A'.val - 'a'.val) := by
  obtain ⟨valid, capital⟩ : ∃ valid, c.toUpper = ⟨c.val + ('A'.val - 'a'.val), valid⟩ :=
    ⟨_, dif_pos between⟩
  rw [capital]

/-- A capital is known from its small letter. -/
theorem toUpper_toLower (capital : c.isUpper = true) : c.toLower.toUpper = c := by
  have range := isUpper_iff.mp capital
  have later : c.toLower.val.toNat = c.toNat + 32 := toNat_toLower capital
  have between : 'a'.val ≤ c.toLower.val ∧ c.toLower.val ≤ 'z'.val := by
    rw [UInt32.le_iff_toNat_le, UInt32.le_iff_toNat_le, later]
    change 97 ≤ c.toNat + 32 ∧ c.toNat + 32 ≤ 122
    omega
  rw [← Char.toNat_inj, ← Char.toNat_val, val_toUpper between, UInt32.toNat_add, later]
  change (c.toNat + 32 + 4294967264) % 4294967296 = c.toNat
  omega

/-! ## Keys -/

/-- A capital for each hyphen and the letter after it. -/
def camelChars : List Char → List Char
  | '-' :: c :: rest => c.toUpper :: camelChars rest
  | c :: rest => c :: camelChars rest
  | [] => []

/-- A character other than a hyphen is read back from its kebab case. -/
theorem camelChars_kebabChar_append (other : c ≠ '-') (rest : List Char) :
    camelChars (kebabChar c ++ rest) = c :: camelChars rest := by
  rw [kebabChar]
  split
  case isTrue capital =>
    change c.toLower.toUpper :: camelChars rest = _
    rw [toUpper_toLower capital]
  case isFalse =>
    rw [List.singleton_append, camelChars]
    exact fun _ _ hyphen => absurd hyphen other

/-- A key without hyphens is read back from its kebab case. -/
theorem camelChars_flatMap_kebabChar {chars : List Char} (plain : '-' ∉ chars) :
    camelChars (chars.flatMap kebabChar) = chars := by
  induction chars with
  | nil => rfl
  | cons c rest ih =>
    rw [List.mem_cons, not_or] at plain
    rw [List.flatMap_cons, camelChars_kebabChar_append (Ne.symm plain.1), ih plain.2]

/-- Keys without hyphens that have one kebab case are one key. -/
theorem eq_of_kebabCase_eq (plain : '-' ∉ first.toList) (plain' : '-' ∉ second.toList)
    (same : kebabCase first = kebabCase second) : first = second := by
  apply String.toList_injective
  calc first.toList
      = camelChars (kebabCase first).toList := by
        rw [kebabCase, String.toList_ofList, camelChars_flatMap_kebabChar plain]
    _ = camelChars (kebabCase second).toList := by rw [same]
    _ = second.toList := by
        rw [kebabCase, String.toList_ofList, camelChars_flatMap_kebabChar plain']

/-- A hyphen before a small letter and a capital have one kebab case. -/
example : kebabCase "data-id" = kebabCase "dataId" := by decide +kernel

/-- Nothing in kebab case is a capital. -/
theorem isUpper_of_mem_kebabCase (member : c ∈ (kebabCase key).toList) : c.isUpper = false := by
  rw [kebabCase, String.toList_ofList] at member
  obtain ⟨source, -, made⟩ := List.mem_flatMap.mp member
  rw [kebabChar] at made
  split at made
  case isTrue capital =>
    rcases List.mem_cons.mp made with rfl | made
    · decide
    · rw [List.mem_singleton.mp made]
      exact isUpper_toLower capital
  case isFalse small => rwa [List.mem_singleton.mp made, Bool.eq_false_iff]

/-- A key without capitals is its own kebab case. -/
theorem kebabCase_eq_self (small : ∀ c ∈ key.toList, c.isUpper = false) : kebabCase key = key := by
  have each : key.toList.flatMap kebabChar = key.toList.flatMap fun c => [c] :=
    List.flatMap_congr fun c member => by simp [kebabChar, small c member]
  rw [kebabCase, each, List.flatMap_singleton', String.ofList_toList]

/-- What is in kebab case stays as it is. -/
theorem kebabCase_kebabCase (key : String) : kebabCase (kebabCase key) = kebabCase key :=
  kebabCase_eq_self fun _ => isUpper_of_mem_kebabCase

end PageBuild.Text
