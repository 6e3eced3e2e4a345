import PageBuild.Json.Write
import PageBuild.Proofs.Json.Value

/-!
# Characters of a written value

A value that is written holds the characters of its strings and the marks of JSON, and no others
(`Json.forall_write`).
-/
namespace PageBuild

namespace Json

variable {P : Char → Prop} {v : Json} {vs : List Json} {ms : List (String × Json)} {text : String}

/-- Whether a character belongs to the punctuation, the words, the numbers or the escapes of JSON. -/
def isMark (c : Char) : Bool :=
  c.isDigit || ['[', ']', '\x7b', '\x7d', ',', ':', '"', '\\', '-', '+', '.', 'a', 'b', 'c', 'd', 'e',
    'f', 'l', 'n', 'r', 's', 't', 'u'].contains c

mutual
/-- The strings of a value, the keys of its members among them, in document order. -/
def strings : Json → List String
  | string value => [value]
  | array items => stringsOfItems items
  | object members => stringsOfMembers members
  | _ => []

/-- The strings of all items. -/
def stringsOfItems : List Json → List String
  | [] => []
  | item :: rest => item.strings ++ stringsOfItems rest

/-- The keys and the strings of all members. -/
def stringsOfMembers : List (String × Json) → List String
  | [] => []
  | (key, value) :: rest => key :: (value.strings ++ stringsOfMembers rest)
end

/-- The strings of an array are those of its items. -/
theorem forall_strings_array {Q : String → Prop} :
    (∀ text ∈ (array vs).strings, Q text) ↔ ∀ v ∈ vs, ∀ text ∈ v.strings, Q text := by
  rw [strings]
  induction vs with
  | nil => simp [stringsOfItems]
  | cons v vs ih => rw [stringsOfItems, List.forall_mem_append, ih, List.forall_mem_cons]

/-- The strings of an object are its keys and those of the values of its members. -/
theorem forall_strings_object {Q : String → Prop} :
    (∀ text ∈ (object ms).strings, Q text) ↔ ∀ m ∈ ms, Q m.1 ∧ ∀ text ∈ m.2.strings, Q text := by
  rw [strings]
  induction ms with
  | nil => simp [stringsOfMembers]
  | cons m ms ih =>
    rw [stringsOfMembers, List.forall_mem_cons, List.forall_mem_append, ih, List.forall_mem_cons,
      and_assoc]

/-- What holds of the marks holds of a text of marks. -/
theorem forall_marks (marks : ∀ c, isMark c = true → P c) {cs : List Char}
    (all : cs.all isMark = true) : ∀ c ∈ cs, P c :=
  fun c member => marks c (List.all_eq_true.mp all c member)

/-- What holds of two texts holds of a choice between them. -/
theorem forall_ite {choice : Prop} [Decidable choice] {front back : List Char}
    (first : ∀ c ∈ front, P c) (second : ∀ c ∈ back, P c) :
    ∀ c ∈ if choice then front else back, P c := by
  by_cases chosen : choice
  · rwa [if_pos chosen]
  · rwa [if_neg chosen]

/-! ## Numbers -/

/-- The digits of a number are marks. -/
theorem forall_toDigits (marks : ∀ c, isMark c = true → P c) (n : Nat) :
    ∀ c ∈ Nat.toDigits 10 n, P c := by
  intro c member
  have digit : c.isDigit = true := Nat.isDigit_of_mem_toDigits (by decide) (by decide) member
  exact marks c (by rw [isMark, digit, Bool.true_or])

/-- A decimal is written with marks. -/
theorem forall_writeDecimal (marks : ∀ c, isMark c = true → P c) (d : Decimal) :
    ∀ c ∈ d.write, P c := by
  have digits := forall_toDigits marks d.digits
  have zeros : ∀ n, ∀ c ∈ List.replicate n '0', P c :=
    fun n c member => (List.mem_replicate.mp member).2 ▸ marks '0' (by decide)
  have front : ∀ n, ∀ c ∈ (Nat.toDigits 10 d.digits).take n, P c :=
    fun n c member => digits c (List.mem_of_mem_take member)
  have fraction : ∀ n, ∀ c ∈ '.' :: (Nat.toDigits 10 d.digits).drop n, P c := fun n =>
    List.forall_mem_cons.mpr ⟨marks '.' (by decide),
      fun c member => digits c (List.mem_of_mem_drop member)⟩
  rw [Decimal.write]
  dsimp only
  refine forall_ite (forall_ite ?_ (forall_ite ?_ ?_)) ?_
  · exact List.forall_mem_append.mpr
      ⟨List.forall_mem_append.mpr ⟨digits, zeros _⟩, forall_marks marks (by decide)⟩
  · exact List.forall_mem_append.mpr ⟨front _, fraction _⟩
  · exact List.forall_mem_cons.mpr ⟨marks '0' (by decide), List.forall_mem_cons.mpr
      ⟨marks '.' (by decide), List.forall_mem_append.mpr ⟨zeros _, digits⟩⟩⟩
  · refine List.forall_mem_append.mpr ⟨List.forall_mem_append.mpr
      ⟨front _, forall_ite (List.forall_mem_nil _) (fraction _)⟩,
        List.forall_mem_cons.mpr ⟨marks 'e' (by decide), List.forall_mem_cons.mpr
          ⟨?_, forall_toDigits marks _⟩⟩⟩
    split <;> exact marks _ (by decide)

/-- A number is written with marks. -/
theorem forall_writeNumber (marks : ∀ c, isMark c = true → P c) (value : Number) :
    ∀ c ∈ value.write, P c := by
  have sign : ∀ negative : Prop, [Decidable negative] →
      ∀ c ∈ (if negative then ['-'] else []), P c :=
    fun negative _ => forall_ite (forall_marks marks (by decide)) (List.forall_mem_nil _)
  cases value with
  | integer value fits =>
    rw [Number.write, writeInteger]
    exact List.forall_mem_append.mpr ⟨sign _, forall_toDigits marks _⟩
  | real value =>
    rw [Number.write, Binary64.write]
    exact List.forall_mem_append.mpr
      ⟨sign _, forall_ite (forall_marks marks (by decide)) (forall_writeDecimal marks _)⟩

/-! ## Values -/

/-- A character of a string is written as itself or with marks. -/
theorem forall_escaped (marks : ∀ c, isMark c = true → P c) {c : Char} (itself : P c) :
    ∀ d ∈ escaped c, P d := by
  have digit : ∀ n, P (Nat.digitChar (n % 16)) := by
    have all : ∀ n < 16, isMark (Nat.digitChar n) = true := by decide
    exact fun n => marks _ (all _ (Nat.mod_lt n (by decide)))
  rw [escaped]
  iterate 7 refine forall_ite (forall_marks marks (by decide)) ?_
  refine forall_ite ?_ (List.forall_mem_singleton.mpr itself)
  rw [byteDigits]
  exact List.forall_mem_append.mpr ⟨forall_marks marks (by decide),
    List.forall_mem_cons.mpr ⟨digit _, List.forall_mem_singleton.mpr (digit _)⟩⟩

/-- A string is written with its characters and marks. -/
theorem forall_quoted (marks : ∀ c, isMark c = true → P c) (texts : ∀ c ∈ text.toList, P c) :
    ∀ c ∈ quoted text, P c := by
  have quote : P '"' := marks _ (by decide)
  rw [quoted, List.forall_mem_cons, List.forall_mem_append, List.forall_mem_singleton]
  refine ⟨quote, fun c member => ?_, quote⟩
  obtain ⟨d, written, escaped⟩ := List.mem_flatMap.mp member
  exact forall_escaped marks (texts d written) c escaped

/-- The items after the first are written with their characters and marks. -/
theorem forall_writeItems (marks : ∀ c, isMark c = true → P c)
    (each : ∀ v ∈ vs, ∀ c ∈ v.write, P c) : ∀ c ∈ writeItems vs, P c := by
  induction vs with
  | nil => exact List.forall_mem_singleton.mpr (marks _ (by decide))
  | cons v vs ih =>
    obtain ⟨first, others⟩ := List.forall_mem_cons.mp each
    rw [writeItems, List.forall_mem_cons, List.forall_mem_append]
    exact ⟨marks _ (by decide), first, ih others⟩

/-- The members after the first are written with their characters and marks. -/
theorem forall_writeMembers (marks : ∀ c, isMark c = true → P c)
    (each : ∀ m ∈ ms, (∀ c ∈ m.1.toList, P c) ∧ ∀ c ∈ m.2.write, P c) :
    ∀ c ∈ writeMembers ms, P c := by
  induction ms with
  | nil => exact List.forall_mem_singleton.mpr (marks _ (by decide))
  | cons m ms ih =>
    obtain ⟨⟨key, value⟩, others⟩ := List.forall_mem_cons.mp each
    rw [writeMembers, List.forall_mem_cons, List.forall_mem_append, List.forall_mem_cons,
      List.forall_mem_append]
    exact ⟨marks _ (by decide), forall_quoted marks key, marks _ (by decide), value, ih others⟩

/-- A value is written with the characters of its strings and with marks. -/
theorem forall_write (marks : ∀ c, isMark c = true → P c)
    (texts : ∀ text ∈ v.strings, ∀ c ∈ text.toList, P c) : ∀ c ∈ v.write, P c := by
  induction v using induction with
  | null => exact forall_marks marks (by decide)
  | bool value => cases value <;> exact forall_marks marks (by decide)
  | number value => exact forall_writeNumber marks value
  | string value => exact forall_quoted marks (texts value (List.mem_singleton_self _))
  | array items ih =>
    rw [forall_strings_array] at texts
    cases items with
    | nil => exact forall_marks marks (by decide)
    | cons item rest =>
      obtain ⟨first, others⟩ := List.forall_mem_cons.mp fun v member => ih v member (texts v member)
      rw [write, List.forall_mem_cons, List.forall_mem_append]
      exact ⟨marks _ (by decide), first, forall_writeItems marks others⟩
  | object members ih =>
    rw [forall_strings_object] at texts
    cases members with
    | nil => exact forall_marks marks (by decide)
    | cons m rest =>
      obtain ⟨⟨key, value⟩, others⟩ := List.forall_mem_cons.mp fun m member =>
        And.intro (texts m member).1 (ih m member (texts m member).2)
      rw [write, List.forall_mem_cons, List.forall_mem_append, List.forall_mem_cons,
        List.forall_mem_append]
      exact ⟨marks _ (by decide), forall_quoted marks key, marks _ (by decide), value,
        forall_writeMembers marks others⟩

end Json

end PageBuild
