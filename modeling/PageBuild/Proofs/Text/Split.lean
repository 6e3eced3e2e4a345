import PageBuild.Text.Basic

/-!
# Laws of splitting

Splitting undoes joining, joining undoes splitting, and a separator between two texts separates
their pieces.
-/
namespace PageBuild.Text

variable {separator : Char}

/-- There is at least one piece. -/
theorem splitChars_ne_nil (text : List Char) : splitChars separator text ≠ [] := by
  cases text with
  | nil => simp [splitChars]
  | cons c rest =>
    rw [splitChars]
    split
    · simp
    · split <;> simp

/-- A separator between two texts separates their pieces. -/
theorem splitChars_append (before after : List Char) :
    splitChars separator (before ++ separator :: after) =
      splitChars separator before ++ splitChars separator after := by
  induction before with
  | nil => simp [splitChars]
  | cons c before ih =>
    rw [List.cons_append, splitChars, splitChars, ih]
    by_cases same : c = separator
    · simp [same]
    · rw [if_neg same, if_neg same]
      cases pieces : splitChars separator before with
      | nil => exact absurd pieces (splitChars_ne_nil before)
      | cons piece pieces => rfl

/-- A text without separators is its only piece. -/
theorem splitChars_of_not_mem {text : List Char} (apart : separator ∉ text) :
    splitChars separator text = [text] := by
  induction text with
  | nil => rfl
  | cons c rest ih =>
    obtain ⟨head, tail⟩ := not_or.mp (mt List.mem_cons.mpr apart)
    rw [splitChars, if_neg (Ne.symm head), ih tail]

/-- No piece holds a separator. -/
theorem not_mem_of_mem_splitChars {text piece : List Char}
    (member : piece ∈ splitChars separator text) : separator ∉ piece := by
  induction text generalizing piece with
  | nil =>
    rw [List.mem_singleton.mp member]
    exact List.not_mem_nil
  | cons c rest ih =>
    rw [splitChars] at member
    split at member
    · rcases List.mem_cons.mp member with rfl | member
      · exact List.not_mem_nil
      · exact ih member
    · rename_i other
      split at member
      · rw [List.mem_singleton.mp member, List.mem_singleton]
        exact Ne.symm other
      · rename_i first pieces found
        rw [found] at ih
        rcases List.mem_cons.mp member with rfl | member
        · rw [List.mem_cons, not_or]
          exact ⟨Ne.symm other, ih List.mem_cons_self⟩
        · exact ih (List.mem_cons_of_mem _ member)

/-- The pieces with separators between them are the text. -/
theorem intercalate_splitChars (text : List Char) :
    List.intercalate [separator] (splitChars separator text) = text := by
  induction text with
  | nil => rfl
  | cons c rest ih =>
    rw [splitChars]
    cases pieces : splitChars separator rest with
    | nil => exact absurd pieces (splitChars_ne_nil rest)
    | cons piece pieces' =>
      rw [pieces] at ih
      split
      · rename_i same
        rw [List.intercalate_cons_cons, ih, same]
        rfl
      · cases pieces' with
        | nil => simpa using ih
        | cons second others =>
          rw [List.intercalate_cons_cons] at ih ⊢
          simp [← ih]

/-- The pieces of joined texts without separators are these texts. -/
theorem splitChars_intercalate {pieces : List (List Char)} (nonempty : pieces ≠ [])
    (apart : ∀ piece ∈ pieces, separator ∉ piece) :
    splitChars separator (List.intercalate [separator] pieces) = pieces := by
  induction pieces with
  | nil => exact absurd rfl nonempty
  | cons piece pieces ih =>
    obtain ⟨first, others⟩ := List.forall_mem_cons.mp apart
    cases pieces with
    | nil => simpa using splitChars_of_not_mem first
    | cons second pieces =>
      rw [List.intercalate_cons_cons, List.append_assoc, List.singleton_append, splitChars_append,
        splitChars_of_not_mem first, ih (by simp) others, List.singleton_append]

/-- The last piece is empty where there is nothing after the last separator. -/
theorem getLast?_splitChars (text : List Char) :
    (splitChars separator text).getLast? = some [] ↔
      text = [] ∨ text.getLast? = some separator := by
  induction text with
  | nil => simp [splitChars]
  | cons c rest ih =>
    rw [splitChars]
    cases found : splitChars separator rest with
    | nil => exact absurd found (splitChars_ne_nil rest)
    | cons piece pieces =>
      rw [found] at ih
      cases rest with
      | nil =>
        obtain ⟨rfl, rfl⟩ : piece = [] ∧ pieces = [] := by simpa [splitChars] using found.symm
        by_cases same : c = separator <;> simp [same]
      | cons d rest =>
        by_cases same : c = separator
        · simpa [same, List.getLast?_cons_cons] using ih
        · cases pieces with
          | nil =>
            have whole : List.intercalate [separator] (splitChars separator (d :: rest)) =
                d :: rest := intercalate_splitChars _
            rw [found, List.intercalate_singleton] at whole
            simpa [same, whole, List.getLast?_cons_cons] using ih
          | cons second pieces => simpa [same, List.getLast?_cons_cons] using ih

/-- There is at least one piece of a text. -/
theorem split_ne_nil (text : String) : split separator text ≠ [] := by
  simpa [split] using splitChars_ne_nil text.toList

/-- A text without separators is its only piece. -/
theorem split_of_not_mem {text : String} (apart : separator ∉ text.toList) :
    split separator text = [text] := by
  simp [split, splitChars_of_not_mem apart]

/-- No piece of a text holds a separator. -/
theorem not_mem_of_mem_split {text piece : String} (member : piece ∈ split separator text) :
    separator ∉ piece.toList := by
  obtain ⟨chars, found, rfl⟩ := List.mem_map.mp member
  simpa using not_mem_of_mem_splitChars found

/-- The pieces of a text joined again are the text. -/
theorem join_split (text : String) : join separator (split separator text) = text := by
  simp [join, split, Function.comp_def, intercalate_splitChars]

/-- The pieces of joined texts without separators are these texts. -/
theorem split_join {pieces : List String} (nonempty : pieces ≠ [])
    (apart : ∀ piece ∈ pieces, separator ∉ piece.toList) :
    split separator (join separator pieces) = pieces := by
  rw [split, join, String.toList_ofList, splitChars_intercalate (by simpa using nonempty)]
  · simp [Function.comp_def]
  · simpa using apart

/-- The last piece of a text is empty where there is nothing after the last separator. -/
theorem getLast?_split {text : String} :
    (split separator text).getLast? = some "" ↔
      text = "" ∨ text.toList.getLast? = some separator := by
  have chars : (splitChars separator text.toList).getLast? = some [] ↔
      text.toList = [] ∨ text.toList.getLast? = some separator := getLast?_splitChars _
  rw [String.toList_eq_nil_iff] at chars
  rw [← chars, split, List.getLast?_map]
  cases (splitChars separator text.toList).getLast? with
  | none => simp
  | some piece => simp

/-- A separator between two texts separates their pieces. -/
theorem split_append {middle : String} (single : middle.toList = [separator])
    (before after : String) :
    split separator (before ++ middle ++ after) =
      split separator before ++ split separator after := by
  have chars : (before ++ middle ++ after).toList =
      before.toList ++ separator :: after.toList := by simp [single]
  rw [split, chars, splitChars_append, List.map_append]
  rfl

/-- A slash between two texts separates their pieces. -/
theorem split_slash (before after : String) :
    split '/' (before ++ "/" ++ after) = split '/' before ++ split '/' after :=
  split_append (by decide) before after

/-- A text whose first pieces are those of another one goes on after it with a slash. -/
theorem prefix_of_split_eq {text before : String} {names : List String} (some : names ≠ [])
    (pieces : split '/' text = split '/' before ++ names) :
    (before ++ "/").toList <+: text.toList := by
  have apart : ∀ piece ∈ names, '/' ∉ piece.toList := fun piece member =>
    by
    have inner : piece ∈ split '/' text := by
      rw [pieces]
      exact List.mem_append_right _ member
    exact not_mem_of_mem_split inner
  have same : split '/' text = split '/' (before ++ "/" ++ join '/' names) := by
    rw [split_slash, split_join some apart, pieces]
  have whole := congrArg (join '/') same
  rw [join_split, join_split] at whole
  rw [whole, show (before ++ "/" ++ join '/' names).toList = (before ++ "/").toList ++ (join '/' names).toList
    from String.toList_append]
  exact List.prefix_append _ _

/-- A slash at the end of a text adds an empty piece. -/
theorem split_slash_end (text : String) : split '/' (text ++ "/") = split '/' text ++ [""] := by
  have pieces := split_slash text ""
  rwa [String.append_empty] at pieces

/-- Joined pieces by the first of them. -/
theorem join_cons_cons (first second : String) (rest : List String) :
    join '/' (first :: second :: rest) = first ++ "/" ++ join '/' (second :: rest) := by
  apply String.toList_injective
  simp [join, List.intercalate_cons_cons]

/-- A text whose pieces are not empty does not start with a separator. -/
theorem head?_ne_of_split {text : String} (filled : "" ∉ split separator text) :
    text.toList.head? ≠ some separator := by
  intro head
  obtain ⟨rest, starts⟩ := List.head?_eq_some_iff.mp head
  exact filled (by simp [split, starts, splitChars])

end PageBuild.Text
