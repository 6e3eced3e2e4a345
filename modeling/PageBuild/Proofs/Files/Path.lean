import PageBuild.Files.Path
import PageBuild.Proofs.Text.Split
import PageBuild.Text.Basic

/-!
# Laws of paths

A name that is one step (`Path.IsName`) adds one piece and one part to any path that it is joined
onto, so what lies below a path is known by the names on the way down.
-/
namespace PageBuild.Path

open Text (split)

/-! ## Names -/

/-- Whether a text is one step down. -/
def IsName (name : String) : Prop :=
  '/' ∉ name.toList ∧ name ≠ "" ∧ name ≠ "." ∧ name ≠ ".."

instance (name : String) : Decidable (IsName name) := inferInstanceAs (Decidable (_ ∧ _))

/-- A plain name is one step down. -/
theorem isName_of_isPlainName {name : String} (plain : Text.isPlainName name = true) :
    IsName name := by
  simp only [Text.isPlainName, Bool.and_eq_true, decide_eq_true_eq, Bool.not_eq_true',
    List.contains_eq_mem, decide_eq_false_iff_not] at plain
  obtain ⟨⟨⟨⟨filled, slash⟩, -⟩, dot⟩, dots⟩ := plain
  exact ⟨slash, filled, dot, dots⟩

/-- A name is its own only piece. -/
theorem IsName.pieces {name : String} (isName : IsName name) : (Path.mk name).pieces = [name] :=
  Text.split_of_not_mem isName.1

/-- A name is one part. -/
theorem IsName.partOf? {name : String} (isName : IsName name) :
    partOf? name = some (.normal name) := by
  obtain ⟨-, filled, dot, dots⟩ := isName
  simp [Path.partOf?, filled, dot, dots]

/-- A name is no step from the root. -/
theorem IsName.isAbsolute {name : String} (isName : IsName name) :
    (Path.mk name).isAbsolute = false := by
  have other : name.toList.head? ≠ some '/' :=
    fun head => isName.1 (List.mem_of_head? head)
  simpa [Path.isAbsolute] using other

/-- A name that goes on is a name, if it does not go on with a slash or end in a dot. -/
theorem IsName.append {name more : String} {last : Char} (isName : IsName name)
    (slash : '/' ∉ more.toList) (ends : more.toList.getLast? = some last) (dot : last ≠ '.') :
    IsName (name ++ more) := by
  have other : ∀ text : String, text.toList.getLast? ≠ some last → name ++ more ≠ text := by
    rintro text different rfl
    simp [ends] at different
  refine ⟨?_, other _ (by simp), other _ (by simpa using dot.symm), other _ (by simpa using dot.symm)⟩
  rw [String.toList_append, List.mem_append, not_or]
  exact ⟨isName.1, slash⟩

/-! ## Joins -/

/-- The pieces of a path that those of a path joined onto it follow. -/
def stem (path : Path) : List String :=
  if path.pieces.getLast? = some "" then path.pieces.dropLast else path.pieces

/-- The text that a path is joined onto, with the slash after it. -/
theorem text_join {path other : Path} (relative : other.isAbsolute = false)
    (filled : path.text ≠ "") :
    ∃ start, (path.join other).text = start ++ "/" ++ other.text ∧
      split '/' start = path.stem ∧ (path.text = start ∨ path.text = start ++ "/") := by
  have last : path.pieces.getLast? = some "" ↔ path.text.toList.getLast? = some '/' := by
    rw [pieces, Text.getLast?_split, or_iff_right filled]
  by_cases slashed : path.text.toList.getLast? = some '/'
  · obtain ⟨start, ends⟩ := List.getLast?_eq_some_iff.mp slashed
    have text : path.text = String.ofList start ++ "/" := by
      apply String.toList_injective
      simp [ends]
    refine ⟨String.ofList start, ?_, ?_, .inr text⟩
    · rw [join, if_neg (by simp [relative, filled]), if_pos slashed, text]
    · rw [stem, if_pos (last.mpr slashed), pieces, text, Text.split_slash_end,
        List.dropLast_concat]
  · refine ⟨path.text, ?_, ?_, .inl rfl⟩
    · rw [join, if_neg (by simp [relative, filled]), if_neg slashed]
    · rw [stem, if_neg (mt last.mp slashed), pieces]

/-- A join with a path that says something says something. -/
theorem text_join_ne {path other : Path} (filled : other.text ≠ "") :
    (path.join other).text ≠ "" := by
  rw [join]
  split
  · exact filled
  · split <;> simp [filled]

/-- The path that says nothing has no stem. -/
theorem stem_empty {path : Path} (blank : path.text = "") : path.stem = [] := by
  rw [stem, pieces, blank]
  decide

/-- The pieces of a join. -/
theorem pieces_join {path other : Path} (relative : other.isAbsolute = false) :
    (path.join other).pieces = path.stem ++ other.pieces := by
  by_cases blank : path.text = ""
  · rw [stem_empty blank, join, if_pos (.inr blank), List.nil_append]
  · obtain ⟨start, text, stem, -⟩ := text_join relative blank
    rw [pieces, text, Text.split_slash, stem, pieces]

/-- A join starts where the path does that it is joined onto. -/
theorem isAbsolute_join {path other : Path} (relative : other.isAbsolute = false) :
    (path.join other).isAbsolute = path.isAbsolute := by
  by_cases blank : path.text = ""
  · rw [join, if_pos (.inr blank), relative, isAbsolute, blank]
    rfl
  · obtain ⟨start, text, -, source⟩ := text_join relative blank
    rw [isAbsolute, isAbsolute, text]
    rcases source with source | source
    · rw [source] at blank ⊢
      cases chars : start.toList with
      | nil => exact absurd (String.toList_eq_nil_iff.mp chars) blank
      | cons c rest => simp [chars]
    · rw [source]
      cases chars : start.toList <;> simp [chars]

/-- A piece that ends the pieces of a path is part of the stem, or empty. -/
theorem pieces_eq_stem (path : Path) : path.pieces = path.stem ∨ path.pieces = path.stem ++ [""] := by
  by_cases last : path.pieces.getLast? = some ""
  · obtain ⟨start, ends⟩ := List.getLast?_eq_some_iff.mp last
    exact .inr (by rw [stem, if_pos last, ends, List.dropLast_concat])
  · exact .inl (by rw [stem, if_neg last])

/-- What the pieces that follow the first one make of the parts. -/
theorem parts_of_pieces {path : Path} {first : String} {rest : List String}
    (pieces : path.pieces = first :: rest) :
    path.parts =
      (if path.isAbsolute then [.root]
        else if first = "." then [.current]
        else (partOf? first).toList) ++ rest.filterMap partOf? := by
  rw [parts, pieces]

/-- The parts of a join onto a path that says something. -/
theorem parts_join {path other : Path} (relative : other.isAbsolute = false)
    (filled : path.text ≠ "") :
    (path.join other).parts = path.parts ++ other.pieces.filterMap partOf? := by
  have joined : (path.join other).pieces = path.stem ++ other.pieces := pieces_join relative
  cases stem : path.stem with
  | nil =>
    obtain ⟨start, -, split, -⟩ := text_join relative filled
    exact absurd (split.trans stem) (Text.split_ne_nil start)
  | cons first rest =>
    rw [stem, List.cons_append] at joined
    rw [parts_of_pieces joined, isAbsolute_join relative, List.filterMap_append,
      ← List.append_assoc]
    congr 1
    rcases pieces_eq_stem path with pieces | pieces
    · rw [parts_of_pieces (pieces.trans stem)]
    · rw [stem, List.cons_append] at pieces
      rw [parts_of_pieces pieces, List.filterMap_append]
      simp [partOf?]

/-- A name adds one part to any path. -/
theorem IsName.parts_join {name : String} (isName : IsName name) (path : Path) :
    (path.join ⟨name⟩).parts = path.parts ++ [.normal name] := by
  by_cases blank : path.text = ""
  · rw [join, if_pos (.inr blank), parts_of_pieces isName.pieces, isName.isAbsolute]
    have start : path.parts = [] := by
      rw [parts, Path.pieces, Path.isAbsolute, blank]
      decide
    simp [start, isName.2.2.1, isName.partOf?]
  · rw [Path.parts_join isName.isAbsolute blank, isName.pieces]
    simp [isName.partOf?]

/-- What a path says before a relative path that is joined onto it. -/
def lead (path : Path) : String :=
  if path.text = "" then "" else if path.text.toList.getLast? = some '/' then path.text
  else path.text ++ "/"

/-- A relative path follows the lead of the path that it is joined onto. -/
theorem join_of_relative {other : Path} (relative : other.isAbsolute = false) (path : Path) :
    path.join other = ⟨path.lead ++ other.text⟩ := by
  by_cases blank : path.text = ""
  · simp [join, lead, blank]
  · by_cases slashed : path.text.toList.getLast? = some '/'
    · rw [join, lead, if_neg (by simp [relative, blank]), if_pos slashed, if_neg blank,
        if_pos slashed]
    · rw [join, lead, if_neg (by simp [relative, blank]), if_neg slashed, if_neg blank,
        if_neg slashed]

/-- A join with a name first is a join onto the join with the name. -/
theorem join_name_join {name rest : String} (isName : IsName name)
    (relative : (Path.mk rest).isAbsolute = false) (path : Path) :
    (path.join ⟨name⟩).join ⟨rest⟩ = path.join ⟨name ++ "/" ++ rest⟩ := by
  have chars : name.toList ≠ [] := mt String.toList_eq_nil_iff.mp isName.2.1
  have whole : (Path.mk (name ++ "/" ++ rest)).isAbsolute = false := by
    have head := isName.isAbsolute
    simp only [isAbsolute, String.toList_append, List.append_assoc] at head ⊢
    simpa [List.head?_append, List.head?_eq_some_head chars] using head
  have lead : (Path.mk (path.lead ++ name)).lead = path.lead ++ name ++ "/" := by
    rw [lead, if_neg (by simp [isName.2.1]), if_neg]
    intro last
    rw [String.toList_append, List.getLast?_append, List.getLast?_eq_some_getLast chars,
      Option.some_or, Option.some.injEq] at last
    exact isName.1 (last ▸ List.getLast_mem chars)
  rw [join_of_relative relative, join_of_relative isName.isAbsolute, join_of_relative whole, lead]
  simp [String.append_assoc]

/-- A join is no longer than what is joined and a slash between. -/
theorem size_join (path other : Path) :
    (path.join other).text.utf8ByteSize ≤ path.text.utf8ByteSize + 1 + other.text.utf8ByteSize := by
  have slash : "/".utf8ByteSize = 1 := by decide
  rw [join]
  split
  · omega
  · split <;> simp only [String.utf8ByteSize_append] <;> omega

/-- A path whose pieces are not empty does not start at the root. -/
theorem isAbsolute_of_pieces {path : Path} (filled : "" ∉ path.pieces) :
    path.isAbsolute = false := by
  simpa [isAbsolute] using Text.head?_ne_of_split filled

/-! ## Walks down -/

/-- The path that names lead to. -/
def descend (path : Path) (names : List String) : Path :=
  names.foldl (fun path name => path.join ⟨name⟩) path

/-- The last name is joined last. -/
theorem descend_concat (path : Path) (names : List String) (name : String) :
    path.descend (names ++ [name]) = (path.descend names).join ⟨name⟩ := by
  simp [descend]

/-- Names that are joined together lead where they lead one by one. -/
theorem join_names {names : List String} (named : ∀ name ∈ names, IsName name) (some : names ≠ [])
    (path : Path) : path.join ⟨Text.join '/' names⟩ = path.descend names := by
  induction names generalizing path with
  | nil => exact absurd rfl some
  | cons name names ih =>
    obtain ⟨first, others⟩ := List.forall_mem_cons.mp named
    cases names with
    | nil => simp [Text.join, descend]
    | cons second rest =>
      have pieces : (Path.mk (Text.join '/' (second :: rest))).pieces = second :: rest :=
        Text.split_join (by simp) fun piece member => (others piece member).1
      have relative : (Path.mk (Text.join '/' (second :: rest))).isAbsolute = false :=
        isAbsolute_of_pieces fun empty => (others "" (pieces ▸ empty)).2.1 rfl
      rw [Text.join_cons_cons, ← join_name_join first relative, ih others (by simp)]
      rfl

/-- A path with names below it says something if it did. -/
theorem text_descend_ne {names : List String} (named : ∀ name ∈ names, IsName name) {path : Path}
    (filled : path.text ≠ "") : (path.descend names).text ≠ "" := by
  induction names generalizing path with
  | nil => exact filled
  | cons name names ih =>
    obtain ⟨first, others⟩ := List.forall_mem_cons.mp named
    exact ih others (text_join_ne first.2.1)

/-- Names add their parts. -/
theorem parts_descend {names : List String} (named : ∀ name ∈ names, IsName name) (path : Path) :
    (path.descend names).parts = path.parts ++ names.map .normal := by
  induction names generalizing path with
  | nil => simp [descend]
  | cons name names ih =>
    obtain ⟨first, others⟩ := List.forall_mem_cons.mp named
    have rest := ih others (path.join ⟨name⟩)
    rw [descend] at rest ⊢
    rw [List.foldl_cons, rest, first.parts_join]
    simp

/-- What follows the parts of a base is below it. -/
theorem partsBelow?_append (base below : List PathPart) :
    partsBelow? base (base ++ below) = some below := by
  induction base with
  | nil => rfl
  | cons part base ih => simpa [partsBelow?] using ih

/-- The key of what lies below a base are the names on the way down. -/
theorem relativeKey_descend {names : List String} (named : ∀ name ∈ names, IsName name)
    (base : Path) : relativeKey base (base.descend names) = Text.join '/' names := by
  rw [relativeKey, parts_descend named, partsBelow?_append, Option.getD_some, List.map_map]
  congr 1
  exact List.map_id'' (fun name => rfl) names

end PageBuild.Path
