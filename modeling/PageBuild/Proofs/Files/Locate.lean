import Mathlib.Data.List.TakeWhile
import PageBuild.Files.Access
import PageBuild.Proofs.Files.Path

/-!
# Places of paths

Where a path leads is known from its pieces alone (`Path.place`); the directories on the way only
decide whether it can be followed.
-/
namespace PageBuild

/-- The location after one piece of a path. -/
def Location.step (location : Location) (piece : String) : Location :=
  if Path.isBlankPiece piece then location
  else if piece = ".." then location.dropLast
  else location ++ [piece]

/-- Where a path leads from a directory. -/
def Path.place (path : Path) (here : Location) : Location :=
  path.pieces.foldl Location.step (if path.isAbsolute then [] else here)

/-! ## Pieces -/

/-- Empty pieces lead nowhere. -/
theorem Location.foldl_step_empty {pieces : List String} (empty : ∀ piece ∈ pieces, piece = "")
    (location : Location) : pieces.foldl Location.step location = location := by
  induction pieces with
  | nil => rfl
  | cons piece pieces ih =>
    obtain ⟨rfl, others⟩ := List.forall_mem_cons.mp empty
    exact ih others

/-- A name leads one step down. -/
theorem Path.IsName.step {name : String} (isName : Path.IsName name) (location : Location) :
    location.step name = location ++ [name] := by
  obtain ⟨-, filled, dot, dots⟩ := isName
  simp [Location.step, Path.isBlankPiece, filled, dot, dots]

/-- The pieces of the stem lead as far as all of them. -/
theorem Path.foldl_stem (path : Path) (location : Location) :
    path.stem.foldl Location.step location = path.pieces.foldl Location.step location := by
  rcases path.pieces_eq_stem with pieces | pieces
  · rw [pieces]
  · rw [pieces, List.foldl_append]
    rfl

/-- Where a join leads. -/
theorem Path.place_join {path other : Path} (relative : other.isAbsolute = false)
    (here : Location) :
    (path.join other).place here = other.pieces.foldl Location.step (path.place here) := by
  rw [place, isAbsolute_join relative, pieces_join relative, List.foldl_append, foldl_stem, place]

/-- A name leads one step down from any path. -/
theorem Path.IsName.place_join {name : String} (isName : Path.IsName name) (path : Path)
    (here : Location) : (path.join ⟨name⟩).place here = path.place here ++ [name] := by
  rw [Path.place_join isName.isAbsolute, isName.pieces]
  exact isName.step _

/-- Names lead down from any path. -/
theorem Path.place_descend {names : List String} (named : ∀ name ∈ names, Path.IsName name)
    (path : Path) (here : Location) :
    (path.descend names).place here = path.place here ++ names := by
  induction names generalizing path with
  | nil => simp [descend]
  | cons name names ih =>
    obtain ⟨first, others⟩ := List.forall_mem_cons.mp named
    have rest := ih others (path.join ⟨name⟩)
    rw [descend] at rest ⊢
    rw [List.foldl_cons, rest, first.place_join, List.append_assoc, List.singleton_append]

/-! ## Following -/

namespace Files

variable {tree : FileTree} {location found : Location}

/-- Whether a piece is not too long a name. -/
def IsShort (piece : String) : Prop :=
  Path.isBlankPiece piece = true ∨ piece = ".." ∨ piece.utf8ByteSize ≤ maxName

/-- A piece is followed from a directory, and then come the others. -/
theorem follow_cons_eq_ok {piece : String} {rest : List String} :
    follow tree location (piece :: rest) = .ok found ↔
      tree.find? location = some .directory ∧ IsShort piece ∧
        follow tree (location.step piece) rest = .ok found := by
  rw [follow, Location.step, IsShort]
  cases stands : tree.find? location with
  | none => simp
  | some entry =>
    cases entry with
    | file content => simp
    | directory =>
      by_cases blank : Path.isBlankPiece piece = true
      · simp [blank]
      · by_cases parent : piece = ".."
        · subst parent
          simp [show Path.isBlankPiece ".." = false from rfl]
        · by_cases long : maxName < piece.utf8ByteSize
          · simp [blank, parent, long, Nat.not_le.mpr long]
          · simp [blank, parent, long, Nat.not_lt.mp long]

/-- Where following pieces leads. -/
theorem follow_eq_ok {pieces : List String} (followed : follow tree location pieces = .ok found) :
    found = pieces.foldl Location.step location := by
  induction pieces generalizing location with
  | nil => exact (Except.ok.inj followed).symm
  | cons piece pieces ih => exact ih (follow_cons_eq_ok.mp followed).2.2

/-- Pieces that can be followed can be followed as far as any of them. -/
theorem follow_append_eq_ok {first rest : List String}
    (followed : follow tree location (first ++ rest) = .ok found) :
    ∃ middle, follow tree location first = .ok middle ∧ follow tree middle rest = .ok found := by
  induction first generalizing location with
  | nil => exact ⟨location, rfl, followed⟩
  | cons piece first ih =>
    obtain ⟨stands, short, followed⟩ := follow_cons_eq_ok.mp followed
    obtain ⟨middle, first, rest⟩ := ih followed
    exact ⟨middle, follow_cons_eq_ok.mpr ⟨stands, short, first⟩, rest⟩

/-- Pieces are followed after others from where these lead. -/
theorem follow_append {first rest : List String} {middle : Location}
    (followed : follow tree location first = .ok middle)
    (onward : follow tree middle rest = .ok found) :
    follow tree location (first ++ rest) = .ok found := by
  induction first generalizing location with
  | nil =>
    cases followed
    exact onward
  | cons piece first ih =>
    obtain ⟨stands, short, followed⟩ := follow_cons_eq_ok.mp followed
    exact follow_cons_eq_ok.mpr ⟨stands, short, ih followed⟩

/-- Empty pieces are followed in a directory. -/
theorem follow_empty {pieces : List String} (empty : ∀ piece ∈ pieces, piece = "")
    (stands : tree.find? location = some .directory) :
    follow tree location pieces = .ok location := by
  induction pieces with
  | nil => rfl
  | cons piece pieces ih =>
    obtain ⟨rfl, others⟩ := List.forall_mem_cons.mp empty
    exact follow_cons_eq_ok.mpr ⟨stands, .inl rfl, ih others⟩

/-- Pieces that can be followed can still be followed where all directories are kept. -/
theorem follow_of_directories {later : FileTree} {pieces : List String}
    (kept : ∀ place, tree.find? place = some .directory → later.find? place = some .directory)
    (followed : follow tree location pieces = .ok found) :
    follow later location pieces = .ok found := by
  induction pieces generalizing location with
  | nil => exact followed
  | cons piece pieces ih =>
    obtain ⟨stands, short, followed⟩ := follow_cons_eq_ok.mp followed
    exact follow_cons_eq_ok.mpr ⟨kept location stands, short, ih followed⟩

/-! ## Locating -/

/-- The pieces of a path without those at the end that are empty. -/
def steps (path : Path) : List String := (path.pieces.reverse.dropWhile (· = "")).reverse

/-- A path can be located if it is a text that the operating system takes and its pieces can be
followed. -/
theorem locate_eq_ok {files : Files} {path : Path} {slashed : Bool} :
    files.locate path = .ok (location, slashed) ↔
      '\x00' ∉ path.text.toList ∧ path.text ≠ "" ∧ path.text.utf8ByteSize ≤ maxPath ∧
        follow files.tree (if path.isAbsolute then [] else files.here) (steps path) =
          .ok location ∧
        slashed = decide ((steps path).length < path.pieces.length) := by
  rw [locate, steps]
  by_cases nul : '\x00' ∈ path.text.toList
  · simp [nul]
  · by_cases blank : path.text = ""
    · simp [blank]
    · by_cases long : maxPath < path.text.utf8ByteSize
      · simp [nul, blank, long, Nat.not_le.mpr long]
      · simp only [List.contains_eq_mem, nul, blank, long, Nat.not_lt.mp long, decide_false,
          Bool.false_eq_true, ↓reduceIte, not_false_eq_true, ne_eq, true_and]
        split
        · rename_i found followed
          simp only [followed, Except.ok.injEq, Prod.mk.injEq]
          exact ⟨fun ⟨a, b⟩ => ⟨a, b.symm⟩, fun ⟨a, b⟩ => ⟨a, b.symm⟩⟩
        · rename_i cause followed
          simp [followed]

/-- The pieces that are left out at the end of a stem are empty. -/
theorem stem_eq_steps (path : Path) :
    ∃ empty, path.stem = steps path ++ empty ∧ ∀ piece ∈ empty, piece = "" := by
  have trimmed : (path.stem.reverse.dropWhile (· = "")).reverse = steps path := by
    rcases path.pieces_eq_stem with pieces | pieces
    · rw [steps, pieces]
    · rw [steps, pieces]
      simp
  refine ⟨(path.stem.reverse.takeWhile (· = "")).reverse, ?_, fun piece member => ?_⟩
  · rw [← trimmed, ← List.reverse_append, List.takeWhile_append_dropWhile, List.reverse_reverse]
  · simpa using List.mem_takeWhile_imp (List.mem_reverse.mp member)

/-- A path that can be located leads to its place. -/
theorem locate_eq_place {files : Files} {path : Path} {slashed : Bool}
    (located : files.locate path = .ok (location, slashed)) :
    location = path.place files.here := by
  obtain ⟨-, -, -, followed, -⟩ := locate_eq_ok.mp located
  obtain ⟨empty, stem, blank⟩ := stem_eq_steps path
  rw [Path.place, ← path.foldl_stem, stem, List.foldl_append, ← follow_eq_ok followed,
    Location.foldl_step_empty blank]

/-- A path can still be located where all directories are kept. -/
theorem locate_of_directories {files later : Files} {path : Path} {slashed : Bool}
    (kept : ∀ place, files.tree.find? place = some .directory →
      later.tree.find? place = some .directory)
    (here : later.here = files.here) (located : files.locate path = .ok (location, slashed)) :
    later.locate path = .ok (location, slashed) := by
  obtain ⟨nul, filled, short, followed, ends⟩ := locate_eq_ok.mp located
  rw [← here] at followed
  exact locate_eq_ok.mpr ⟨nul, filled, short, follow_of_directories kept followed, ends⟩

/-- The characters of a path are among those of a join onto it. -/
theorem exists_text_join {path other : Path} (relative : other.isAbsolute = false)
    (filled : path.text ≠ "") : ∃ rest, (path.join other).text = path.text ++ rest := by
  obtain ⟨start, joined, -, rfl | text⟩ := Path.text_join relative filled
  · exact ⟨"/" ++ other.text, by rw [joined, String.append_assoc]⟩
  · exact ⟨other.text, by rw [joined, text]⟩

/-- A slash at the end is no step. -/
theorem steps_slashed (path : Path) : steps (path.join ⟨""⟩) = steps path := by
  have empty : (Path.mk "").pieces = [""] := by decide
  have pieces : (path.join ⟨""⟩).pieces = path.stem ++ [""] := by
    rw [Path.pieces_join rfl, empty]
  rw [steps, steps, pieces]
  rcases path.pieces_eq_stem with whole | whole
  · rw [whole]
    simp
  · rw [whole]

/-- Without the slash at its end a path leads where it leads with it. -/
theorem locate_of_slashed {files : Files} {path : Path} {slashed : Bool} (filled : path.text ≠ "")
    (located : files.locate (path.join ⟨""⟩) = .ok (location, slashed)) :
    ∃ slashed, files.locate path = .ok (location, slashed) := by
  obtain ⟨nul, -, short, followed, -⟩ := locate_eq_ok.mp located
  obtain ⟨rest, text⟩ : ∃ rest, (path.join ⟨""⟩).text = path.text ++ rest :=
    exists_text_join rfl filled
  rw [steps_slashed, Path.isAbsolute_join rfl] at followed
  refine ⟨_, locate_eq_ok.mpr ⟨?_, filled, ?_, followed, rfl⟩⟩
  · rw [text] at nul
    exact fun member => nul (by simp [member])
  · rw [text, String.utf8ByteSize_append] at short
    omega

/-- The steps of a join with a name. -/
theorem steps_join {path : Path} {name : String} (isName : Path.IsName name) :
    steps (path.join ⟨name⟩) = path.stem ++ [name] := by
  rw [steps, Path.pieces_join isName.isAbsolute, isName.pieces]
  simp [isName.2.1]

/-- A name in a directory that can be located can be located, if it can be stored. -/
theorem locate_join {files : Files} {path : Path} {base : Location} {name : String} {slashed : Bool}
    (isName : Path.IsName name) (located : files.locate path = .ok (base, slashed))
    (stands : files.tree.find? base = some .directory) (nul : '\x00' ∉ name.toList)
    (short : name.utf8ByteSize ≤ maxName)
    (fits : (path.join ⟨name⟩).text.utf8ByteSize ≤ maxPath) :
    files.locate (path.join ⟨name⟩) = .ok (base ++ [name], false) := by
  obtain ⟨path_nul, filled, -, followed, -⟩ := locate_eq_ok.mp located
  obtain ⟨empty, stem, blank⟩ := stem_eq_steps path
  refine locate_eq_ok.mpr ⟨?_, Path.text_join_ne isName.2.1, fits, ?_, ?_⟩
  · obtain ⟨start, text, -, source⟩ := Path.text_join isName.isAbsolute filled
    have start_nul : '\x00' ∉ start.toList := by
      rcases source with source | source
      · rwa [← source]
      · exact fun member => path_nul (by simp [source, member])
    simp only [text, String.toList_append, List.mem_append, not_or]
    exact ⟨⟨start_nul, by decide⟩, nul⟩
  · have step : follow files.tree base [name] = .ok (base ++ [name]) := by
      rw [follow_cons_eq_ok, isName.step]
      exact ⟨stands, .inr (.inr short), rfl⟩
    rw [steps_join isName, stem, Path.isAbsolute_join isName.isAbsolute, List.append_assoc]
    exact follow_append followed (follow_append (follow_empty blank stands) step)
  · rw [steps_join isName, Path.pieces_join isName.isAbsolute, isName.pieces]
    simp

/-- A name in a path that can be located stands in a directory. -/
theorem locate_join_eq_ok {files : Files} {path : Path} {name : String} {slashed : Bool}
    (isName : Path.IsName name) (filled : path.text ≠ "")
    (located : files.locate (path.join ⟨name⟩) = .ok (location, slashed)) :
    ∃ base slashed, files.locate path = .ok (base, slashed) ∧
      files.tree.find? base = some .directory ∧ location = base ++ [name] := by
  obtain ⟨nul, -, short, followed, -⟩ := locate_eq_ok.mp located
  obtain ⟨rest, text⟩ := exists_text_join isName.isAbsolute filled
  obtain ⟨empty, stem, blank⟩ := stem_eq_steps path
  rw [steps_join isName, stem, Path.isAbsolute_join isName.isAbsolute] at followed
  obtain ⟨base, first, last⟩ := follow_append_eq_ok followed
  obtain ⟨middle, first, unmoved⟩ := follow_append_eq_ok first
  obtain ⟨stands, -, arrived⟩ := follow_cons_eq_ok.mp last
  have same : base = middle := by
    rw [follow_eq_ok unmoved, Location.foldl_step_empty blank]
  rw [isName.step] at arrived
  refine ⟨base, _, locate_eq_ok.mpr ⟨?_, filled, ?_, same ▸ first, rfl⟩, stands,
    (Except.ok.inj arrived).symm⟩
  · rw [text] at nul
    exact fun member => nul (by simp [member])
  · rw [text, String.utf8ByteSize_append] at short
    omega

end Files

end PageBuild
