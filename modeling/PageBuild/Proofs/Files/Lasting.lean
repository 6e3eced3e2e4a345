import PageBuild.Proofs.Files.Apart
import PageBuild.Proofs.Files.Result

/-!
# Files that edits leave to be found

A file is lost to a path when it is removed, and when a directory that the path leads through is: the
way to a file may go through directories that the file does not stand in. Edits that do neither leave
the file to be found, with whatever content (`Files.Edits.isFile`).
-/
namespace PageBuild

variable {here place : Location} {files later : Files} {path : Path} {name : String}

/-- Whether an edit removes neither what stands at a path nor a directory that the path leads through. -/
def Files.Edit.Leaves (here : Location) (path : Path) : Files.Edit → Prop
  | make _ | write _ _ => True
  | remove place => place ≠ path.place here
  | clear place => ∀ other, path.Leads here other → ¬place <+: other

namespace Files

/-- A file stands where a path leads to it. -/
theorem isFile_iff :
    files.isFile path = true ↔ ∃ location content, files.locate path = .ok (location, false) ∧
      files.tree.find? location = some (.file content) := by
  have stands : files.isFile path = true ↔ ∃ content, files.stat path = .ok (.file content) := by
    rw [isFile]
    cases files.stat path with
    | error cause => simp
    | ok entry => cases entry <;> simp
  simp only [stands, stat_eq_file]
  exact exists_comm

/-- A file is among what exists. -/
theorem pathExists_of_isFile (stands : files.isFile path = true) : files.pathExists path = true := by
  rw [isFile] at stands
  rw [pathExists]
  cases found : files.stat path with
  | error cause => simp [found] at stands
  | ok entry => rfl

/-- A file is still found where all directories are kept and a file still stands at its location. -/
theorem isFile_of_directories (stands : files.isFile path = true) (here_eq : later.here = files.here)
    (kept : ∀ place, files.tree.find? place = some .directory →
      later.tree.find? place = some .directory)
    (file : ∀ place content, files.tree.find? place = some (.file content) →
      files.locate path = .ok (place, false) →
        ∃ other, later.tree.find? place = some (.file other)) :
    later.isFile path = true := by
  obtain ⟨location, content, located, found⟩ := isFile_iff.mp stands
  obtain ⟨other, still⟩ := file location content found located
  exact isFile_iff.mpr ⟨location, other, locate_of_directories kept here_eq located, still⟩

/-- The content of a file is what stands at its place. -/
theorem readFile_of_isFile (stands : files.isFile path = true) :
    ∃ content, files.readFile path = .ok content ∧
      files.tree.find? (path.place files.here) = some (.file content) := by
  obtain ⟨location, content, located, found⟩ := isFile_iff.mp stands
  refine ⟨content, readFile_eq_ok.mpr (stat_eq_file.mpr ⟨location, located, found⟩), ?_⟩
  rwa [← locate_eq_place located]

/-- What is read at a path to a file, once directories are kept, is what then stands at its place. -/
theorem readFile_of_directories {content : ByteArray} (stands : files.isFile path = true)
    (here_eq : later.here = files.here)
    (kept : ∀ place, files.tree.find? place = some .directory →
      later.tree.find? place = some .directory)
    (file : later.tree.find? (path.place files.here) = some (.file content)) :
    later.readFile path = .ok content := by
  obtain ⟨location, old, located, -⟩ := isFile_iff.mp stands
  rw [readFile_eq_ok, stat_eq_file]
  refine ⟨location, locate_of_directories kept here_eq located, ?_⟩
  rwa [locate_eq_place located]

/-- An edit that leaves a file leaves it to be found. -/
theorem Edit.Applies.isFile {edit : Edit} (applies : edit.Applies files later)
    (sound : files.IsSound here) (leaves : edit.Leaves here path)
    (stands : files.isFile path = true) : later.isFile path = true := by
  cases applies with
  | @make files place named free above =>
    have found : ∀ other, (files.insert place .directory).tree.find? other =
        if other = place then some .directory else files.tree.find? other := fun other =>
      FileTree.find?_insert _ _ _ _ (ne_nil_of_free (free_of_none free))
    refine isFile_of_directories stands rfl (fun other directory => ?_) fun other content file _ => ?_
    · rw [found, directory, ite_self]
    · refine ⟨content, ?_⟩
      rw [found, if_neg, file]
      rintro rfl
      rw [free] at file
      cases file
  | @write files place content named free above =>
    have found : ∀ other, (files.insert place (.file content)).tree.find? other =
        if other = place then some (.file content) else files.tree.find? other := fun other =>
      FileTree.find?_insert _ _ _ _ (ne_nil_of_free free)
    refine isFile_of_directories stands rfl (fun other directory => ?_) fun other old file _ => ?_
    · rw [found, if_neg, directory]
      rintro rfl
      exact free directory
    · by_cases same : other = place
      · exact ⟨content, by rw [found, if_pos same]⟩
      · exact ⟨old, by rw [found, if_neg same, file]⟩
  | @remove files place content file =>
    have kept : ∀ other, other ≠ place →
        (files.tree.erase place).find? other = files.tree.find? other := by
      intro other apart
      by_cases root : other = []
      · rw [root, FileTree.find?_nil, FileTree.find?_nil]
      · rw [FileTree.find?_erase _ _ _ root, if_neg apart]
    refine isFile_of_directories stands rfl (fun other directory => ?_) fun other old found located => ?_
    · refine (kept other ?_).trans directory
      rintro rfl
      rw [file] at directory
      cases directory
    · refine ⟨old, (kept other ?_).trans found⟩
      rw [sound.locate_eq located]
      exact Ne.symm leaves
  | @clear files place directory =>
    have applies : (Edit.clear place).Applies files
        { files with tree := files.tree.eraseBelow place } := .clear directory
    have alike : Alike here (place <+: ·) files.tree.find? (files.tree.eraseBelow place).find? files
        { files with tree := files.tree.eraseBelow place } :=
      ⟨sound.toAt, (applies.isSound sound).toAt, fun other apart => (applies.find?_eq apart).symm,
        fun _ _ => rfl, fun _ _ => rfl⟩
    rwa [isFile, ← alike.stat_eq (Path.avoids_iff.mpr leaves), ← isFile]

/-- Edits that leave a file leave it to be found. -/
theorem Edits.isFile {allowed : Edit → Prop} (edits : Edits allowed files later)
    (sound : files.IsSound here) (leaves : ∀ edit, allowed edit → edit.Leaves here path)
    (stands : files.isFile path = true) : later.isFile path = true := by
  induction edits with
  | refl => exact stands
  | @tail middle last before step ih =>
    obtain ⟨edit, kind, applies⟩ := step
    have kept : Edits allowed files middle := before
    exact applies.isFile (kept.isSound sound) (leaves edit kind) ih

/-- A name that is not longer than another one can be located next to it. -/
theorem locate_sibling {more : String} {slashed : Bool} (isName : Path.IsName name)
    (isLonger : Path.IsName (name ++ more))
    (located : files.locate (path.join ⟨name ++ more⟩) = .ok (place, slashed)) :
    ∃ location, files.locate (path.join ⟨name⟩) = .ok (location, false) := by
  have text : (path.join ⟨name ++ more⟩).text = (path.join ⟨name⟩).text ++ more := by
    rw [Path.join, Path.join, isName.isAbsolute, isLonger.isAbsolute]
    by_cases blank : path.text = ""
    · simp [blank]
    · simp only [blank, Bool.false_eq_true, or_self, ↓reduceIte]
      split <;> simp [String.append_assoc]
  obtain ⟨nul, -, short, followed, -⟩ := locate_eq_ok.mp located
  rw [text] at nul short
  rw [steps_join isLonger, Path.isAbsolute_join isLonger.isAbsolute] at followed
  obtain ⟨middle, first, last⟩ := follow_append_eq_ok followed
  obtain ⟨stands, fits, -⟩ := follow_cons_eq_ok.mp last
  have fits : name.utf8ByteSize ≤ maxName := by
    have longer : (name ++ more).utf8ByteSize ≤ maxName := by
      rcases fits with blank | up | fits
      · simp [Path.isBlankPiece, isLonger.2.1, isLonger.2.2.1] at blank
      · exact absurd up isLonger.2.2.2
      · exact fits
    rw [String.utf8ByteSize_append] at longer
    omega
  have last : follow files.tree middle [name] = .ok (middle ++ [name]) := by
    rw [follow_cons_eq_ok, isName.step]
    exact ⟨stands, .inr (.inr fits), rfl⟩
  refine ⟨middle ++ [name], locate_eq_ok.mpr ⟨?_, Path.text_join_ne isName.2.1, ?_, ?_, ?_⟩⟩
  · exact fun member => nul (by simp [member])
  · rw [String.utf8ByteSize_append] at short
    omega
  · rw [steps_join isName, Path.isAbsolute_join isName.isAbsolute]
    exact follow_append first last
  · rw [steps_join isName, Path.pieces_join isName.isAbsolute, isName.pieces]
    simp

/-- What does not exist at a path that can be located and does not end in a slash is not there. -/
theorem find?_of_not_exists (at_ : files.At here) (located : files.locate path = .ok (place, false))
    (absent : files.pathExists path = false) : files.tree.find? (path.place here) = none := by
  rw [pathExists, stat, located] at absent
  rw [← at_.locate_eq located]
  cases found : files.tree.find? place with
  | none => rfl
  | some entry => cases entry <;> simp [found, Except.toOption] at absent

end Files

end PageBuild
