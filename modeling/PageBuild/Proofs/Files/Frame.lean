import PageBuild.Proofs.Action
import PageBuild.Proofs.Files.Locate
import PageBuild.Proofs.Files.Tree

/-!
# What file operations leave alone

Making directories changes nothing that stands. Every other operation changes what stands at the
place of the path that it is given, and removing a directory all below it; copying a tree changes
files at and below the place of the copy. All else still stands.
-/
namespace PageBuild

open PageBuild.Action (Moves Under)

/-- Whether paths are followed from a directory, and every name is one step. -/
structure Files.At (here : Location) (files : Files) : Prop where
  here_eq : files.here = here
  named : files.tree.IsNamed
  here_named : ∀ name ∈ here, Path.IsName name

/-- Whether all that stands and is not touched still stands later. -/
def Files.Spares (touched : Location → Entry → Prop) (before after : Files) : Prop :=
  ∀ location entry, ¬touched location entry → before.tree.find? location = some entry →
    after.tree.find? location = some entry

instance {touched : Location → Entry → Prop} : IsPreorder Files (Files.Spares touched) where
  refl _ _ _ _ stands := stands
  trans _ _ _ first second location entry apart stands :=
    second location entry apart (first location entry apart stands)

/-- Whether files are kept, but for what is touched, by what follows paths from a directory. -/
abbrev Files.Keeps (here : Location) (touched : Location → Entry → Prop) :
    Files → Files → Prop :=
  Under (Files.At here) (Files.Spares touched)

namespace Files

variable {here : Location} {touched : Location → Entry → Prop} {files later : Files} {path : Path}
  {location : Location} {slashed : Bool}

/-! ## Single operations -/

/-- The names in the place of a path are steps. -/
theorem At.place_named (at_ : files.At here) (path : Path) :
    ∀ name ∈ path.place here, Path.IsName name := by
  have start : ∀ name ∈ (if path.isAbsolute then [] else here : Location), Path.IsName name := by
    split
    · simp
    · exact at_.here_named
  have pieces : ∀ piece ∈ path.pieces, '/' ∉ piece.toList :=
    fun piece member => Text.not_mem_of_mem_split member
  rw [Path.place]
  generalize path.pieces = remaining at pieces
  generalize (if path.isAbsolute then [] else here : Location) = location at start
  induction remaining generalizing location with
  | nil => exact start
  | cons piece rest ih =>
    obtain ⟨first, others⟩ := List.forall_mem_cons.mp pieces
    refine ih others _ ?_
    rw [Location.step]
    split
    · exact start
    · rename_i filled
      split
      · exact fun name member => start name ((List.dropLast_sublist _).mem member)
      · rename_i down
        simp only [Path.isBlankPiece, Bool.or_eq_true, decide_eq_true_eq, not_or] at filled
        intro name member
        rcases List.mem_append.mp member with member | member
        · exact start name member
        · rw [List.mem_singleton.mp member]
          exact ⟨first, filled.1, filled.2, down⟩

/-- A located path leads to its place. -/
theorem At.locate_eq (at_ : files.At here) (located : files.locate path = .ok (location, slashed)) :
    location = path.place here := by
  rw [locate_eq_place located, at_.here_eq]

/-- The names in a directory are steps. -/
theorem At.children_named (at_ : files.At here) (path : Path) :
    ∀ name ∈ files.children path, Path.IsName name := by
  intro name member
  rw [children] at member
  split at member
  · cases member
  · rename_i location slashed located
    obtain ⟨entry, stands⟩ := FileTree.mem_children.mp member
    exact at_.named _ entry stands name (by simp)

/-- An entry that is put where nothing stands, or in exchange for a file that is touched, spares
all else. -/
theorem keeps_insert {entry : Entry} (names : ∀ name ∈ location, Path.IsName name)
    (free : ∀ found, files.tree.find? location = some found →
      found ≠ .directory ∧ touched location found) :
    Files.Keeps here touched files (files.insert location entry) := by
  intro at_
  have below : location ≠ [] := by
    rintro rfl
    exact (free .directory (FileTree.find?_nil _)).1 rfl
  refine ⟨⟨at_.here_eq, at_.named.insert names entry, at_.here_named⟩, ?_⟩
  intro other found apart stands
  rw [Files.insert, FileTree.find?_insert _ _ _ _ below]
  by_cases same : other = location
  · subst same
    exact absurd (free found stands).2 apart
  · rw [if_neg same]
    exact stands

/-- Entries that are removed where all is touched spare all else. -/
theorem keeps_restrict {keep : Location → Bool}
    (gone : ∀ place entry, keep place = false → touched place entry) :
    Files.Keeps here touched files { files with tree := files.tree.restrict keep } := by
  intro at_
  refine ⟨⟨at_.here_eq, at_.named.restrict keep, at_.here_named⟩, ?_⟩
  intro other found apart stands
  rw [FileTree.find?_restrict]
  split
  · rename_i root
    rwa [root, FileTree.find?_nil] at stands
  · split
    · exact stands
    · rename_i dropped
      exact absurd (gone other found (Bool.eq_false_iff.mpr dropped)) apart

/-- Making a directory changes nothing that stands. -/
theorem keeps_makeDirectory (made : files.makeDirectory path = .ok later) :
    Files.Keeps here touched files later := by
  intro at_
  rw [makeDirectory] at made
  split at made
  · cases made
  · rename_i location slashed located
    split at made
    · cases made
    · rename_i free
      cases made
      rw [at_.locate_eq located] at free ⊢
      exact keeps_insert (at_.place_named path) (by simp [free]) at_

/-- Writing a file changes the file at its place. -/
theorem keeps_writeFile {content : ByteArray}
    (mine : ∀ old, touched (path.place here) (.file old))
    (wrote : files.writeFile path content = .ok later) : Files.Keeps here touched files later := by
  intro at_
  rw [writeFile] at wrote
  split at wrote
  · cases wrote
  · rename_i location slashed located
    rw [at_.locate_eq located] at wrote
    split at wrote
    · cases wrote
    · rename_i old stands
      split at wrote
      · cases wrote
      · cases wrote
        refine keeps_insert (at_.place_named path) (fun found => ?_) at_
        rw [stands]
        rintro ⟨⟩
        exact ⟨by simp, mine old⟩
    · rename_i free
      split at wrote
      · cases wrote
      · cases wrote
        exact keeps_insert (at_.place_named path) (by simp [free]) at_

/-- Copying a file changes the file at the place of the copy. -/
theorem keeps_copyFile {source : Path} (mine : ∀ old, touched (path.place here) (.file old))
    (copied : files.copyFile source path = .ok later) : Files.Keeps here touched files later := by
  rw [copyFile] at copied
  split at copied
  · cases copied
  · cases copied
  · split at copied
    · cases copied
    · rename_i emptied wrote
      split at copied
      · cases copied
      · exact trans_of (Files.Keeps here touched) (keeps_writeFile mine wrote)
          (keeps_writeFile mine copied)

/-- Appending changes the file at the location. -/
theorem keeps_append {content : ByteArray} (mine : ∀ old, touched location (.file old)) :
    Files.Keeps here touched files (files.append location content) := by
  intro at_
  rw [append]
  split
  · rename_i old stands
    refine keeps_insert (at_.named location _ stands) (fun found => ?_) at_
    rw [stands]
    rintro ⟨⟩
    exact ⟨by simp, mine old⟩
  · exact refl_of (Files.Keeps here touched) files at_

/-- Removing a file changes what stands at its place. -/
theorem keeps_removeFile (mine : ∀ entry, touched (path.place here) entry)
    (removed : files.removeFile path = .ok later) : Files.Keeps here touched files later := by
  intro at_
  rw [removeFile] at removed
  split at removed
  · cases removed
  · rename_i location slashed located
    rw [at_.locate_eq located] at removed
    split at removed
    · cases removed
    · cases removed
    · split at removed
      · cases removed
      · cases removed
        refine keeps_restrict (fun place entry dropped => ?_) at_
        rw [of_decide_eq_false dropped |> not_not.mp]
        exact mine entry

/-- Removing a directory changes what stands at its place and below. -/
theorem keeps_removeTree (mine : ∀ place entry, path.place here <+: place → touched place entry)
    (removed : files.removeTree path = .ok later) : Files.Keeps here touched files later := by
  intro at_
  rw [removeTree] at removed
  split at removed
  · cases removed
  · rename_i location slashed located
    rw [at_.locate_eq located] at removed
    split at removed
    · cases removed
    · cases removed
    · cases removed
      refine keeps_restrict (fun place entry dropped => mine place entry ?_) at_
      simpa using dropped

/-- A file is read where one is found. -/
theorem readFile_eq_ok {content : ByteArray} :
    files.readFile path = .ok content ↔ files.stat path = .ok (.file content) := by
  rw [readFile]
  split <;> simp_all

/-- What is found at a path is still found when neither it nor a directory was touched. -/
theorem Spares.stat {entry : Entry} (spared : files.Spares touched later)
    (here_eq : later.here = files.here) (directories : ∀ place, ¬touched place .directory)
    (apart : ¬touched (path.place files.here) entry) (found : files.stat path = .ok entry) :
    later.stat path = .ok entry := by
  rw [Files.stat] at found
  split at found
  · cases found
  · rename_i location slashed located
    rw [Files.stat, locate_of_directories (fun place => spared place _ (directories place)) here_eq
      located]
    rw [← locate_eq_place located] at apart
    split at found
    · cases found
    · rename_i stands
      cases found
      simp [spared _ _ apart stands]
    · rename_i content stands
      split at found
      · cases found
      · rename_i plain
        cases found
        simp [spared _ _ apart stands, plain]

end Files

namespace FileM

variable {α : Type} {here : Location} {touched : Location → Entry → Prop}

/-! ## Actions -/

/-- A look changes nothing. -/
theorem moves_look {relation : Files → Files → Prop} [Std.Refl relation]
    (view : Files → Except IoCause α) : Moves relation (look view) := by
  refine Action.moves_get_bind fun files => ?_
  split <;> exact refl_of relation files

/-- A change leads to what it makes of the files, or nowhere. -/
theorem related_change {relation : Files → Files → Prop} [Std.Refl relation]
    {update : Files → Except IoCause Files} {files : Files}
    (related : ∀ later, update files = .ok later → relation files later) :
    relation files ((change update).run files).2 := by
  rw [change, Action.run_get_bind]
  split
  · rename_i later updated
    exact related later updated
  · exact refl_of relation files

/-- A change moves as what it makes of the files. -/
theorem moves_change {relation : Files → Files → Prop} [Std.Refl relation]
    {update : Files → Except IoCause Files}
    (related : ∀ files later, update files = .ok later → relation files later) :
    Moves relation (change update) :=
  fun files => related_change (related files)

/-- Making directories changes nothing that stands. -/
theorem keeps_makeDirectories (depth : Nat) (path : Path) :
    Moves (Files.Keeps here touched) (makeDirectories depth path) := by
  induction depth generalizing path with
  | zero => exact Action.moves_throw _
  | succ depth ih =>
    have refused : ∀ cause : IoCause, Moves (Files.Keeps here touched) (do
        if !(← get).isDirectory path then throw cause else pure () : FileM Unit) := by
      intro cause
      refine Action.moves_get_bind fun files => ?_
      split <;> exact refl_of (Files.Keeps here touched) files
    rw [makeDirectories]
    split
    · exact Action.moves_pure _
    · refine Action.moves_get_bind fun files => ?_
      split
      · rename_i later made
        exact Files.keeps_makeDirectory made
      · split
        · exact refl_of (Files.Keeps here touched) files
        · rename_i parent _
          refine (ih parent).bind (fun _ => Action.moves_get_bind fun files => ?_) files
          split
          · rename_i later made
            exact Files.keeps_makeDirectory made
          · exact refused _ files
      · exact refused _ files

/-- Making the directories of a path changes nothing that stands. -/
theorem keeps_ensureDirectory (path : Path) :
    Moves (Files.Keeps here touched) (ensureDirectory path) :=
  keeps_makeDirectories _ path

/-- Making the directories that a path lies in changes nothing that stands. -/
theorem keeps_ensureParent (path : Path) :
    Moves (Files.Keeps here touched) (ensureParent path) := by
  rw [ensureParent]
  split
  · exact keeps_ensureDirectory _
  · exact Action.moves_pure _

/-- Copying changes files at and below the place of the copy. -/
theorem keeps_copyNode (depth : Nat) (source target : Path)
    (mine : ∀ place old, target.place here <+: place → touched place (.file old)) :
    Moves (Files.Keeps here touched) (copyNode depth source target) := by
  induction depth generalizing source target with
  | zero => exact Action.moves_throw _
  | succ depth ih =>
    rw [copyNode]
    refine (moves_look _).bind fun entry => ?_
    split
    · refine (keeps_ensureDirectory _).bind fun _ => Action.moves_get_bind fun files at_ => ?_
      -- The names are read from files whose names are steps, so the copies lie below the target.
      have copies : Moves (Files.Keeps here touched) ((files.children source).foldlM
          (fun copied name => do
            return copied + (← copyNode depth (source.join ⟨name⟩) (target.join ⟨name⟩))) 0) := by
        refine Action.moves_foldlM (fun name member copied => ?_) 0
        refine (ih _ _ fun place old within => mine place old ?_).bind fun _ => Action.moves_pure _
        rw [(at_.children_named source name member).place_join] at within
        exact (List.prefix_append _ _).trans within
      exact copies files at_
    · refine (keeps_ensureParent _).bind fun _ => Moves.bind ?_ fun _ => Action.moves_pure _
      exact moves_change fun files later copied =>
        Files.keeps_copyFile (fun old => mine _ old List.prefix_rfl) copied

/-- Copying a tree changes files at and below the place of the copy. -/
theorem keeps_copyTree (source target : Path)
    (mine : ∀ place old, target.place here <+: place → touched place (.file old)) :
    Moves (Files.Keeps here touched) (copyTree source target) := by
  refine Action.moves_get_bind fun files => ?_
  split
  · exact refl_of (Files.Keeps here touched) files
  · refine keeps_copyNode _ _ _ (fun place old within => mine place old ?_) files
    rwa [Path.place_join rfl] at within

end FileM

end PageBuild
