import PageBuild.Proofs.Files.Edit

/-!
# Results of file operations

When an operation on one place works out, and the files that it then leaves. A file is copied with
the content that its source has, unless the copy is made onto the source.
-/
namespace PageBuild.Files

variable {here : Location} {files later : Files} {path source : Path} {content : ByteArray}

/-- A directory is made at a path that can be located, where nothing stands. -/
theorem makeDirectory_eq_ok :
    files.makeDirectory path = .ok later ↔
      ∃ location slashed, files.locate path = .ok (location, slashed) ∧
        files.tree.find? location = none ∧ later = files.insert location .directory := by
  rw [makeDirectory]
  cases files.locate path with
  | error cause => simp
  | ok found =>
    obtain ⟨location, slashed⟩ := found
    cases stands : files.tree.find? location <;> simp [stands, eq_comm]

/-- A file is written at a path that can be located and does not end in a slash, where no directory
stands. -/
theorem writeFile_eq_ok :
    files.writeFile path content = .ok later ↔
      ∃ location, files.locate path = .ok (location, false) ∧
        files.tree.find? location ≠ some .directory ∧
        later = files.insert location (.file content) := by
  rw [writeFile]
  cases files.locate path with
  | error cause => simp
  | ok found =>
    obtain ⟨location, slashed⟩ := found
    cases stands : files.tree.find? location with
    | none => cases slashed <;> simp [stands, eq_comm]
    | some entry => cases entry <;> cases slashed <;> simp [stands, eq_comm]

/-- A file is removed at a path that can be located and does not end in a slash. -/
theorem removeFile_eq_ok :
    files.removeFile path = .ok later ↔
      ∃ location content, files.locate path = .ok (location, false) ∧
        files.tree.find? location = some (.file content) ∧
        later = { files with tree := files.tree.erase location } := by
  rw [removeFile]
  cases files.locate path with
  | error cause => simp
  | ok found =>
    obtain ⟨location, slashed⟩ := found
    cases stands : files.tree.find? location with
    | none => simp [stands]
    | some entry => cases entry <;> cases slashed <;> simp [stands, eq_comm]

/-- A directory is removed, with all below it, at a path that can be located. -/
theorem removeTree_eq_ok :
    files.removeTree path = .ok later ↔
      ∃ location slashed, files.locate path = .ok (location, slashed) ∧
        files.tree.find? location = some .directory ∧
        later = { files with tree := files.tree.eraseBelow location } := by
  rw [removeTree]
  cases files.locate path with
  | error cause => simp
  | ok found =>
    obtain ⟨location, slashed⟩ := found
    cases stands : files.tree.find? location with
    | none => simp [stands]
    | some entry => cases entry <;> simp [stands, eq_comm]

/-- A file stands where a path that does not end in a slash leads to it. -/
theorem stat_eq_file :
    files.stat path = .ok (.file content) ↔
      ∃ location, files.locate path = .ok (location, false) ∧
        files.tree.find? location = some (.file content) := by
  rw [stat]
  cases files.locate path with
  | error cause => simp
  | ok found =>
    obtain ⟨location, slashed⟩ := found
    cases stands : files.tree.find? location with
    | none => simp [stands]
    | some entry => cases entry <;> cases slashed <;> simp [stands]

/-- A directory stands where a path leads to it. -/
theorem stat_eq_directory :
    files.stat path = .ok .directory ↔
      ∃ location slashed, files.locate path = .ok (location, slashed) ∧
        files.tree.find? location = some .directory := by
  rw [stat]
  cases files.locate path with
  | error cause => simp
  | ok found =>
    obtain ⟨location, slashed⟩ := found
    cases stands : files.tree.find? location with
    | none => simp [stands]
    | some entry => cases entry <;> cases slashed <;> simp [stands]

/-- Whether a directory stands at a path. -/
theorem isDirectory_iff : files.isDirectory path = true ↔ files.stat path = .ok .directory := by
  rw [isDirectory]
  cases files.stat path with
  | error cause => simp
  | ok entry => cases entry <;> simp

/-- A text is read where a file holds one. -/
theorem readText_eq_ok {text : String} :
    files.readText path = .ok text ↔
      ∃ content, files.stat path = .ok (.file content) ∧ String.fromUTF8? content = some text := by
  simp only [← readFile_eq_ok, readText]
  cases files.readFile path with
  | error cause => simp
  | ok content => cases decoded : String.fromUTF8? content <;> simp [decoded]

/-- What is found elsewhere after something was appended to a file. -/
theorem find?_append {location place : Location} {more : ByteArray} (other : place ≠ location) :
    (files.append location more).tree.find? place = files.tree.find? place := by
  rw [append]
  split
  · rename_i old stands
    have free : files.tree.find? location ≠ some .directory := by simp [stands]
    have below : location ≠ [] := ne_nil_of_free free
    rw [insert, FileTree.find?_insert _ _ _ _ below, if_neg other]
  · rfl

/-- What a directory stands in is a directory. -/
theorem IsSound.directory_dropLast {place : Location} (sound : files.IsSound here)
    (stands : files.tree.find? place = some .directory) :
    files.tree.find? place.dropLast = some .directory := by
  rcases List.eq_nil_or_concat place with rfl | ⟨above, name, rfl⟩
  · exact stands
  · rw [List.concat_eq_append] at stands ⊢
    rw [List.dropLast_concat]
    exact sound.closed above name _ stands

/-- What is found after a file was written. -/
theorem find?_of_writeFile (at_ : files.At here) (wrote : files.writeFile path content = .ok later)
    (place : Location) :
    later.tree.find? place =
      if place = path.place here then some (.file content) else files.tree.find? place := by
  obtain ⟨location, located, free, rfl⟩ := writeFile_eq_ok.mp wrote
  rw [insert, FileTree.find?_insert _ _ _ _ (ne_nil_of_free free), at_.locate_eq located]

/-- What is found after a file was removed. -/
theorem find?_of_removeFile (at_ : files.At here) (removed : files.removeFile path = .ok later)
    (place : Location) :
    later.tree.find? place =
      if place = path.place here then none else files.tree.find? place := by
  obtain ⟨location, content, located, stands, rfl⟩ := removeFile_eq_ok.mp removed
  have below : location ≠ [] := by
    rintro rfl
    simp [FileTree.find?_nil] at stands
  rw [← at_.locate_eq located]
  by_cases root : place = []
  · rw [root, FileTree.find?_nil, FileTree.find?_nil, if_neg below.symm]
  · exact FileTree.find?_erase _ _ _ root

/-- What is found after a directory was removed. -/
theorem find?_of_removeTree (at_ : files.At here) (removed : files.removeTree path = .ok later)
    {place : Location} (below : place ≠ []) :
    later.tree.find? place =
      if path.place here <+: place then none else files.tree.find? place := by
  obtain ⟨location, slashed, located, -, rfl⟩ := removeTree_eq_ok.mp removed
  rw [← at_.locate_eq located]
  exact FileTree.find?_eraseBelow _ _ _ below

/-- What is found after a file was copied to another place. -/
theorem find?_of_copyFile (sound : files.IsSound here)
    (apart : source.place here ≠ path.place here) (copied : files.copyFile source path = .ok later) :
    ∃ content, files.tree.find? (source.place here) = some (.file content) ∧
      ∀ place, later.tree.find? place =
        if place = path.place here then some (.file content) else files.tree.find? place := by
  rw [copyFile] at copied
  split at copied
  · cases copied
  · cases copied
  · rename_i content found
    obtain ⟨location, located, stands⟩ := stat_eq_file.mp found
    rw [sound.locate_eq located] at stands
    refine ⟨content, stands, ?_⟩
    split at copied
    · cases copied
    · rename_i emptied wrote
      have emptied_at : emptied.At here :=
        ((applies_writeFile sound wrote).isSound sound).toAt
      split at copied
      · cases copied
      · rename_i read found
        obtain ⟨location, located, stands'⟩ := stat_eq_file.mp (readFile_eq_ok.mp found)
        rw [emptied_at.locate_eq located, find?_of_writeFile sound.toAt wrote, if_neg apart,
          stands] at stands'
        cases stands'
        intro place
        rw [find?_of_writeFile emptied_at copied, find?_of_writeFile sound.toAt wrote]
        split <;> rfl

/-- A file that was written is found by its path. -/
theorem stat_of_writeFile (wrote : files.writeFile path content = .ok later) :
    later.stat path = .ok (.file content) := by
  obtain ⟨location, located, free, rfl⟩ := writeFile_eq_ok.mp wrote
  have below : location ≠ [] := ne_nil_of_free free
  have kept : ∀ place, files.tree.find? place = some .directory →
      (files.insert location (.file content)).tree.find? place = some .directory := by
    intro place stands
    have other : place ≠ location := by
      rintro rfl
      exact free stands
    rw [insert, FileTree.find?_insert _ _ _ _ below, if_neg other, stands]
  refine stat_eq_file.mpr ⟨location, locate_of_directories kept rfl located, ?_⟩
  rw [insert, FileTree.find?_insert _ _ _ _ below, if_pos rfl]

/-- A file that was copied is found by the path of its copy, whatever it holds. -/
theorem isFile_of_copyFile (copied : files.copyFile source path = .ok later) :
    later.isFile path = true := by
  rw [copyFile] at copied
  split at copied
  · cases copied
  · cases copied
  · split at copied
    · cases copied
    · split at copied
      · cases copied
      · rw [isFile, stat_of_writeFile copied]

/-- A file that was copied to another place is found by the path of its copy. -/
theorem stat_of_copyFile (at_ : files.At here)
    (stands : files.tree.find? (source.place here) = some (.file content))
    (apart : source.place here ≠ path.place here) (copied : files.copyFile source path = .ok later) :
    later.stat path = .ok (.file content) := by
  rw [copyFile] at copied
  split at copied
  · cases copied
  · cases copied
  · split at copied
    · cases copied
    · rename_i emptied wrote
      have kept : Files.Keeps here (fun _ _ => True) files emptied :=
        keeps_writeFile (fun _ => trivial) wrote
      have emptied_at : emptied.At here := (kept at_).1
      split at copied
      · cases copied
      · rename_i read found
        obtain ⟨location, located, still⟩ := stat_eq_file.mp (readFile_eq_ok.mp found)
        rw [emptied_at.locate_eq located, find?_of_writeFile at_ wrote, if_neg apart, stands] at still
        cases still
        exact stat_of_writeFile copied

end PageBuild.Files

namespace PageBuild.FileM

open PageBuild.Action (Moves)

variable {α : Type} {here : Location} {files later : Files} {path : Path}

/-- A look works out if what is looked at is there. -/
theorem run_look_eq_ok {view : Files → Except IoCause α} {value : α} :
    (look view).run files = (.ok value, later) ↔ view files = .ok value ∧ later = files := by
  rw [look, Action.run_get_bind]
  constructor
  · intro ran
    split at ran
    · rename_i seen viewed
      cases ran
      exact ⟨viewed, rfl⟩
    · cases ran
  · rintro ⟨viewed, rfl⟩
    rw [viewed]
    rfl

/-- A change works out if the files can be changed. -/
theorem run_change_eq_ok {update : Files → Except IoCause Files} :
    (change update).run files = (.ok (), later) ↔ update files = .ok later := by
  rw [change, Action.run_get_bind]
  constructor
  · intro ran
    split at ran
    · rename_i changed updated
      cases ran
      exact updated
    · cases ran
  · intro updated
    rw [updated]
    rfl

/-- Where a directory stands none is made. -/
theorem run_ensureDirectory (stands : files.isDirectory path = true) :
    (ensureDirectory path).run files = (.ok (), files) := by
  obtain ⟨location, slashed, located, directory⟩ :=
    Files.stat_eq_directory.mp (Files.isDirectory_iff.mp stands)
  have refused : files.makeDirectory path = .error .alreadyExists := by
    rw [Files.makeDirectory, located]
    dsimp only
    rw [directory]
  rw [ensureDirectory, makeDirectories]
  split
  · rfl
  · rw [Action.run_get_bind, refused]
    dsimp only
    rw [Action.run_get_bind, stands]
    rfl

/-- A directory is made where only it is missing. -/
theorem run_ensureDirectory_of_made (filled : path.text ≠ "")
    (made : files.makeDirectory path = .ok later) :
    (ensureDirectory path).run files = (.ok (), later) := by
  rw [ensureDirectory, makeDirectories, if_neg filled, Action.run_get_bind, made]
  rfl

/-- Where a file stands no directory is made. -/
theorem run_ensureDirectory_of_file {location : Location} {slashed : Bool} {content : ByteArray}
    (located : files.locate path = .ok (location, slashed))
    (stands : files.tree.find? location = some (.file content)) :
    (ensureDirectory path).run files = (.error .alreadyExists, files) := by
  have refused : files.makeDirectory path = .error .alreadyExists := by
    rw [Files.makeDirectory, located]
    dsimp only
    rw [stands]
  have no_directory : files.isDirectory path = false := by
    rw [Bool.eq_false_iff, ne_eq, Files.isDirectory_iff, Files.stat_eq_directory, located]
    rintro ⟨other, cut, same, is_directory⟩
    cases same
    rw [stands] at is_directory
    cases is_directory
  have filled : path.text ≠ "" := (Files.locate_eq_ok.mp located).2.1
  rw [ensureDirectory, makeDirectories, if_neg filled, Action.run_get_bind, refused]
  dsimp only
  rw [Action.run_get_bind, no_directory]
  rfl

/-- Once the directories of a path are made, one stands there. -/
theorem isDirectory_of_makeDirectories {depth : Nat} (filled : path.text ≠ "")
    (ran : (makeDirectories depth path).run files = (.ok (), later)) :
    later.isDirectory path = true := by
  have made : ∀ first last : Files, first.makeDirectory path = .ok last →
      last.isDirectory path = true := by
    intro first last made
    obtain ⟨location, slashed, located, free, rfl⟩ := Files.makeDirectory_eq_ok.mp made
    have found : ∀ place, (first.insert location .directory).tree.find? place =
        if place = location then some .directory else first.tree.find? place :=
      fun place => FileTree.find?_insert _ _ _ _ (Files.ne_nil_of_free (Files.free_of_none free))
    have kept : ∀ place, first.tree.find? place = some .directory →
        (first.insert location .directory).tree.find? place = some .directory := by
      intro place stands
      rw [found, stands, ite_self]
    rw [Files.isDirectory_iff, Files.stat_eq_directory]
    exact ⟨location, slashed, Files.locate_of_directories kept rfl located, by rw [found, if_pos rfl]⟩
  have refused : ∀ (cause : IoCause) (first last : Files),
      (do if !(← get).isDirectory path then throw cause else pure () : FileM Unit).run first =
        (.ok (), last) → last.isDirectory path = true := by
    intro cause first last ran
    rw [Action.run_get_bind] at ran
    split at ran
    · cases ran
    · rename_i stands
      cases ran
      simpa using stands
  cases depth with
  | zero => cases ran
  | succ depth =>
    rw [makeDirectories, if_neg filled, Action.run_get_bind] at ran
    split at ran
    · rename_i last first
      cases ran
      exact made files _ first
    · split at ran
      · cases ran
      · rename_i parent found
        obtain ⟨done, middle, parents, ran⟩ := Action.of_run_bind_ok ran
        rw [Action.run_get_bind] at ran
        split at ran
        · rename_i last second
          cases ran
          exact made middle _ second
        · exact refused _ middle later ran
    · exact refused _ files later ran

/-- Once the directories of a path are made, one stands at its place. -/
theorem directory_of_makeDirectories {depth : Nat} (filled : path.text ≠ "")
    (at_ : files.At here) (ran : (makeDirectories depth path).run files = (.ok (), later)) :
    later.tree.find? (path.place here) = some .directory := by
  obtain ⟨location, slashed, located, stands⟩ := Files.stat_eq_directory.mp
    (Files.isDirectory_iff.mp (isDirectory_of_makeDirectories filled ran))
  have kept : Moves (Files.Keeps here fun _ _ => False) (makeDirectories depth path) :=
    keeps_makeDirectories depth path
  have later_at := (kept files at_).1
  rw [ran] at later_at
  rwa [later_at.locate_eq located] at stands

end PageBuild.FileM
