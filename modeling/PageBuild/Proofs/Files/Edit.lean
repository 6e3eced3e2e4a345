import Mathlib.Logic.Relation
import PageBuild.Proofs.Files.Frame
import PageBuild.Proofs.Files.Way

/-!
# Edits

Every change of files is an edit at one place: a directory is made where nothing stands, a file is
written where no directory stands, a file is removed, or a directory is removed with all below it.
`Files.Edits allowed` says that files become others by edits of some kinds only, one after the
other; what edits of these kinds cannot reach stays as it was.
-/
namespace PageBuild

open PageBuild.Action (Moves Under)

/-- Whether paths are followed from a directory in a tree of names in which everything stands in a
directory. -/
structure Files.IsSound (here : Location) (files : Files) : Prop extends files.At here where
  closed : files.tree.IsClosed

namespace Files

variable {here location place : Location} {files later : Files} {path : Path} {slashed : Bool}

/-- A change at one place. -/
inductive Edit where
  /-- A directory is made. -/
  | make (place : Location)
  /-- A file is written. -/
  | write (place : Location) (content : ByteArray)
  /-- A file is removed. -/
  | remove (place : Location)
  /-- A directory is removed with all below it. -/
  | clear (place : Location)

/-- Whether an edit takes files to others. -/
inductive Edit.Applies : Edit → Files → Files → Prop
  | make {files : Files} {place : Location} (named : ∀ name ∈ place, Path.IsName name)
      (free : files.tree.find? place = none)
      (above : files.tree.find? place.dropLast = some .directory) :
    (make place).Applies files (files.insert place .directory)
  | write {files : Files} {place : Location} {content : ByteArray}
      (named : ∀ name ∈ place, Path.IsName name)
      (free : files.tree.find? place ≠ some .directory)
      (above : files.tree.find? place.dropLast = some .directory) :
    (write place content).Applies files (files.insert place (.file content))
  | remove {files : Files} {place : Location} {content : ByteArray}
      (stands : files.tree.find? place = some (.file content)) :
    (remove place).Applies files { files with tree := files.tree.erase place }
  | clear {files : Files} {place : Location} (stands : files.tree.find? place = some .directory) :
    (clear place).Applies files { files with tree := files.tree.eraseBelow place }

/-- Whether files become others by edits of some kinds. -/
def Edits (allowed : Edit → Prop) : Files → Files → Prop :=
  Relation.ReflTransGen fun before after => ∃ edit, allowed edit ∧ edit.Applies before after

variable {allowed other : Edit → Prop} {edit : Edit}

instance : IsPreorder Files (Edits allowed) :=
  inferInstanceAs (IsPreorder Files (Relation.ReflTransGen _))

/-- One edit. -/
theorem Edit.Applies.edits (applies : edit.Applies files later) (kind : allowed edit) :
    Edits allowed files later :=
  .single ⟨edit, kind, applies⟩

/-- Edits of some kinds are edits of more kinds. -/
theorem Edits.mono (edits : Edits allowed files later) (kinds : ∀ edit, allowed edit → other edit) :
    Edits other files later :=
  Relation.ReflTransGen.mono (r := fun before after => ∃ edit, allowed edit ∧ edit.Applies before after)
    (fun _ _ ⟨edit, kind, applies⟩ => ⟨edit, kinds edit kind, applies⟩) _ _ edits

/-! ## Soundness -/

/-- Where no directory stands is below the root. -/
theorem ne_nil_of_free (free : files.tree.find? place ≠ some .directory) : place ≠ [] := by
  rintro rfl
  exact free (FileTree.find?_nil _)

/-- Where nothing stands no directory does. -/
theorem free_of_none (free : files.tree.find? place = none) :
    files.tree.find? place ≠ some .directory := by
  simp [free]

/-- Names put into a directory, in exchange for no directory, leave files sound. -/
theorem IsSound.insert {entry : Entry} (sound : files.IsSound here)
    (named : ∀ name ∈ place, Path.IsName name) (free : files.tree.find? place ≠ some .directory)
    (above : files.tree.find? place.dropLast = some .directory) :
    (files.insert place entry).IsSound here := by
  have below := ne_nil_of_free free
  refine ⟨⟨sound.here_eq, sound.named.insert named entry, sound.here_named⟩, ?_⟩
  intro location name found stands
  have kept : files.tree.find? location = some .directory →
      (files.insert place entry).tree.find? location = some .directory := by
    intro directory
    rw [Files.insert, FileTree.find?_insert _ _ _ _ below, if_neg, directory]
    rintro rfl
    exact free directory
  rw [Files.insert, FileTree.find?_insert _ _ _ _ below] at stands
  split at stands
  · rename_i same
    refine kept ?_
    rw [← above, ← same, List.dropLast_concat]
  · exact kept (sound.closed location name found stands)

/-- An edit leaves files sound. -/
theorem Edit.Applies.isSound (applies : edit.Applies files later) (sound : files.IsSound here) :
    later.IsSound here := by
  cases applies with
  | make named free above => exact sound.insert named (free_of_none free) above
  | write named free above => exact sound.insert named free above
  | @remove files place content stands =>
    refine ⟨⟨sound.here_eq, sound.named.restrict _, sound.here_named⟩, ?_⟩
    intro location name found within
    rw [FileTree.find?_erase _ _ _ (by simp)] at within
    split at within
    · cases within
    · have directory := sound.closed location name found within
      by_cases root : location = []
      · rw [root, FileTree.find?_nil]
      · rw [FileTree.find?_erase _ _ _ root, if_neg, directory]
        rintro rfl
        rw [stands] at directory
        cases directory
  | @clear files place stands =>
    refine ⟨⟨sound.here_eq, sound.named.restrict _, sound.here_named⟩, ?_⟩
    intro location name found within
    rw [FileTree.find?_eraseBelow _ _ _ (by simp)] at within
    split at within
    · cases within
    · rename_i apart
      have directory := sound.closed location name found within
      by_cases root : location = []
      · rw [root, FileTree.find?_nil]
      · rw [FileTree.find?_eraseBelow _ _ _ root, if_neg, directory]
        exact fun inside => apart (inside.trans (List.prefix_append _ _))

/-- Edits leave files sound. -/
theorem Edits.isSound (edits : Edits allowed files later) (sound : files.IsSound here) :
    later.IsSound here := by
  induction edits with
  | refl => exact sound
  | tail _ step ih =>
    obtain ⟨edit, -, applies⟩ := step
    exact applies.isSound ih

/-! ## What edits cannot reach -/

/-- Whether an edit changes nothing at a place. -/
def Edit.Misses (place : Location) : Edit → Prop
  | make other | write other _ | remove other => other ≠ place
  | clear other => ¬other <+: place

/-- An edit that misses a place leaves what stands there. -/
theorem Edit.Applies.find?_eq (applies : edit.Applies files later) (misses : edit.Misses place) :
    later.tree.find? place = files.tree.find? place := by
  by_cases root : place = []
  · rw [root, FileTree.find?_nil, FileTree.find?_nil]
  · cases applies with
    | make named free above =>
      rw [Files.insert, FileTree.find?_insert _ _ _ _ (ne_nil_of_free (free_of_none free)),
        if_neg (Ne.symm misses)]
    | write named free above =>
      rw [Files.insert, FileTree.find?_insert _ _ _ _ (ne_nil_of_free free),
        if_neg (Ne.symm misses)]
    | remove stands => rw [FileTree.find?_erase _ _ _ root, if_neg (Ne.symm misses)]
    | clear stands => rw [FileTree.find?_eraseBelow _ _ _ root, if_neg misses]

/-- Edits that miss a place leave what stands there. -/
theorem Edits.find?_eq (edits : Edits allowed files later)
    (misses : ∀ edit, allowed edit → edit.Misses place) :
    later.tree.find? place = files.tree.find? place := by
  induction edits with
  | refl => rfl
  | tail _ step ih =>
    obtain ⟨edit, kind, applies⟩ := step
    rw [applies.find?_eq (misses edit kind), ih]

/-- Where edits do no more than make a directory, all stands as before or a directory was made. -/
theorem Edits.find?_eq_or_made (edits : Edits allowed files later)
    (reaches : ∀ edit, allowed edit → edit.Misses place ∨ edit = .make place) :
    later.tree.find? place = files.tree.find? place ∨
      (files.tree.find? place = none ∧ later.tree.find? place = some .directory ∧
        allowed (.make place)) := by
  induction edits with
  | refl => exact .inl rfl
  | @tail middle last _ step ih =>
    obtain ⟨edit, kind, applies⟩ := step
    rcases reaches edit kind with misses | rfl
    · rwa [applies.find?_eq misses]
    · cases applies with
      | make named free above =>
        have made : (middle.insert place .directory).tree.find? place = some .directory := by
          rw [Files.insert, FileTree.find?_insert _ _ _ _ (ne_nil_of_free (free_of_none free)),
            if_pos rfl]
        rcases ih with before | ⟨-, stands, -⟩
        · exact .inr ⟨before ▸ free, made, kind⟩
        · rw [free] at stands
          cases stands

/-- A directory that edits do not remove stands. -/
theorem Edits.directory (edits : Edits allowed files later)
    (cleared : ∀ other, allowed (.clear other) → ¬other <+: place)
    (stands : files.tree.find? place = some .directory) :
    later.tree.find? place = some .directory := by
  induction edits with
  | refl => exact stands
  | tail _ step ih =>
    obtain ⟨edit, kind, applies⟩ := step
    by_cases misses : edit.Misses place
    · rw [applies.find?_eq misses, ih]
    · cases applies with
      | make named free above =>
        rw [not_not.mp misses, ih] at free
        cases free
      | write named free above =>
        rw [not_not.mp misses] at free
        exact absurd ih free
      | remove file =>
        rw [not_not.mp misses, ih] at file
        cases file
      | clear directory => exact absurd (not_not.mp misses) (cleared _ kind)

/-! ## Operations -/

/-- Pieces that can be followed in a sound tree lead to a directory, or to what stands in one. -/
theorem above_of_follow {tree : FileTree} {pieces : List String} (closed : tree.IsClosed)
    (followed : follow tree location pieces = .ok place)
    (starts : tree.find? location = some .directory ∨ pieces ≠ []) :
    tree.find? place = some .directory ∨ tree.find? place.dropLast = some .directory := by
  induction pieces generalizing location with
  | nil =>
    cases followed
    exact .inl (starts.resolve_right (by simp))
  | cons piece rest ih =>
    obtain ⟨stands, -, onward⟩ := follow_cons_eq_ok.mp followed
    have up : tree.find? location.dropLast = some .directory := by
      rcases List.eq_nil_or_concat location with rfl | ⟨above, name, rfl⟩
      · exact FileTree.find?_nil tree
      · rw [List.concat_eq_append] at stands ⊢
        rw [List.dropLast_concat]
        exact closed above name _ stands
    by_cases last : rest = []
    · subst last
      cases onward
      rw [Location.step]
      split
      · exact .inl stands
      · split
        · exact .inl up
        · rw [List.dropLast_concat]
          exact .inr stands
    · exact ih onward (.inr last)

/-- A path that has no step leads from the root. -/
theorem isAbsolute_of_steps (filled : path.text ≠ "") (none : steps path = []) :
    path.isAbsolute = true := by
  have empty : ∀ piece ∈ path.pieces, piece = "" := by
    simpa [steps, List.dropWhile_eq_nil_iff] using none
  have joined : Text.join '/' path.pieces = path.text := Text.join_split path.text
  cases pieces : path.pieces with
  | nil => exact absurd pieces (Text.split_ne_nil path.text)
  | cons first rest =>
    obtain ⟨rfl, -⟩ := List.forall_mem_cons.mp (pieces ▸ empty)
    cases rest with
    | nil =>
      rw [pieces] at joined
      exact absurd joined.symm filled
    | cons second rest => exact Path.isAbsolute_iff_pieces.mpr ⟨second, rest, pieces⟩

/-- What is not a directory and can be located stands, or would stand, in a directory. -/
theorem IsSound.above (sound : files.IsSound here)
    (located : files.locate path = .ok (location, slashed))
    (free : files.tree.find? location ≠ some .directory) :
    files.tree.find? location.dropLast = some .directory := by
  obtain ⟨-, filled, -, followed, -⟩ := locate_eq_ok.mp located
  refine (above_of_follow sound.closed followed ?_).resolve_left free
  by_cases still : steps path = []
  · rw [isAbsolute_of_steps filled still, if_pos rfl]
    exact .inl (FileTree.find?_nil _)
  · exact .inr still

/-- To make a directory is an edit at its place. -/
theorem applies_makeDirectory (sound : files.IsSound here)
    (made : files.makeDirectory path = .ok later) :
    (Edit.make (path.place here)).Applies files later := by
  rw [makeDirectory] at made
  split at made
  · cases made
  · rename_i location slashed located
    split at made
    · cases made
    · rename_i free
      cases made
      have above := sound.above located (free_of_none free)
      rw [sound.locate_eq located] at free above ⊢
      exact .make (sound.place_named path) free above

/-- To write a file is an edit at its place. -/
theorem applies_writeFile {content : ByteArray} (sound : files.IsSound here)
    (wrote : files.writeFile path content = .ok later) :
    (Edit.write (path.place here) content).Applies files later := by
  rw [writeFile] at wrote
  split at wrote
  · cases wrote
  · rename_i location slashed located
    have applies : files.tree.find? location ≠ some .directory →
        (Edit.write (path.place here) content).Applies files
          (files.insert location (.file content)) := by
      intro free
      have above := sound.above located free
      rw [sound.locate_eq located] at free above ⊢
      exact .write (sound.place_named path) free above
    split at wrote
    · cases wrote
    · rename_i old stands
      split at wrote
      · cases wrote
      · cases wrote
        exact applies (by simp [stands])
    · rename_i free
      split at wrote
      · cases wrote
      · cases wrote
        exact applies (free_of_none free)

/-- To copy a file is to write twice at the place of the copy. -/
theorem edits_copyFile {source : Path} (sound : files.IsSound here)
    (writes : ∀ content, allowed (.write (path.place here) content))
    (copied : files.copyFile source path = .ok later) : Edits allowed files later := by
  rw [copyFile] at copied
  split at copied
  · cases copied
  · cases copied
  · split at copied
    · cases copied
    · rename_i emptied wrote
      have first := applies_writeFile sound wrote
      split at copied
      · cases copied
      · have second := applies_writeFile (first.isSound sound) copied
        exact trans_of (Edits allowed) (first.edits (writes _)) (second.edits (writes _))

/-- To copy a file leaves files sound. -/
theorem IsSound.of_copyFile {source : Path} (sound : files.IsSound here)
    (copied : files.copyFile source path = .ok later) : later.IsSound here :=
  (edits_copyFile sound (fun _ => trivial) copied : Edits (fun _ => True) files later).isSound sound

/-- To append to a file is to write it. -/
theorem edits_append {more : ByteArray} (sound : files.IsSound here)
    (writes : ∀ content, allowed (.write location content)) :
    Edits allowed files (files.append location more) := by
  rw [append]
  split
  · rename_i old stands
    have free : files.tree.find? location ≠ some .directory := by simp [stands]
    have above : files.tree.find? location.dropLast = some .directory := by
      rcases List.eq_nil_or_concat location with rfl | ⟨parent, name, rfl⟩
      · exact FileTree.find?_nil _
      · rw [List.concat_eq_append] at stands ⊢
        rw [List.dropLast_concat]
        exact sound.closed parent name _ stands
    exact (Edit.Applies.write (sound.named location _ stands) free above).edits (writes _)
  · exact refl_of (Edits allowed) files

/-- To remove a file is an edit at its place. -/
theorem applies_removeFile (sound : files.IsSound here)
    (removed : files.removeFile path = .ok later) :
    (Edit.remove (path.place here)).Applies files later := by
  rw [removeFile] at removed
  split at removed
  · cases removed
  · rename_i location slashed located
    split at removed
    · cases removed
    · cases removed
    · rename_i content stands
      split at removed
      · cases removed
      · cases removed
        rw [sound.locate_eq located] at stands ⊢
        exact .remove stands

/-- To remove a tree is an edit at its place. -/
theorem applies_removeTree (sound : files.IsSound here)
    (removed : files.removeTree path = .ok later) :
    (Edit.clear (path.place here)).Applies files later := by
  rw [removeTree] at removed
  split at removed
  · cases removed
  · rename_i location slashed located
    split at removed
    · cases removed
    · cases removed
    · rename_i stands
      cases removed
      rw [sound.locate_eq located] at stands ⊢
      exact .clear stands

/-- Whether sound files become others by edits of some kinds, which leave them sound. -/
abbrev Performs (here : Location) (allowed : Edit → Prop) : Files → Files → Prop :=
  Under (IsSound here) (Edits allowed)

/-- What edits of some kinds do, edits of more kinds do. -/
theorem Performs.mono (performs : Performs here allowed files later)
    (kinds : ∀ edit, allowed edit → other edit) : Performs here other files later :=
  fun sound => ⟨(performs sound).1, (performs sound).2.mono kinds⟩

/-- Edits of sound files leave these sound. -/
theorem performs_of_edits (edits : files.IsSound here → Edits allowed files later) :
    Performs here allowed files later :=
  fun sound => ⟨(edits sound).isSound sound, edits sound⟩

end Files

namespace FileM

variable {here : Location} {allowed : Files.Edit → Prop} {path source target : Path}

/-! ## Actions -/

/-- To make the directories of a path is to make some that it leads through. -/
theorem performs_makeDirectories (depth : Nat)
    (makes : ∀ place, path.Leads here place → allowed (.make place)) :
    Moves (Files.Performs here allowed) (makeDirectories depth path) := by
  induction depth generalizing path with
  | zero => exact Action.moves_throw _
  | succ depth ih =>
    have made : ∀ files later : Files, files.makeDirectory path = .ok later →
        Files.Performs here allowed files later := fun files later made =>
      Files.performs_of_edits fun sound =>
        (Files.applies_makeDirectory sound made).edits (makes _ (path.leads_place here))
    have refused : ∀ cause : IoCause, Moves (Files.Performs here allowed) (do
        if !(← get).isDirectory path then throw cause else pure () : FileM Unit) := by
      intro cause
      refine Action.moves_get_bind fun files => ?_
      split <;> exact refl_of (Files.Performs here allowed) files
    rw [makeDirectories]
    split
    · exact Action.moves_pure _
    · refine Action.moves_get_bind fun files => ?_
      split
      · rename_i later ended
        exact made files later ended
      · split
        · exact refl_of (Files.Performs here allowed) files
        · rename_i parent found
          refine (ih fun place leads => makes place (leads.of_parent? found)).bind
            (fun _ => Action.moves_get_bind fun files => ?_) files
          split
          · rename_i later ended
            exact made files later ended
          · exact refused _ files
      · exact refused _ files

/-- To make the directories that a path lies in is to make some that the path to the last of them
leads through. -/
theorem performs_ensureParent
    (makes : ∀ parent, path.parent? = some parent →
      ∀ place, parent.Leads here place → allowed (.make place)) :
    Moves (Files.Performs here allowed) (ensureParent path) := by
  rw [ensureParent]
  split
  · rename_i parent found
    exact performs_makeDirectories _ (makes parent found)
  · exact Action.moves_pure _

/-- To copy what stands at a path is to make and write at and below the place of the copy, and to
make directories on the way to it. -/
theorem performs_copyNode (depth : Nat)
    (makes : ∀ place, target.Leads here place → allowed (.make place))
    (below : ∀ place, target.place here <+: place →
      allowed (.make place) ∧ ∀ content, allowed (.write place content)) :
    Moves (Files.Performs here allowed) (copyNode depth source target) := by
  induction depth generalizing source target with
  | zero => exact Action.moves_throw _
  | succ depth ih =>
    rw [copyNode]
    refine (moves_look _).bind fun entry => ?_
    split
    · refine (performs_makeDirectories _ makes).bind fun _ =>
        Action.moves_get_bind fun files sound => ?_
      have copies : Moves (Files.Performs here allowed) ((files.children source).foldlM
          (fun copied name => do
            return copied + (← copyNode depth (source.join ⟨name⟩) (target.join ⟨name⟩))) 0) := by
        refine Action.moves_foldlM (fun name member copied => ?_) 0
        have isName := sound.children_named source name member
        have inside : target.place here <+: (target.join ⟨name⟩).place here := by
          rw [isName.place_join]
          exact List.prefix_append _ _
        refine (ih (fun place leads => ?_) fun place within => below place (inside.trans within)).bind
          fun _ => Action.moves_pure _
        rcases leads.of_join_single isName.pieces isName.isAbsolute with leads | rfl
        · exact makes place leads
        · exact (below _ inside).1
      exact copies files sound
    · refine (performs_ensureParent fun parent found place leads =>
        makes place (leads.of_parent? found)).bind fun _ => Moves.bind ?_ fun _ => Action.moves_pure _
      exact moves_change fun files later copied => Files.performs_of_edits fun sound =>
        Files.edits_copyFile sound (fun content => (below _ List.prefix_rfl).2 content) copied

/-- To copy a tree is to make and write at and below the place of the copy, and to make directories
on the way to it. -/
theorem performs_copyTree
    (makes : ∀ place, target.Leads here place → allowed (.make place))
    (below : ∀ place, target.place here <+: place →
      allowed (.make place) ∧ ∀ content, allowed (.write place content)) :
    Moves (Files.Performs here allowed) (copyTree source target) := by
  have same : (target.join ⟨""⟩).place here = target.place here := by
    rw [Path.place_join rfl]
    rfl
  refine Action.moves_get_bind fun files => ?_
  split
  · exact refl_of (Files.Performs here allowed) files
  · refine performs_copyNode _ (fun place leads => ?_) (by rwa [same]) files
    rcases leads.of_join_single (by decide) rfl with leads | rfl
    · exact makes place leads
    · exact same ▸ makes _ (target.leads_place here)

end FileM

end PageBuild
