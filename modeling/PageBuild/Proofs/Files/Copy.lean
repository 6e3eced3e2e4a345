import Mathlib.Algebra.Order.Group.Nat
import PageBuild.Proofs.Files.Result
import PageBuild.Proofs.Files.Walk

/-!
# Copies of trees

A tree is copied to where nothing stands. As long as source and target lie apart, the way to the
target makes nothing in the source, and the way enters the target only at its end, the source stays
as it was and the copy holds what the source holds, whatever the order of the two in the tree.
-/
namespace PageBuild

open PageBuild.Action (Moves)

/-! ## Numbers of files -/

namespace FileTree

variable {tree later : FileTree} {location : Location} {count : Nat}

/-- Whether so many files stand at and below a location. -/
def HasFiles (tree : FileTree) (location : Location) (count : Nat) : Prop :=
  ∃ found : List (List String), found.Nodup ∧ found.length = count ∧
    ∀ names, names ∈ found ↔ ∃ content, tree.find? (location ++ names) = some (.file content)

/-- The number of files is known from what is found. -/
theorem HasFiles.congr {other : Location} (has : tree.HasFiles location count)
    (same : ∀ names, later.find? (other ++ names) = tree.find? (location ++ names)) :
    later.HasFiles other count := by
  obtain ⟨found, nodup, length, mem⟩ := has
  exact ⟨found, nodup, length, fun names => by rw [mem, same]⟩

/-- There is one number of files. -/
theorem HasFiles.unique {other : Nat} (first : tree.HasFiles location count)
    (second : tree.HasFiles location other) : count = other := by
  obtain ⟨found, nodup, rfl, mem⟩ := first
  obtain ⟨found', nodup', rfl, mem'⟩ := second
  have same : found.Perm found' :=
    (List.perm_ext_iff_of_nodup nodup nodup').mpr fun names => by rw [mem, mem']
  exact same.length_eq

/-- A location does not come before itself. -/
theorem not_before_self (location : Location) : ¬Location.before location location := by
  simp [Location.before, Std.ReflCmp.compare_self]

/-- The files below a directory are counted among what stands there. -/
theorem hasFiles_below (stands : tree.find? location = some .directory) :
    tree.HasFiles location ((tree.below location).countP fun item => item.2.isFile) := by
  refine ⟨((tree.below location).filter fun item => item.2.isFile).map (·.1), ?_, ?_, ?_⟩
  · refine List.pairwise_map.mpr (((pairwise_below tree location).filter _).imp ?_)
    intro a b before same
    rw [same] at before
    exact not_before_self _ before
  · rw [List.length_map, List.countP_eq_length_filter]
  · intro names
    simp only [List.mem_map, List.mem_filter, Prod.exists, exists_and_right, exists_eq_right,
      mem_below]
    constructor
    · rintro ⟨entry, ⟨-, found⟩, isFile⟩
      cases entry with
      | file content => exact ⟨content, found⟩
      | directory => cases isFile
    · rintro ⟨content, found⟩
      refine ⟨.file content, ⟨?_, found⟩, rfl⟩
      rintro rfl
      rw [List.append_nil, stands] at found
      cases found

/-- A file is one file. -/
theorem hasFiles_file {content : ByteArray} (closed : tree.IsClosed)
    (stands : tree.find? location = some (.file content)) : tree.HasFiles location 1 := by
  refine ⟨[[]], List.nodup_singleton _, rfl, fun names => ?_⟩
  rw [List.mem_singleton]
  constructor
  · rintro rfl
    exact ⟨content, by rwa [List.append_nil]⟩
  · rintro ⟨other, found⟩
    by_contra below
    rw [closed.directory_of_below below found] at stands
    cases stands

/-- No name is twice in a directory. -/
theorem nodup_children (tree : FileTree) (location : Location) : (tree.children location).Nodup := by
  rw [children, List.Nodup, List.pairwise_filterMap]
  refine (pairwise_below tree location).imp fun {a b} before name first other second same => ?_
  obtain ⟨names, entry⟩ := a
  obtain ⟨others, entry'⟩ := b
  dsimp only at first second before
  split at first
  · split at second
    · cases first
      cases second
      rw [same] at before
      exact not_before_self _ before
    · cases second
  · cases first

end FileTree

/-! ## Edits at a target -/

namespace Files

variable {here : Location} {source target : Path} {files later : Files} {name other : String}
  {place : Location}

/-- Whether an edit makes a directory on the way to a target, or changes what is at or below its
place. -/
def Edit.IsWithin (here : Location) (target : Path) : Edit → Prop
  | make place => target.Leads here place ∨ target.place here <+: place
  | write place _ | remove place | clear place => target.place here <+: place

/-- What is within a name in a directory is within the directory. -/
theorem Edit.IsWithin.of_join (isName : Path.IsName name) {edit : Edit}
    (kind : edit.IsWithin here (target.join ⟨name⟩)) : edit.IsWithin here target := by
  have within : target.place here <+: (target.join ⟨name⟩).place here := by
    rw [isName.place_join]
    exact List.prefix_append _ _
  cases edit with
  | make place =>
    rcases kind with leads | below
    · rcases leads.of_join_single isName.pieces isName.isAbsolute with leads | rfl
      · exact .inl leads
      · exact .inr within
    · exact .inr (within.trans below)
  | write place content => exact within.trans kind
  | remove place => exact within.trans kind
  | clear place => exact within.trans kind

/-- Whether a source and a target lie apart, the way to the target leads through nothing of the source
but directories that stand there, and it enters the target only at its end. -/
structure Parted (here : Location) (source target : Path) (files : Files) : Prop where
  source_apart : ¬source.place here <+: target.place here
  target_apart : ¬target.place here <+: source.place here
  passes : ∀ place, target.Leads here place → source.place here <+: place →
    files.tree.find? place = some .directory
  enters : ∀ place, target.Leads here place → target.place here <+: place →
    place = target.place here

/-- A target whose path never goes up is parted from a source that lies apart. -/
theorem parted_of_straight (straight : ".." ∉ target.pieces)
    (source_apart : ¬source.place here <+: target.place here)
    (target_apart : ¬target.place here <+: source.place here) :
    Parted here source target files where
  source_apart := source_apart
  target_apart := target_apart
  passes _ leads within :=
    absurd (within.trans (leads.of_straight straight)) source_apart
  enters _ leads inside :=
    ((leads.of_straight straight).eq_of_length_le inside.length_le)

namespace Parted

variable (parted : Parted here source target files)
include parted

/-- Nothing is at or below both the source and the target. -/
theorem not_both (within : source.place here <+: place) (inside : target.place here <+: place) :
    False := by
  rcases List.prefix_or_prefix_of_prefix within inside with below | below
  · exact parted.source_apart below
  · exact parted.target_apart below

/-- Source and target stay parted as long as the source stays as it was. -/
theorem of_source (same : ∀ place, source.place here <+: place →
    later.tree.find? place = files.tree.find? place) : Parted here source target later where
  source_apart := parted.source_apart
  target_apart := parted.target_apart
  passes place leads within := by
    rw [same place within]
    exact parted.passes place leads within
  enters := parted.enters

/-- What is in the source and what is to be in the target under the same name are parted. -/
theorem join (isName : Path.IsName name) :
    Parted here (source.join ⟨name⟩) (target.join ⟨name⟩) files where
  source_apart within := by
    rw [isName.place_join, isName.place_join] at within
    exact parted.not_both ((List.prefix_append _ _).trans within) (List.prefix_append _ _)
  target_apart within := by
    rw [isName.place_join, isName.place_join] at within
    exact parted.not_both (List.prefix_append _ _) ((List.prefix_append _ _).trans within)
  passes place leads within := by
    rw [isName.place_join] at within
    have within := (List.prefix_append _ _).trans within
    rcases leads.of_join_single isName.pieces isName.isAbsolute with leads | rfl
    · exact parted.passes place leads within
    · rw [isName.place_join] at within
      exact absurd (List.prefix_append _ _) (parted.not_both within)
  enters place leads inside := by
    rcases leads.of_join_single isName.pieces isName.isAbsolute with leads | rfl
    · rw [isName.place_join] at inside
      have end_ := parted.enters place leads ((List.prefix_append _ _).trans inside)
      rw [end_] at inside
      have length := inside.length_le
      simp at length
    · rfl

/-- What is within the target leaves the source as it was. -/
theorem find?_source (edits : Edits (Edit.IsWithin here target) files later)
    (within : source.place here <+: place) :
    later.tree.find? place = files.tree.find? place := by
  have reaches : ∀ edit : Edit, edit.IsWithin here target →
      edit.Misses place ∨ edit = .make place := by
    intro edit kind
    cases edit with
    | make other =>
      by_cases same : other = place
      · exact .inr (congrArg Edit.make same)
      · exact .inl same
    | write other content =>
      left
      rintro rfl
      exact parted.not_both within kind
    | remove other =>
      left
      rintro rfl
      exact parted.not_both within kind
    | clear other => exact .inl fun above => parted.not_both within (kind.trans above)
  rcases edits.find?_eq_or_made reaches with same | ⟨free, -, leads | inside⟩
  · exact same
  · rw [parted.passes place leads within] at free
    cases free
  · exact (parted.not_both within inside).elim

/-- What is within one name in the target leaves what stands at other names as it was. -/
theorem find?_beside (isName : Path.IsName name) (different : other ≠ name)
    (edits : Edits (Edit.IsWithin here (target.join ⟨name⟩)) files later) (names : List String) :
    later.tree.find? (target.place here ++ other :: names) =
      files.tree.find? (target.place here ++ other :: names) := by
  have outside : ¬(target.join ⟨name⟩).place here <+: target.place here ++ other :: names := by
    rw [isName.place_join, List.prefix_append_right_inj, List.cons_prefix_cons]
    exact fun same => different same.1.symm
  refine edits.find?_eq fun edit kind => ?_
  cases edit with
  | make place =>
    rintro rfl
    rcases kind with leads | below
    · rcases leads.of_join_single isName.pieces isName.isAbsolute with leads | last
      · have entered := parted.enters _ leads (List.prefix_append _ _)
        simp at entered
      · exact outside (last ▸ List.prefix_rfl)
    · exact outside below
  | write place content =>
    rintro rfl
    exact outside kind
  | remove place =>
    rintro rfl
    exact outside kind
  | clear place => exact fun above => outside (List.IsPrefix.trans kind above)

end Parted

/-! ## What a copy holds -/

/-- Whether so many files were copied so far, under some names of the source, and nothing under any
other name. -/
structure Partly (here : Location) (before : Files) (source target : Location) (done : List String)
    (count : Nat) (files : Files) : Prop where
  sound : files.IsSound here
  source_eq : ∀ place, source <+: place → files.tree.find? place = before.tree.find? place
  directory : files.tree.find? target = some .directory
  done_eq : ∀ name ∈ done, ∀ names,
    files.tree.find? (target ++ name :: names) = before.tree.find? (source ++ name :: names)
  fresh : ∀ name, name ∉ done → ∀ names, files.tree.find? (target ++ name :: names) = none
  counted : ∃ found : List (List String), found.Nodup ∧ found.length = count ∧
    ∀ names, names ∈ found ↔ ∃ name ∈ done, ∃ rest content, names = name :: rest ∧
      before.tree.find? (source ++ names) = some (.file content)

/-- Whether the copy of a source holds what the source held, which is so many files. -/
structure Copied (here : Location) (before : Files) (source target : Location) (count : Nat)
    (files : Files) : Prop where
  sound : files.IsSound here
  target_eq : ∀ names, files.tree.find? (target ++ names) = before.tree.find? (source ++ names)
  counted : before.tree.HasFiles source count

variable {before : Files} {done : List String} {count more : Nat}

/-- A copy under one more name. -/
theorem Partly.copied (isName : Path.IsName name) (parted : Parted here source target before)
    (partly : Partly here before (source.place here) (target.place here) done count files)
    (new : name ∉ done)
    (edits : Edits (Edit.IsWithin here (target.join ⟨name⟩)) files later)
    (copied : Copied here files (source.place here ++ [name]) (target.place here ++ [name]) more
      later) :
    Partly here before (source.place here) (target.place here) (done ++ [name]) (count + more)
      later := by
  have parted := parted.of_source partly.source_eq
  have same : ∀ names, files.tree.find? (source.place here ++ name :: names) =
      before.tree.find? (source.place here ++ name :: names) :=
    fun names => partly.source_eq _ (List.prefix_append _ _)
  refine ⟨copied.sound, fun place within => ?_, ?_, ?_, ?_, ?_⟩
  · rw [← partly.source_eq place within]
    exact parted.find?_source (edits.mono fun edit => Edit.IsWithin.of_join isName) within
  · refine edits.directory (fun place within above => ?_) partly.directory
    have length := (List.IsPrefix.trans within above).length_le
    simp [isName.place_join] at length
  · intro other member names
    rcases List.mem_append.mp member with old | last
    · have different : other ≠ name := by
        rintro rfl
        exact new old
      rw [parted.find?_beside isName different edits, partly.done_eq other old]
    · rw [List.mem_singleton.mp last, ← same, List.append_cons, copied.target_eq,
        ← List.append_cons]
  · intro other unseen names
    rw [List.mem_append, List.mem_singleton, not_or] at unseen
    rw [parted.find?_beside isName unseen.2 edits, partly.fresh other unseen.1]
  · obtain ⟨found, nodup, rfl, mem⟩ := partly.counted
    obtain ⟨inside, nodup', rfl, mem'⟩ := copied.counted
    refine ⟨found ++ inside.map (name :: ·), ?_, by simp, fun names => ?_⟩
    · refine List.nodup_append'.mpr ⟨nodup, nodup'.map (List.cons_injective), ?_⟩
      intro names first second
      obtain ⟨other, member, rest, content, rfl, -⟩ := (mem names).mp first
      obtain ⟨names, -, same⟩ := List.mem_map.mp second
      cases same
      exact new member
    · rw [List.mem_append, mem, List.mem_map]
      constructor
      · rintro (⟨other, member, rest, content, rfl, stands⟩ | ⟨rest, member, rfl⟩)
        · exact ⟨other, List.mem_append_left _ member, rest, content, rfl, stands⟩
        · obtain ⟨content, stands⟩ := (mem' rest).mp member
          rw [← List.append_cons, same] at stands
          exact ⟨name, by simp, rest, content, rfl, stands⟩
      · rintro ⟨other, member, rest, content, rfl, stands⟩
        rcases List.mem_append.mp member with member | member
        · exact .inl ⟨other, member, rest, content, rfl, stands⟩
        · obtain rfl := List.mem_singleton.mp member
          refine .inr ⟨rest, (mem' rest).mpr ⟨content, ?_⟩, rfl⟩
          rw [← List.append_cons, same, stands]

/-- A copy under all names of a directory is a copy of the directory. -/
theorem Partly.whole (closed : before.tree.IsClosed)
    (stands : before.tree.find? (source.place here) = some .directory)
    (partly : Partly here before (source.place here) (target.place here)
      (before.tree.children (source.place here)) count files) :
    Copied here before (source.place here) (target.place here) count files := by
  have listed : ∀ {name : String} {names : List String} {entry : Entry},
      before.tree.find? (source.place here ++ name :: names) = some entry →
        name ∈ before.tree.children (source.place here) := by
    intro name names entry found
    rw [FileTree.mem_children]
    rw [List.append_cons] at found
    by_cases last : names = []
    · subst last
      exact ⟨entry, by simpa using found⟩
    · exact ⟨.directory, closed.directory_of_below last found⟩
  refine ⟨partly.sound, fun names => ?_, ?_⟩
  · cases names with
    | nil => rw [List.append_nil, List.append_nil, partly.directory, stands]
    | cons name names =>
      by_cases member : name ∈ before.tree.children (source.place here)
      · exact partly.done_eq name member names
      · rw [partly.fresh name member names]
        by_contra found
        obtain ⟨entry, found⟩ := Option.ne_none_iff_exists'.mp (Ne.symm found)
        exact member (listed found)
  · obtain ⟨found, nodup, length, mem⟩ := partly.counted
    refine ⟨found, nodup, length, fun names => ?_⟩
    rw [mem]
    constructor
    · rintro ⟨name, -, rest, content, rfl, stands⟩
      exact ⟨content, stands⟩
    · rintro ⟨content, found⟩
      cases names with
      | nil =>
        rw [List.append_nil, stands] at found
        cases found
      | cons name names => exact ⟨name, listed found, names, content, rfl, found⟩

end Files

namespace FileM

variable {here : Location} {source target : Path} {files later : Files} {count : Nat}

/-- Once the directory of a copy was made nothing is copied so far. -/
theorem partly_of_ensureDirectory (sound : files.IsSound here)
    (parted : Files.Parted here source target files) (filled : target.text ≠ "")
    (fresh : ∀ names, files.tree.find? (target.place here ++ names) = none)
    (ran : (ensureDirectory target).run files = (.ok (), later)) :
    Files.Partly here files (source.place here) (target.place here) [] 0 later := by
  have performed : Moves (Files.Performs here fun edit =>
      ∃ place, target.Leads here place ∧ edit = .make place) (ensureDirectory target) :=
    performs_makeDirectories _ fun place leads => ⟨place, leads, rfl⟩
  obtain ⟨later_sound, edits⟩ := performed files sound
  rw [ran] at later_sound edits
  refine ⟨later_sound, fun place within => ?_,
    directory_of_makeDirectories filled sound.toAt ran, by simp, fun name _ names => ?_,
    [], List.nodup_nil, rfl, by simp⟩
  · refine parted.find?_source (edits.mono ?_) within
    rintro edit ⟨place, leads, rfl⟩
    exact .inl leads
  · rw [edits.find?_eq, fresh]
    rintro edit ⟨place, leads, rfl⟩ rfl
    have entered := parted.enters _ leads (List.prefix_append _ _)
    simp at entered

/-- A file that is copied to where nothing stands is the same there. -/
theorem copied_of_copyFile {parents : Files} {content : ByteArray} (sound : files.IsSound here)
    (parted : Files.Parted here source target files)
    (fresh : ∀ names, files.tree.find? (target.place here ++ names) = none)
    (stands : files.tree.find? (source.place here) = some (.file content))
    (ensured : (ensureParent target).run files = (.ok (), parents))
    (wrote : parents.copyFile source target = .ok later) :
    Files.Copied here files (source.place here) (target.place here) 1 later := by
  have performed : Moves (Files.Performs here fun edit =>
      ∃ place, target.Leads here place ∧ edit = .make place) (ensureParent target) :=
    performs_ensureParent fun parent found place leads => ⟨place, leads.of_parent? found, rfl⟩
  obtain ⟨parents_sound, edits⟩ := performed files sound
  rw [ensured] at parents_sound edits
  have source_eq : parents.tree.find? (source.place here) = some (.file content) := by
    rw [← stands]
    refine parted.find?_source (edits.mono ?_) List.prefix_rfl
    rintro edit ⟨place, leads, rfl⟩
    exact .inl leads
  have apart : source.place here ≠ target.place here := fun same =>
    parted.source_apart (same ▸ List.prefix_rfl)
  obtain ⟨copied, found, after⟩ := Files.find?_of_copyFile parents_sound apart wrote
  obtain rfl : content = copied := by
    rw [source_eq] at found
    cases found
    rfl
  have copies : Files.Edits (fun edit => ∃ more, edit = .write (target.place here) more) parents
      later := Files.edits_copyFile parents_sound (fun more => ⟨more, rfl⟩) wrote
  refine ⟨copies.isSound parents_sound, fun names => ?_,
    FileTree.hasFiles_file sound.closed stands⟩
  rw [after]
  by_cases top : names = []
  · rw [top, List.append_nil, List.append_nil, if_pos rfl, stands]
  · rw [if_neg (by simpa using top), edits.find?_eq, fresh]
    · by_contra found
      obtain ⟨entry, found⟩ := Option.ne_none_iff_exists'.mp (Ne.symm found)
      rw [sound.closed.directory_of_below top found] at stands
      cases stands
    · rintro edit ⟨place, leads, rfl⟩ rfl
      have entered := parted.enters _ leads (List.prefix_append _ _)
      exact top (by simpa using entered)

/-- What is copied to where nothing stands is the same there. -/
theorem copied_of_copyNode {depth : Nat} (sound : files.IsSound here)
    (parted : Files.Parted here source target files) (filled : target.text ≠ "")
    (fresh : ∀ names, files.tree.find? (target.place here ++ names) = none)
    (ran : (copyNode depth source target).run files = (.ok count, later)) :
    Files.Copied here files (source.place here) (target.place here) count later := by
  induction depth generalizing source target files later count with
  | zero => cases ran
  | succ depth ih =>
    rw [copyNode] at ran
    obtain ⟨entry, first, looked, ran⟩ := Action.of_run_bind_ok ran
    obtain ⟨found, rfl⟩ := run_look_eq_ok.mp looked
    cases entry with
    | file content =>
      obtain ⟨location, located, stands⟩ := Files.stat_eq_file.mp found
      rw [sound.locate_eq located] at stands
      obtain ⟨done, parents, ensured, ran⟩ := Action.of_run_bind_ok ran
      obtain ⟨done, copied, changed, ended⟩ := Action.of_run_bind_ok ran
      cases ended
      exact copied_of_copyFile sound parted fresh stands ensured (run_change_eq_ok.mp changed)
    | directory =>
      obtain ⟨location, slashed, located, stands⟩ := Files.stat_eq_directory.mp found
      obtain ⟨done, made, ensured, ran⟩ := Action.of_run_bind_ok ran
      have start := partly_of_ensureDirectory sound parted filled fresh ensured
      rw [Action.run_get_bind] at ran
      have kept : Moves (Files.Keeps here fun _ _ => False) (ensureDirectory target) :=
        keeps_ensureDirectory target
      have spared := (kept first sound.toAt).2
      rw [ensured] at spared
      -- The names are read after the directory was made, which changes nothing in the source.
      have names : made.children source = first.tree.children (source.place here) := by
        rw [Files.children, Files.locate_of_directories
          (fun place stands => spared place _ not_false stands)
          (start.sound.here_eq.trans sound.here_eq.symm) located]
        dsimp only
        rw [sound.locate_eq located]
        exact FileTree.children_eq fun names => start.source_eq _ (List.prefix_append _ _)
      rw [names] at ran
      rw [sound.locate_eq located] at stands
      refine Files.Partly.whole sound.closed stands (@Action.of_run_foldlM_ok _ _ _ _ _ _
        (Files.Partly here first (source.place here) (target.place here))
        (fun done name rest split total state next after partly stepped => ?_) _ _ _ _ start ran)
      have nodup : (done ++ name :: rest).Nodup :=
        split ▸ FileTree.nodup_children first.tree (source.place here)
      have new : name ∉ done := fun member =>
        (List.nodup_append.mp nodup).2.2 name member name List.mem_cons_self rfl
      have isName : Path.IsName name := by
        have member : name ∈ first.tree.children (source.place here) := by simp [split]
        obtain ⟨entry, found⟩ := FileTree.mem_children.mp member
        exact sound.named _ entry found name (by simp)
      obtain ⟨more, middle, copied, ended⟩ := Action.of_run_bind_ok stepped
      cases ended
      have edits : Files.Edits (Files.Edit.IsWithin here (target.join ⟨name⟩)) state after := by
        have performed : Moves (Files.Performs here
            (Files.Edit.IsWithin here (target.join ⟨name⟩)))
            (copyNode depth (source.join ⟨name⟩) (target.join ⟨name⟩)) :=
          performs_copyNode depth (fun place leads => .inl leads)
            fun place below => ⟨.inr below, fun content => below⟩
        have edits := (performed state partly.sound).2
        rwa [copied] at edits
      refine partly.copied isName parted new edits ?_
      have inner := ih partly.sound ((parted.of_source partly.source_eq).join isName)
        (Path.text_join_ne isName.2.1) (fun names => ?_) copied
      · rwa [isName.place_join, isName.place_join] at inner
      · rw [isName.place_join, ← List.append_cons]
        exact partly.fresh name new names

end FileM

end PageBuild
