import PageBuild.Proofs.Files.Locate
import PageBuild.Proofs.Files.Tree

/-!
# Walks

A walk from a path that can be found meets what stands at its location and everything below, by
the path that joins the names on the way down.
-/
namespace PageBuild.Files

variable {files : Files} {root : Path} {base : Location} {slashed : Bool} {items : List Walked}

/-- What stands at a path that can be located. -/
theorem stat_of_locate (located : files.locate root = .ok (base, slashed))
    (stands : files.tree.find? base = some .directory) : files.stat root = .ok .directory := by
  rw [stat, located]
  dsimp only
  rw [stands]

/-- What stands at a path stands at its location. -/
theorem stat_eq_ok {entry : Entry} (found : files.stat root = .ok entry) :
    ∃ base slashed, files.locate root = .ok (base, slashed) ∧
      files.tree.find? base = some entry := by
  rw [stat] at found
  split at found
  · cases found
  · rename_i location slashed located
    split at found
    · cases found
    · rename_i stands
      cases found
      exact ⟨location, slashed, located, stands⟩
    · rename_i content stands
      split at found
      · cases found
      · cases found
        exact ⟨location, slashed, located, stands⟩

/-- What a walk meets. -/
theorem mem_of_walk (walked : files.walk root = .ok items)
    (located : files.locate root = .ok (base, slashed)) {item : Walked} :
    item ∈ items ↔
      (∃ entry, files.stat root = .ok entry ∧ item = ⟨root, [], entry⟩) ∨
        ∃ names entry, names ≠ [] ∧ files.tree.find? (base ++ names) = some entry ∧
          item = ⟨root.descend names, names, entry⟩ := by
  rw [walk, located] at walked
  cases found : files.stat root with
  | error cause =>
    rw [found] at walked
    cases walked
  | ok entry =>
    rw [found] at walked
    cases walked
    simp only [List.mem_cons, List.mem_map, Prod.exists, FileTree.mem_below, Except.ok.injEq,
      exists_eq_left']
    refine or_congr_right (exists_congr fun names => exists_congr fun entry => ?_)
    rw [and_assoc, eq_comm (a := item)]
    rfl

/-- A walk works out from where something stands. -/
theorem exists_walk {entry : Entry} (found : files.stat root = .ok entry) :
    ∃ items, files.walk root = .ok items := by
  obtain ⟨base, slashed, located, -⟩ := stat_eq_ok found
  exact ⟨_, by rw [walk, located, found]⟩

/-- Files are listed from a path that says something. -/
theorem text_ne_of_listFiles (listed : files.listFiles root = .ok items) : root.text ≠ "" := by
  intro blank
  have nowhere : files.locate root = .error .noEntry := by
    rw [locate, blank]
    rfl
  rw [listFiles, walk, nowhere] at listed
  cases listed

/-- The files that a walk from a directory meets. -/
theorem mem_listFiles (listed : files.listFiles root = .ok items)
    (located : files.locate root = .ok (base, slashed))
    (stands : files.tree.find? base = some .directory) {item : Walked} :
    item ∈ items ↔
      ∃ names content, names ≠ [] ∧ files.tree.find? (base ++ names) = some (.file content) ∧
        item = ⟨root.descend names, names, .file content⟩ := by
  obtain ⟨met, walked⟩ := exists_walk (stat_of_locate located stands)
  rw [listFiles, walked] at listed
  cases listed
  rw [List.mem_filter, mem_of_walk walked located, stat_of_locate located stands]
  constructor
  · rintro ⟨⟨entry, found, rfl⟩ | ⟨names, entry, below, stands, rfl⟩, isFile⟩
    · cases found
      cases isFile
    · cases entry with
      | directory => cases isFile
      | file content => exact ⟨names, content, below, stands, rfl⟩
  · rintro ⟨names, content, below, stands, rfl⟩
    exact ⟨.inr ⟨names, _, below, stands, rfl⟩, rfl⟩

/-- The files that a walk from a directory meets, in order. -/
theorem listFiles_eq (located : files.locate root = .ok (base, slashed))
    (stands : files.tree.find? base = some .directory) :
    files.listFiles root = .ok (((files.tree.below base).filter fun item => item.2.isFile).map
      fun item => ⟨root.descend item.1, item.1, item.2⟩) := by
  rw [listFiles, walk, located, stat_of_locate located stands]
  dsimp only [Except.map]
  rw [List.filter_cons_of_neg (by simp), List.filter_map]
  refine congrArg Except.ok (congrArg (List.map _) (List.filter_congr fun item _ => ?_))
  obtain ⟨names, entry⟩ := item
  cases entry <;> rfl

/-- Whether names lead down from a path to a file. -/
def HasFile (files : Files) (root : Path) (names : List String) : Prop :=
  ∃ base slashed content, files.locate root = .ok (base, slashed) ∧
    files.tree.find? (base ++ names) = some (.file content)

/-- The files that are listed are those of a walk. -/
theorem of_listFiles_eq_ok (listed : files.listFiles root = .ok items) :
    ∃ base slashed entry, files.locate root = .ok (base, slashed) ∧ files.stat root = .ok entry ∧
      items = (⟨root, [], entry⟩ :: (files.tree.below base).map fun item =>
        ⟨root.descend item.1, item.1, item.2⟩).filter fun item => item.entry.isFile := by
  cases found : files.stat root with
  | error cause =>
    rw [listFiles, walk, found] at listed
    cases located : files.locate root <;> rw [located] at listed <;> cases listed
  | ok entry =>
    obtain ⟨base, slashed, located, -⟩ := stat_eq_ok found
    refine ⟨base, slashed, entry, located, rfl, ?_⟩
    rw [listFiles, walk, located, found] at listed
    rw [← Except.ok.inj listed]
    refine List.filter_congr fun item _ => ?_
    cases item.entry <;> rfl

/-- Names that lead to a file are those of a file that is listed. -/
theorem hasFile_iff (listed : files.listFiles root = .ok items) {names : List String} :
    files.HasFile root names ↔ ∃ item ∈ items, item.names = names := by
  obtain ⟨base, slashed, entry, located, found, rfl⟩ := of_listFiles_eq_ok listed
  obtain ⟨base', slashed', located', stands⟩ := stat_eq_ok found
  obtain ⟨rfl, rfl⟩ := Prod.mk.inj (Except.ok.inj (located.symm.trans located'))
  have at_base : files.HasFile root names ↔
      ∃ content, files.tree.find? (base ++ names) = some (.file content) := by
    simp [HasFile, located]
  rw [at_base]
  simp only [List.mem_filter, List.mem_cons, List.mem_map, Prod.exists, FileTree.mem_below]
  constructor
  · rintro ⟨content, leads⟩
    by_cases top : names = []
    · subst top
      rw [List.append_nil, stands] at leads
      obtain rfl := Option.some.inj leads
      exact ⟨_, ⟨.inl rfl, rfl⟩, rfl⟩
    · exact ⟨_, ⟨.inr ⟨names, _, ⟨top, leads⟩, rfl⟩, rfl⟩, rfl⟩
  · have named : ∀ {entry : Entry} {location : Location}, entry.isFile = true →
        files.tree.find? location = some entry →
          ∃ content, files.tree.find? location = some (.file content) := by
      rintro (content | _) location isFile stands
      · exact ⟨content, stands⟩
      · cases isFile
    rintro ⟨item, ⟨rfl | ⟨names, entry, ⟨-, leads⟩, rfl⟩, isFile⟩, rfl⟩
    · exact named isFile ((List.append_nil base).symm ▸ stands)
    · exact named isFile leads

/-- A file that is listed stands at the path of its names. -/
theorem path_of_listFiles (listed : files.listFiles root = .ok items) {item : Walked}
    (member : item ∈ items) : item.path = root.descend item.names := by
  obtain ⟨base, slashed, entry, located, found, rfl⟩ := of_listFiles_eq_ok listed
  rcases List.mem_cons.mp (List.mem_filter.mp member).1 with rfl | below
  · rfl
  · obtain ⟨_, -, rfl⟩ := List.mem_map.mp below
    rfl

/-- No two files that are listed have the same names. -/
theorem nodup_names_of_listFiles (listed : files.listFiles root = .ok items) :
    (items.map Walked.names).Nodup := by
  obtain ⟨base, slashed, entry, located, found, rfl⟩ := of_listFiles_eq_ok listed
  refine List.Nodup.sublist (List.filter_sublist.map Walked.names) ?_
  rw [List.map_cons, List.map_map, List.nodup_cons]
  constructor
  · intro member
    obtain ⟨⟨names, entry⟩, below, blank⟩ := List.mem_map.mp member
    exact (FileTree.mem_below.mp below).1 blank
  · refine List.pairwise_map.mpr ((FileTree.pairwise_below files.tree base).imp ?_)
    intro first second before (same : first.1 = second.1)
    simp [same, Location.before, Std.ReflCmp.compare_self] at before

/-- Names below a path that can be located lead down from the directory at the path. -/
theorem locate_descend_eq_ok {names : List String} {location : Location}
    (named : ∀ name ∈ names, Path.IsName name) (below : names ≠ []) (filled : root.text ≠ "")
    (located : files.locate (root.descend names) = .ok (location, slashed)) :
    ∃ base slashed, files.locate root = .ok (base, slashed) ∧
      files.tree.find? base = some .directory ∧ location = base ++ names := by
  induction names using List.reverseRecOn generalizing location slashed with
  | nil => exact absurd rfl below
  | append_singleton names name ih =>
    have last : Path.IsName name := named name (by simp)
    have others : ∀ name ∈ names, Path.IsName name :=
      fun name member => named name (List.mem_append_left _ member)
    rw [Path.descend_concat] at located
    obtain ⟨parent, ends, found, stands, rfl⟩ :=
      locate_join_eq_ok last (Path.text_descend_ne others filled) located
    by_cases top : names = []
    · subst top
      exact ⟨parent, ends, found, stands, rfl⟩
    · obtain ⟨base, cut, start, above, rfl⟩ := ih others top found
      exact ⟨base, cut, start, above, List.append_assoc _ _ _⟩

/-- What stands at names below a path stands below the directory at the path. -/
theorem stat_descend_eq_ok {names : List String} {entry : Entry}
    (named : ∀ name ∈ names, Path.IsName name) (below : names ≠ []) (filled : root.text ≠ "")
    (found : files.stat (root.descend names) = .ok entry) :
    ∃ base slashed, files.locate root = .ok (base, slashed) ∧
      files.tree.find? base = some .directory ∧
      files.tree.find? (base ++ names) = some entry := by
  obtain ⟨location, slashed, located, found⟩ := stat_eq_ok found
  obtain ⟨base, cut, start, above, rfl⟩ := locate_descend_eq_ok named below filled located
  exact ⟨base, cut, start, above, found⟩

/-- Paths are followed from the same directory after something was appended to a file. -/
theorem here_append (files : Files) (location : Location) (more : ByteArray) :
    (files.append location more).here = files.here := by
  rw [append]
  split <;> rfl

/-- A directory is still found where all directories are kept. -/
theorem isDirectory_of_directories {later : Files}
    (kept : ∀ place, files.tree.find? place = some .directory →
      later.tree.find? place = some .directory)
    (here : later.here = files.here) (found : files.isDirectory root = true) :
    later.isDirectory root = true := by
  rw [isDirectory] at found
  split at found
  · rename_i at_root
    obtain ⟨base, slashed, located, stands⟩ := stat_eq_ok at_root
    rw [isDirectory, stat_of_locate (locate_of_directories kept here located) (kept base stands)]
  · cases found

/-- Directories stay where something is appended to a file. -/
theorem directory_append {location place : Location} {more : ByteArray}
    (stands : files.tree.find? place = some .directory) :
    (files.append location more).tree.find? place = some .directory := by
  rw [append]
  split
  · rename_i old written
    have below : location ≠ [] := by
      rintro rfl
      simp [FileTree.find?_nil] at written
    rw [insert, FileTree.find?_insert _ _ _ _ below, if_neg, stands]
    rintro rfl
    simp [stands] at written
  · exact stands

/-- A path can still be located after something was appended to a file. -/
theorem locate_append {location : Location} {more : ByteArray}
    (located : files.locate root = .ok (base, slashed)) :
    (files.append location more).locate root = .ok (base, slashed) :=
  locate_of_directories (fun _ => directory_append) (here_append files location more) located

/-- A directory is still found after something was appended to a file. -/
theorem isDirectory_append {location : Location} {more : ByteArray}
    (found : files.isDirectory root = true) :
    (files.append location more).isDirectory root = true :=
  isDirectory_of_directories (fun _ => directory_append) (here_append files location more) found

/-- Files stay files where something is appended to one of them. -/
theorem file_append {location place : Location} {more content : ByteArray}
    (stands : files.tree.find? place = some (.file content)) :
    ∃ content, (files.append location more).tree.find? place = some (.file content) := by
  rw [append]
  split
  · rename_i old written
    have below : location ≠ [] := by
      rintro rfl
      simp [FileTree.find?_nil] at written
    rw [insert, FileTree.find?_insert _ _ _ _ below]
    split
    · exact ⟨old ++ more, rfl⟩
    · exact ⟨content, stands⟩
  · exact ⟨content, stands⟩

/-- A file that something is appended to, or to another one, is still found. -/
theorem stat_append {location : Location} {more content : ByteArray}
    (found : files.stat root = .ok (.file content)) :
    ∃ content, (files.append location more).stat root = .ok (.file content) := by
  rw [stat] at found
  split at found
  · cases found
  · rename_i place slashed located
    split at found
    · cases found
    · cases found
    · rename_i stands
      split at found
      · cases found
      · rename_i plain
        obtain ⟨content, stands⟩ := @file_append files location place more _ stands
        refine ⟨content, ?_⟩
        rw [stat, locate_append located]
        dsimp only
        rw [stands]
        simp [plain]

end PageBuild.Files
