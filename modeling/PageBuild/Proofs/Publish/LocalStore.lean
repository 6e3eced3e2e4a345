import PageBuild.Proofs.Build.Host
import PageBuild.Proofs.Files.Causes
import PageBuild.Proofs.Files.Walk
import PageBuild.Publish.Store

/-!
# The local store

An object stands where the names in its key lead down from the root. To put one changes files at
its place and at the place of its cache header only, and every object that a store holds is met by
a listing, apart from those in a directory for cache headers.
-/
namespace PageBuild

open PageBuild.Action (FailsWith Moves)

/-- A key that does not start with a slash is kept as it is. -/
theorem plainKey_eq {key : String} (relative : (Path.mk key).isAbsolute = false) :
    plainKey key = key := by
  have head : key.toList.dropWhile (· == '/') = key.toList := by
    rw [Path.isAbsolute] at relative
    cases chars : key.toList with
    | nil => rfl
    | cons c rest =>
      rw [chars] at relative
      simpa using relative
  rw [plainKey, head, String.ofList_toList]

/-- A key without the slashes at its start leads on from where it is put. -/
theorem isAbsolute_plainKey (key : String) : (Path.mk (plainKey key)).isAbsolute = false := by
  have head : (key.toList.dropWhile (· == '/')).head? ≠ some '/' := by
    intro slash
    have other := List.head?_dropWhile_not (· == '/') key.toList
    rw [slash] at other
    simp at other
  simpa [Path.isAbsolute, plainKey] using head

namespace LocalStore

variable {σ : Type} {store : LocalStore} {key : String} {files : Files} {content : ByteArray}

/-- Whether a key is made of names. -/
def IsKey (key : String) : Prop := ∀ piece ∈ Text.split '/' key, Path.IsName piece

instance (key : String) : Decidable (IsKey key) := inferInstanceAs (Decidable (∀ _ ∈ _, _))

/-- A key of names does not start with a slash. -/
theorem IsKey.relative (isKey : IsKey key) : (Path.mk key).isAbsolute = false :=
  Path.isAbsolute_of_pieces fun empty => (isKey "" empty).2.1 rfl

/-- The names of a key lead down from any path. -/
theorem IsKey.join (isKey : IsKey key) (path : Path) :
    path.join ⟨key⟩ = path.descend (Text.split '/' key) := by
  rw [← Path.join_names isKey (Text.split_ne_nil key), Text.join_split]

/-- An object stands where the names in its key lead. -/
theorem IsKey.objectPath (isKey : IsKey key) (store : LocalStore) :
    store.objectPath key = store.root.descend (Text.split '/' key) := by
  rw [LocalStore.objectPath, plainKey_eq isKey.relative, isKey.join]

/-- A cache header stands where the names in the key of its object lead, below the directory of
headers. -/
theorem IsKey.headerPath (isKey : IsKey key) (store : LocalStore) :
    store.headerPath key = store.root.descend (headerDirectory :: Text.split '/' key) := by
  rw [LocalStore.headerPath, plainKey_eq isKey.relative, isKey.join]
  rfl

/-! ## Puts -/

/-- To put an object changes files at its place and at that of its header, if its key is accepted. -/
theorem keeps_put {here : Location} {touched : Location → Entry → Prop} {file : Path}
    {cache : String}
    (mine : accepts key = true → ∀ old, touched ((store.objectPath key).place here) (.file old) ∧
      touched ((store.headerPath key).place here) (.file old)) :
    Moves (Host.Keeps here touched) (store.put key file cache : HostM σ Unit) := by
  rw [put]
  split
  · exact (Action.moves_throw _).bind_of fun _ _ _ ran => by cases ran
  · rename_i accepted
    have mine := mine (by simpa using accepted)
    refine (HostM.keeps_onFiles (FileM.keeps_ensureParent _)).bind fun _ =>
      (HostM.keeps_onFiles (FileM.keeps_ensureParent _)).bind fun _ =>
        (HostM.keeps_onFiles (FileM.moves_change fun _ _ copied => ?_)).bind fun _ =>
          HostM.keeps_onFiles (FileM.moves_change fun _ _ wrote => ?_)
    · exact Files.keeps_copyFile (fun old => (mine old).1) copied
    · exact Files.keeps_writeFile (fun old => (mine old).2) wrote

/-- Why an object is not kept. -/
inductive Refusal : Failure → Prop
  /-- Its key leads nowhere below the root. -/
  | key (text : String) : Refusal (.publish ("invalid object key '" ++ text ++ "'"))
  /-- A file operation failed. -/
  | io {cause : IoCause} (plain : cause.IsPlain) : Refusal (.io cause)

/-- An object is not kept for one of these reasons. -/
theorem failsWith_put {file : Path} {cache : String} :
    FailsWith Refusal (store.put key file cache : HostM σ Unit) := by
  have operation : ∀ {action : FileM Unit}, FailsWith IoCause.IsPlain action →
      FailsWith Refusal (HostM.onFiles action : HostM σ Unit) := by
    intro action causes host failure after ran
    obtain ⟨cause, plain, rfl⟩ := HostM.failsWith_onFiles causes host failure after ran
    exact .io plain
  have rest : FailsWith Refusal (do
      HostM.onFiles (FileM.ensureParent (store.objectPath key))
      HostM.onFiles (FileM.ensureParent (store.headerPath key))
      HostM.onFiles (FileM.change (·.copyFile file (store.objectPath key)))
      HostM.onFiles (FileM.change (·.writeFile (store.headerPath key) cache.toUTF8)) :
        HostM σ Unit) :=
    (operation (FileM.failsWith_ensureParent _)).bind fun _ =>
      (operation (FileM.failsWith_ensureParent _)).bind fun _ =>
        (operation (FileM.failsWith_change fun _ _ => Files.isPlain_of_copyFile)).bind fun _ =>
          operation (FileM.failsWith_change fun _ _ => Files.isPlain_of_writeFile)
  rw [put]
  split
  · exact (Action.failsWith_throw (.key _)).bind fun _ => rest
  · exact rest

/-! ## Objects -/

/-- Whether a store holds an object under a key of names. -/
structure Holds (store : LocalStore) (files : Files) (key : String) (content : ByteArray) :
    Prop where
  isKey : IsKey key
  /-- It is no cache header. -/
  isObject : (Text.split '/' key).head? ≠ some headerDirectory
  read : files.readFile (store.objectPath key) = .ok content

/-- An object stands below the directory at the root. -/
theorem Holds.exists_root (holds : store.Holds files key content) (rooted : store.root.text ≠ "") :
    ∃ base slashed, files.locate store.root = .ok (base, slashed) ∧
      files.tree.find? base = some .directory ∧
      files.tree.find? (base ++ Text.split '/' key) = some (.file content) := by
  have found := Files.readFile_eq_ok.mp holds.read
  rw [holds.isKey.objectPath] at found
  exact Files.stat_descend_eq_ok holds.isKey (Text.split_ne_nil key) rooted found

/-- An object is still held when neither it nor a directory was touched. -/
theorem Holds.of_spares {touched : Location → Entry → Prop} {later : Files}
    (holds : store.Holds files key content) (spared : files.Spares touched later)
    (here_eq : later.here = files.here) (directories : ∀ place, ¬touched place .directory)
    (apart : ¬touched (store.root.place files.here ++ Text.split '/' key) (.file content)) :
    store.Holds later key content := by
  refine ⟨holds.isKey, holds.isObject, Files.readFile_eq_ok.mpr ?_⟩
  refine spared.stat here_eq directories ?_ (Files.readFile_eq_ok.mp holds.read)
  rwa [holds.isKey.objectPath, Path.place_descend holds.isKey]

/-! ## Listings -/

/-- Whether listings show anything at all. -/
def IsShown (store : LocalStore) : Prop :=
  store.root.text ≠ "" ∧ store.root.fileName? ≠ some headerDirectory

instance (store : LocalStore) : Decidable store.IsShown := inferInstanceAs (Decidable (_ ∧ _))

/-- An object is what a listing with a start of its key makes of its file. -/
theorem objectOf?_of_holds (holds : store.Holds files key content) {start : String}
    (starts : start.toList <+: key.toList) :
    store.objectOf? start
        ⟨store.root.descend (Text.split '/' key), Text.split '/' key, .file content⟩ =
      some ⟨key, content.size⟩ := by
  have relative : Path.relativeKey store.root (store.root.descend (Text.split '/' key)) = key := by
    rw [Path.relativeKey_descend holds.isKey, Text.join_split]
  simp [objectOf?, relative, List.isPrefixOf_iff_prefix, starts]

/-- A listing of a store whose root does not exist is empty. -/
theorem run_list_of_missing (start : String) (limit : Nat) (host : Host σ)
    (missing : host.files.pathExists store.root = false) :
    (store.list start limit).run host = (.ok [], host) := by
  rw [list, Action.run_get_bind, missing]
  rfl

/-- A listing of a store whose root exists is made of what a walk meets. -/
theorem exists_walk_list (start : String) (limit : Nat) (host : Host σ)
    (there : host.files.pathExists store.root = true) :
    ∃ top walked, host.files.stat store.root = .ok top ∧ host.files.walk store.root = .ok walked ∧
      (store.list start limit).run host =
        (.ok (((walked.filter store.isListed).filterMap (store.objectOf? (plainKey start))).take
          (max limit 1)), host) := by
  obtain ⟨top, found⟩ : ∃ top, host.files.stat store.root = .ok top := by
    cases found : host.files.stat store.root with
    | error cause =>
      rw [Files.pathExists, found] at there
      cases there
    | ok top => exact ⟨top, rfl⟩
  obtain ⟨walked, met⟩ := Files.exists_walk found
  have looked : (HostM.onFiles (FileM.look (·.walk store.root)) : HostM σ _).run host =
      (.ok walked, host) := by
    rw [HostM.run_onFiles_look, met]
    rfl
  refine ⟨top, walked, found, met, ?_⟩
  rw [list, Action.run_get_bind, there]
  exact Action.run_bind_of_ok looked

/-- A listing works out, changes nothing and meets what the store holds, apart from what stands in
a directory of cache headers. -/
theorem exists_list (store : LocalStore) (start : String) (limit : Nat) (host : Host σ) :
    ∃ objects, (store.list start limit).run host = (.ok objects, host) ∧
      (store.IsShown → ∀ key content, store.Holds host.files key content →
        headerDirectory ∉ Text.split '/' key → (plainKey start).toList <+: key.toList →
          objects ≠ []) := by
  by_cases there : host.files.pathExists store.root = true
  · obtain ⟨-, walked, -, met, ran⟩ := exists_walk_list start limit host there
    refine ⟨_, ran, fun shown key content holds visible starts => ?_⟩
    obtain ⟨base, slashed, located, above, below⟩ := holds.exists_root shown.1
    have item : ⟨store.root.descend (Text.split '/' key), Text.split '/' key, .file content⟩ ∈
        walked.filter store.isListed := by
      rw [List.mem_filter, Files.mem_of_walk met located]
      refine ⟨.inr ⟨_, _, Text.split_ne_nil key, below, rfl⟩, ?_⟩
      simp [isListed, shown.2, visible]
    have object := List.mem_filterMap.mpr ⟨_, item, objectOf?_of_holds holds starts⟩
    rw [ne_eq, List.take_eq_nil_iff, not_or]
    exact ⟨by omega, List.ne_nil_of_mem object⟩
  · refine ⟨[], run_list_of_missing start limit host (Bool.eq_false_iff.mpr there), ?_⟩
    intro shown key content holds
    obtain ⟨base, slashed, located, above, -⟩ := holds.exists_root shown.1
    exact absurd (by rw [Files.pathExists, Files.stat_of_locate located above]; rfl) there

end LocalStore

end PageBuild
