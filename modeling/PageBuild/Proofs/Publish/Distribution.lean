import PageBuild.Proofs.Publish.Rivals
import PageBuild.Proofs.Publish.Stocked

/-!
# Published outputs

An output that is published to a local store is there file by file, each under both of its keys and
with its cache header, in whatever order it was uploaded; unless two of its files share a key, since
then the one that was uploaded last is there for both (`Publisher.published_file_replaced`).
`Publisher.published_files_stocked` says exactly which files share a key.
-/
namespace PageBuild

variable {σ : Type} {here : Location} {host after : Host σ} {store : LocalStore} {dist : Path}

namespace Publisher

variable {publisher : Publisher} {app : AppInfo} {environment : Environment}

/-- The names that the keys of a project start with. -/
def prefixNames (publisher : Publisher) (app : AppInfo) : List String :=
  LocalStore.names (publisher.projectKey app "")

/-- The names of a key are those of the project and then those of its path. -/
theorem names_projectKey (path : String) :
    LocalStore.names (publisher.projectKey app path) =
      publisher.prefixNames app ++ LocalStore.names path := by
  have pieces : ∀ path, Text.split '/' (publisher.projectKey app path) =
      [""] ++ Text.split '/' publisher.keyPrefix ++ Text.split '/' app.project ++
        Text.split '/' path := by
    intro path
    have empty : Text.split '/' "" = [""] := by decide
    have start : "/" ++ publisher.keyPrefix = "" ++ "/" ++ publisher.keyPrefix := by
      rw [String.empty_append]
    rw [projectKey, Text.split_slash, Text.split_slash, start, Text.split_slash, empty]
  have blank : LocalStore.names "" = [] := by decide
  simp only [prefixNames, LocalStore.names, pieces, List.filter_append] at blank ⊢
  rw [blank, List.append_nil]

/-- The names of a key of segments are those of the project and then the segments. -/
theorem names_segmentKey {segments : List String} (some : segments ≠ [])
    (named : ∀ segment ∈ segments, Path.IsName segment) :
    LocalStore.names (publisher.segmentKey app segments) = publisher.prefixNames app ++ segments := by
  rw [segmentKey, names_projectKey, LocalStore.names,
    Text.split_join some fun segment member => (named segment member).1, List.filter_eq_self.mpr]
  intro segment member
  obtain ⟨-, filled, dot, -⟩ := named segment member
  simp [Path.isBlankPiece, filled, dot]

/-- Whether an output can be published without getting in its own way: no two of its files share a key,
keys do not start in the directory of cache headers, and neither the files nor the open log stand in the
store, nor the log among the files. -/
structure IsSeparate (publisher : Publisher) (store : LocalStore) (app : AppInfo)
    (environment : Environment) (dist : Path) (files : Files) (log : Option Location) : Prop where
  at_ : files.At files.here
  isDirectory : files.isDirectory dist = true
  /-- No two files share a key. -/
  alone : ∀ names content others content',
    files.tree.find? (dist.place files.here ++ names) = some (.file content) →
    files.tree.find? (dist.place files.here ++ others) = some (.file content') →
    Rivals app.version (keySegments environment names) (keySegments environment others) →
      names = others
  prefixed : ∃ first rest, publisher.prefixNames app = first :: rest ∧
    first ≠ LocalStore.headerDirectory
  outside : ∀ names content,
    files.tree.find? (dist.place files.here ++ names) = some (.file content) →
      ¬store.root.place files.here <+: dist.place files.here ++ names
  log_apart : ∀ location ∈ log,
    ¬store.root.place files.here <+: location ∧ ¬dist.place files.here <+: location

/-- What is uploaded are the files of the output, each under the keys of its segments. -/
theorem IsSeparate.exists_names {files : Files} {log : Option Location} {walked : List Files.Walked}
    {file : Path} {key : String}
    (separate : publisher.IsSeparate store app environment dist files log)
    (listed : files.listFiles dist = .ok walked)
    (used : ∃ pair ∈ (walked.map (·.path)).map fun file =>
      (file, publisher.distKeys app environment dist file), pair.1 = file ∧ key ∈ pair.2) :
    ∃ names content segments, names ≠ [] ∧ (∀ name ∈ names, Path.IsName name) ∧
      files.tree.find? (dist.place files.here ++ names) = some (.file content) ∧
      file = dist.descend names ∧ segments ∈ keptUnder app.version (keySegments environment names) ∧
      key = publisher.segmentKey app segments := by
  obtain ⟨base, slashed, located, above⟩ := Files.stat_eq_ok (Files.isDirectory_iff.mp separate.isDirectory)
  obtain ⟨pair, uploaded, rfl, keyed⟩ := used
  obtain ⟨path, found, rfl⟩ := List.mem_map.mp uploaded
  obtain ⟨item, walks, rfl⟩ := List.mem_map.mp found
  obtain ⟨names, content, some, stands, rfl⟩ := (Files.mem_listFiles listed located above).mp walks
  have named : ∀ name ∈ names, Path.IsName name :=
    fun name inner => separate.at_.named _ _ stands name (List.mem_append_right _ inner)
  dsimp only at keyed
  rw [distKeys_descend named some] at keyed
  obtain ⟨segments, kept, rfl⟩ := List.mem_map.mp keyed
  rw [separate.at_.locate_eq located] at stands
  exact ⟨names, content, segments, some, named, stands, rfl, kept, rfl⟩

/-- The uploads of an output that is separate keep out of each other's way. -/
theorem IsSeparate.apart {files : Files} {log : Option Location} {walked : List Files.Walked}
    (separate : publisher.IsSeparate store app environment dist files log)
    (listed : files.listFiles dist = .ok walked) :
    Uploads.Apart store files.here log fun file key =>
      ∃ pair ∈ (walked.map (·.path)).map fun file =>
        (file, publisher.distKeys app environment dist file), pair.1 = file ∧ key ∈ pair.2 := by
  constructor
  case keys =>
    intro file key other key' used used' same
    obtain ⟨names, content, segments, some, named, stands, rfl, kept, rfl⟩ :=
      separate.exists_names listed used
    obtain ⟨others, content', segments', some', named', stands', rfl, kept', rfl⟩ :=
      separate.exists_names listed used'
    obtain ⟨filled, isNames⟩ := isName_of_mem_keptUnder named some kept
    obtain ⟨filled', isNames'⟩ := isName_of_mem_keptUnder named' some' kept'
    rw [names_segmentKey filled isNames, names_segmentKey filled' isNames',
      List.append_cancel_left_eq] at same
    subst same
    have rivals := rivals_iff.mpr ⟨segments, kept, kept'⟩
    rw [separate.alone names content others content' stands stands' rivals]
    exact ⟨rfl, rfl⟩
  case headers =>
    intro file key other key' used used' same
    obtain ⟨names, content, segments, some, named, stands, rfl, kept, rfl⟩ :=
      separate.exists_names listed used
    obtain ⟨filled, isNames⟩ := isName_of_mem_keptUnder named some kept
    obtain ⟨first, rest, starts, other⟩ := separate.prefixed
    rw [names_segmentKey filled isNames, starts] at same
    exact other (List.cons.inj same).1
  case sources =>
    intro file key used
    obtain ⟨names, content, segments, some, named, stands, rfl, kept, rfl⟩ :=
      separate.exists_names listed used
    rw [Path.place_descend named]
    exact separate.outside names content stands
  case log =>
    intro location opened
    refine ⟨(separate.log_apart location opened).1, fun file key used same => ?_⟩
    obtain ⟨names, content, segments, some, named, stands, rfl, kept, rfl⟩ :=
      separate.exists_names listed used
    rw [Path.place_descend named] at same
    exact (separate.log_apart location opened).2 (same ▸ List.prefix_append _ _)

/-- Two files of an output share a key exactly if their segments are rivals. An output no two files of
which do, and that stands outside the local store that it is published to, is there once publishing
works out: every file is kept under both of its keys with its cache header, in whatever order the files
were uploaded. -/
theorem published_files_stocked (publisher : Publisher) (store : LocalStore)
    (policy : Uploads.Policy) (app : AppInfo) (environment : Environment) (dist : Path) :
    (∀ names others, (∀ name ∈ names, Path.IsName name) → (∀ name ∈ others, Path.IsName name) →
      names ≠ [] → others ≠ [] →
        ((∃ key, key ∈ publisher.distKeys app environment dist (dist.descend names) ∧
            key ∈ publisher.distKeys app environment dist (dist.descend others)) ↔
          Rivals app.version (keySegments environment names) (keySegments environment others))) ∧
    ∀ (host after : Host σ) (url : String),
      publisher.IsSeparate store app environment dist host.files host.log →
      (publisher.publishDist store.toStore policy dist app environment).run host = (.ok url, after) →
        ∀ names content,
          host.files.tree.find? (dist.place host.files.here ++ names) = some (.file content) →
            ∀ key ∈ publisher.distKeys app environment dist (dist.descend names),
              store.Stocked after.files key content (dist.descend names).cacheControl := by
  refine ⟨fun names others named named' some some' =>
    keys_meet_iff publisher app environment named named' some some' dist, ?_⟩
  intro host after url separate published names content stands key keyed
  obtain ⟨-, walked, text, listed, ran⟩ := uploads_of_publishDist published
  obtain ⟨base, slashed, located, above⟩ := Files.stat_eq_ok (Files.isDirectory_iff.mp separate.isDirectory)
  have at_base := separate.at_.locate_eq located
  have below : names ≠ [] := by
    rintro rfl
    rw [List.append_nil, ← at_base, above] at stands
    cases stands
  have named : ∀ name ∈ names, Path.IsName name :=
    fun name inner => separate.at_.named _ _ stands name (List.mem_append_right _ inner)
  have member := (Files.mem_listFiles listed located above).mpr
    ⟨names, content, below, at_base ▸ stands, rfl⟩
  -- What was told of the publishing went to the log, which is none of the files.
  have told_at : (host.told .info text).files.At host.files.here :=
    HostM.at_told separate.at_ .info text
  have unlogged : host.log ≠ some (dist.place host.files.here ++ names) := fun opened =>
    (separate.log_apart _ opened).2 (List.prefix_append _ _)
  have told_stands : (host.told .info text).files.tree.find?
      ((dist.descend names).place host.files.here) = some (.file content) := by
    rw [HostM.find?_told (by rwa [Path.place_descend named]), Path.place_descend named, stands]
  exact Uploads.stocked_of_run_ok (separate.apart listed) told_at (HostM.log_told host .info text) ran
    _ (List.mem_map_of_mem (List.mem_map_of_mem member)) key keyed content told_stands

section Sample

/-- A publisher with short keys. -/
def briefPublisher : Publisher := ⟨"https://cdn", "l", 2⟩

/-- A local store. -/
def outputStore : LocalStore := ⟨⟨"/s"⟩⟩

/-- A host with two files in an output directory and the directories of their keys in a store. -/
def outputHost : Host Unit where
  files := ["s/l/demo/1/", "s/l/demo/latest/", "s/.loom-meta/l/demo/1/",
      "s/.loom-meta/l/demo/latest/"].foldl (fun files path => files.plant [] path .empty)
    (((Files.mk .empty []).plant [] "d/1/x" ⟨#[1]⟩).plant [] "d/y" ⟨#[2]⟩)
  log := none
  now := ⟨0⟩
  uptime := 0
  bundlers := []
  store := ()

/-- What stands on the host. -/
theorem entries_outputHost : outputHost.files.tree.entries =
    [(["d"], .directory), (["d", "1"], .directory), (["d", "1", "x"], .file ⟨#[1]⟩),
      (["d", "y"], .file ⟨#[2]⟩), (["s"], .directory), (["s", ".loom-meta"], .directory),
      (["s", ".loom-meta", "l"], .directory), (["s", ".loom-meta", "l", "demo"], .directory),
      (["s", ".loom-meta", "l", "demo", "1"], .directory),
      (["s", ".loom-meta", "l", "demo", "latest"], .directory), (["s", "l"], .directory),
      (["s", "l", "demo"], .directory), (["s", "l", "demo", "1"], .directory),
      (["s", "l", "demo", "latest"], .directory)] := by
  decide +kernel

/-- The files of the output. -/
theorem names_of_outputHost {names : List String} {content : ByteArray} :
    outputHost.files.tree.find? (["d"] ++ names) = some (.file content) ↔
      (names = ["1", "x"] ∧ content = ⟨#[1]⟩) ∨ (names = ["y"] ∧ content = ⟨#[2]⟩) := by
  rw [FileTree.find?_eq_some (by simp), entries_outputHost]
  simp

/-- The output is separate from the store, and from itself. -/
theorem outputHost_isSeparate :
    briefPublisher.IsSeparate outputStore (sampleApp "1") .pro ⟨"/d"⟩ outputHost.files
      outputHost.log := by
  have place : (Path.mk "/d").place outputHost.files.here = ["d"] := by decide +kernel
  have root : outputStore.root.place outputHost.files.here = ["s"] := by decide +kernel
  have named : outputHost.files.tree.IsNamed :=
    FileTree.isNamed_of_entries (by rw [entries_outputHost]; decide +kernel)
  have here_eq : outputHost.files.here = [] := rfl
  refine ⟨⟨rfl, named, by simp [here_eq]⟩, by decide +kernel, ?_, ?_, ?_, by simp [outputHost]⟩
  · rw [place]
    intro names content others content' stands stands' rivals
    rcases names_of_outputHost.mp stands with ⟨rfl, -⟩ | ⟨rfl, -⟩ <;>
      rcases names_of_outputHost.mp stands' with ⟨rfl, -⟩ | ⟨rfl, -⟩
    · rfl
    · exact absurd rivals (by decide)
    · exact absurd rivals (by decide)
    · rfl
  · exact ⟨"l", ["demo"], by decide +kernel, by decide⟩
  · rw [place, root]
    intro names content stands
    simp

/-- The output published in version 1. -/
def outputRun : Except Failure String × Host Unit :=
  (briefPublisher.publishDist outputStore.toStore .inOrder ⟨"/d"⟩ (sampleApp "1") .pro).run outputHost

/-- Both files of the output are kept under both of their keys. -/
theorem published_files_stocked_pair :
    briefPublisher.IsSeparate outputStore (sampleApp "1") .pro ⟨"/d"⟩ outputHost.files
        outputHost.log ∧
      ∃ url after, outputRun = (.ok url, after) ∧
        outputStore.Stocked after.files "/l/demo/1/x" ⟨#[1]⟩ longCache ∧
        outputStore.Stocked after.files "/l/demo/latest/x" ⟨#[1]⟩ longCache ∧
        outputStore.Stocked after.files "/l/demo/y" ⟨#[2]⟩ longCache := by
  have works : outputRun.1.toOption.isSome = true := by decide +kernel
  have place : (Path.mk "/d").place outputHost.files.here = ["d"] := by decide +kernel
  cases ran : outputRun with
  | mk result after =>
    rw [ran] at works
    cases result with
    | error failure => cases works
    | ok url =>
      have stocked := (published_files_stocked briefPublisher outputStore .inOrder (sampleApp "1") .pro
        ⟨"/d"⟩).2 outputHost after url outputHost_isSeparate ran
      rw [place] at stocked
      have first := stocked ["1", "x"] ⟨#[1]⟩ (names_of_outputHost.mpr (.inl ⟨rfl, rfl⟩))
      have second := stocked ["y"] ⟨#[2]⟩ (names_of_outputHost.mpr (.inr ⟨rfl, rfl⟩))
      exact ⟨outputHost_isSeparate, url, after, rfl, first _ (by decide +kernel),
        first _ (by decide +kernel), second _ (by decide +kernel)⟩

/-- A file in the directory of the release target has the keys of one beside this directory, and a file
below a directory named latest one of a file below the version; no store holds both files. -/
theorem published_file_replaced :
    samplePublisher.distKeys (sampleApp "1") .pro ⟨"/dist"⟩ ⟨"/dist/a.txt"⟩ =
        ["/ls/demo/a.txt", "/ls/demo/a.txt"] ∧
      samplePublisher.distKeys (sampleApp "1") .pro ⟨"/dist"⟩ ⟨"/dist/pro/a.txt"⟩ =
        ["/ls/demo/a.txt", "/ls/demo/a.txt"] ∧
      samplePublisher.distKeys (sampleApp "1") .fat ⟨"/dist"⟩ ⟨"/dist/fat/1/a.txt"⟩ =
        ["/ls/demo/fat/1/a.txt", "/ls/demo/fat/latest/a.txt"] ∧
      samplePublisher.distKeys (sampleApp "1") .fat ⟨"/dist"⟩ ⟨"/dist/fat/latest/a.txt"⟩ =
        ["/ls/demo/fat/latest/a.txt", "/ls/demo/fat/latest/a.txt"] ∧
      ∀ files, outputStore.Stocked files "/ls/demo/a.txt" ⟨#[1]⟩ longCache →
        ¬outputStore.Stocked files "/ls/demo/a.txt" ⟨#[2]⟩ longCache := by
  refine ⟨by decide +kernel, by decide +kernel, by decide +kernel, by decide +kernel, ?_⟩
  intro files first second
  have same := first.object.symm.trans second.object
  simp at same

end Sample

end Publisher

end PageBuild
