import PageBuild.Proofs.Publish.LocalStore
import PageBuild.Proofs.Publish.Uploads

/-!
# Versions of templates

A version of a template that has objects is not published again. The store is asked for objects
whose keys start with the key of the version, and answers by the names on the way to them; the two
agree where the key is made of names (`Publisher.IsDirect`). With an empty name, say, they do not,
and the version is replaced (`published_version_replaced`).
-/
namespace PageBuild

open PageBuild.Action (FailsWith Moves)

variable {σ : Type} {store : LocalStore} {host after : Host σ}

namespace Publisher

/-! ## The guard -/

/-- Whether every piece in the key of a version is one that a listing shows or a put refuses. -/
def IsDirect (name version : String) : Prop :=
  ∀ piece ∈ Text.split '/' (templateKey name version),
    piece ≠ "" ∧ piece ≠ "." ∧ piece ≠ LocalStore.headerDirectory

instance (name version : String) : Decidable (IsDirect name version) :=
  inferInstanceAs (Decidable (∀ _ ∈ _, _))

/-- To ask a local store for objects changes nothing, and those that listings show are found. -/
theorem exists_hasObjects (store : LocalStore) {key : String}
    (relative : (Path.mk (key ++ "/")).isAbsolute = false) (host : Host σ) :
    ∃ found, (hasObjects store.toStore key).run host = (.ok found, host) ∧
      (store.IsShown → ∀ inner content, store.Holds host.files inner content →
        LocalStore.headerDirectory ∉ Text.split '/' inner → (key ++ "/").toList <+: inner.toList →
          found = true) := by
  obtain ⟨objects, listed, met⟩ := store.exists_list (key ++ "/") 1 host
  have attempted : (HostM.attempt (store.toStore.list (key ++ "/") 1)).run host =
      (.ok (.ok objects), host) := by
    rw [HostM.run_attempt]
    exact congrArg (fun run => (Except.ok run.1, run.2)) listed
  refine ⟨!objects.isEmpty, ?_, fun shown inner content holds visible starts => ?_⟩
  · rw [hasObjects, Action.run_bind_of_ok attempted]
    rfl
  · rw [plainKey_eq relative] at met
    simpa using met shown inner content holds visible starts

/-! ## What is written -/

/-- The files of a template have names below its directory. -/
theorem names_of_listFiles {directory : Path} {files : List Path} {here : Location}
    (at_ : host.files.At here) (isDirectory : host.files.isDirectory directory = true)
    (listed : (listFiles directory : HostM σ (List Path)).run host = (.ok files, after)) :
    ∀ file ∈ files, ∃ names, names ≠ [] ∧ (∀ name ∈ names, Path.IsName name) ∧
      Path.relativeKey directory file = Text.join '/' names := by
  obtain ⟨walked, rfl, met, -⟩ := of_run_listFiles listed
  have stands : host.files.stat directory = .ok .directory := by
    rw [Files.isDirectory] at isDirectory
    split at isDirectory
    · assumption
    · cases isDirectory
  obtain ⟨base, slashed, located, above⟩ := Files.stat_eq_ok stands
  intro file member
  obtain ⟨item, walks, rfl⟩ := List.mem_map.mp member
  obtain ⟨names, content, below, stands, rfl⟩ :=
    (Files.mem_listFiles met located above).mp walks
  have named : ∀ name ∈ names, Path.IsName name :=
    fun name member => at_.named _ _ stands name (List.mem_append_right _ member)
  exact ⟨names, below, named, Path.relativeKey_descend named directory⟩

/-- What publishing below a key may write in a local store: files at names below the key, cache
headers and the log. -/
def Writes (store : LocalStore) (here : Location) (log : Option Location) (target : String)
    (place : Location) (entry : Entry) : Prop :=
  (∃ content, entry = .file content) ∧
    ((∃ names, names ≠ [] ∧
        place = store.root.place here ++ (Text.split '/' target ++ names)) ∨
      (∃ names, place = store.root.place here ++ LocalStore.headerDirectory :: names) ∨
      log = some place)

/-- A key below that of a direct version is refused or made of names. -/
theorem IsDirect.isKey {name version key : String} {names : List String}
    (direct : IsDirect name version) (named : ∀ name ∈ names, Path.IsName name)
    (pieces : Text.split '/' key = Text.split '/' (templateKey name version) ++ names)
    (accepted : LocalStore.accepts key = true) : LocalStore.IsKey key := by
  have relative : (Path.mk key).isAbsolute = false := by
    refine Path.isAbsolute_of_pieces fun empty => ?_
    rw [Path.pieces, pieces] at empty
    rcases List.mem_append.mp empty with empty | empty
    · exact (direct "" empty).1 rfl
    · exact (named "" empty).2.1 rfl
  simp only [LocalStore.accepts, plainKey_eq relative, List.contains_eq_mem, Bool.and_eq_true,
    Bool.not_eq_true', decide_eq_false_iff_not] at accepted
  intro piece member
  have inner : piece ≠ ".." := fun up => accepted.2 (up ▸ member)
  refine ⟨Text.not_mem_of_mem_split member, ?_⟩
  rw [pieces] at member
  rcases List.mem_append.mp member with member | member
  · exact ⟨(direct piece member).1, (direct piece member).2.1, inner⟩
  · exact (named piece member).2

/-- To publish the files of a direct version writes below its key, headers and the log. -/
theorem keeps_upload {name version : String} {directory : Path} {files : List Path}
    {here : Location} {log : Option Location} {policy : Uploads.Policy} {workers : Nat}
    (direct : IsDirect name version)
    (below : ∀ file ∈ files, ∃ names, names ≠ [] ∧ (∀ name ∈ names, Path.IsName name) ∧
      Path.relativeKey directory file = Text.join '/' names) :
    Moves (Host.Keeps here (Writes store here log (templateKey name version)))
      (Uploads.run store.toStore policy workers (files.map fun file =>
        (file, [templateKey name version ++ "/" ++ Path.relativeKey directory file])) :
          HostM σ Unit) := by
  have puts : ∀ (file : Path) (key : String), (∃ names, names ≠ [] ∧
      (∀ name ∈ names, Path.IsName name) ∧
        Text.split '/' key = Text.split '/' (templateKey name version) ++ names) →
      Moves (Host.Keeps here (Writes store here log (templateKey name version)))
        (store.toStore.put key file file.cacheControl : HostM σ Unit) := by
    rintro file key ⟨names, some, named, pieces⟩
    refine LocalStore.keeps_put fun accepted old => ?_
    have isKey := direct.isKey named pieces accepted
    have header : Path.IsName LocalStore.headerDirectory := by decide
    constructor
    · refine ⟨⟨old, rfl⟩, .inl ⟨names, some, ?_⟩⟩
      rw [isKey.objectPath, Path.place_descend isKey, pieces]
    · refine ⟨⟨old, rfl⟩, .inr (.inl ⟨Text.split '/' key, ?_⟩)⟩
      rw [isKey.headerPath, Path.place_descend (List.forall_mem_cons.mpr ⟨header, isKey⟩)]
  refine Uploads.moves_run puts (fun text => HostM.keeps_narrate .info text) ?_
  intro pair member key keyed
  obtain ⟨file, listed, rfl⟩ := List.mem_map.mp member
  obtain ⟨names, some, named, relative⟩ := below file listed
  obtain rfl := List.mem_singleton.mp keyed
  refine ⟨names, some, named, ?_⟩
  rw [Text.split_slash, relative, Text.split_join some fun name member => (named name member).1]

/-! ## Outcomes -/

/-- The words for an object that is not kept do not end as those for a version that exists. -/
theorem publishFailure_ne {failure : Failure} (refusal : LocalStore.Refusal failure) (file : Path)
    (key : String) :
    Uploads.publishFailure file failure ≠ .publish (key ++ " already exists") := by
  have words : ∀ text : String, text.toList.getLast? ≠ some 's' →
      Failure.publish text ≠ .publish (key ++ " already exists") := by
    intro text last same
    rw [Failure.publish.inj same] at last
    simp at last
  have joined : ∀ before text : String, before.toList.getLast? ≠ some 's' →
      text.toList.getLast? ≠ some 's' → (before ++ text).toList.getLast? ≠ some 's' := by
    intro before text first second
    rw [String.toList_append, List.getLast?_append]
    cases ended : text.toList.getLast? with
    | none => simpa using first
    | some c => simpa [ended] using second
  cases refusal with
  | key text =>
    refine words ("invalid object key '" ++ text ++ "'") ?_
    rw [String.toList_append, List.getLast?_append]
    simp
  | @io cause plain =>
    rw [show Uploads.publishFailure file (.io cause) =
      .publish (file.text ++ ": " ++ ("IO error: " ++ cause.message)) from rfl]
    refine words _ (joined _ _ ?_ (joined _ _ ?_ plain.message_end))
    · rw [String.toList_append, List.getLast?_append]
      simp
    · decide

/-- The uploads of a version after its guard. -/
def uploadTemplate (publisher : Publisher) (store : Store σ) (policy : Uploads.Policy)
    (key : String) (directory : Path) : HostM σ String := do
  let files ← listFiles directory
  Uploads.run store policy publisher.parallelism.toNat
    (files.map fun file => (file, [key ++ "/" ++ Path.relativeKey directory file]))
  return publisher.baseUrl ++ "/" ++ key

/-- A version of which the store shows an object is refused, and any other is uploaded or refused. -/
theorem cases_of_run {publisher : Publisher} {policy : Uploads.Policy} {name version : String}
    {directory : Path} {result : Except Failure String}
    (ran : (publisher.publishTemplate store.toStore policy name version directory).run host =
      (result, after)) :
    (result = .error (.publish (templateKey name version ++ " already exists")) ∧ after = host) ∨
      ((publisher.uploadTemplate store.toStore policy (templateKey name version) directory).run
          host = (result, after) ∧
        (store.IsShown → ∀ key content, store.Holds host.files key content →
          LocalStore.headerDirectory ∉ Text.split '/' key →
            ¬(templateKey name version ++ "/").toList <+: key.toList)) := by
  have relative : (Path.mk (templateKey name version ++ "/")).isAbsolute = false := by
    simp [Path.isAbsolute, templateKey, templatePrefix]
  obtain ⟨found, asked, guards⟩ := exists_hasObjects store relative host
  rw [publishTemplate, Action.run_bind_of_ok asked] at ran
  cases found with
  | true =>
    cases ran
    exact .inl ⟨rfl, rfl⟩
  | false =>
    refine .inr ⟨ran, fun shown key content holds visible starts => ?_⟩
    cases guards shown key content holds visible starts

/-- Uploads do not fail with the words for a version that exists. -/
theorem failsWith_uploadTemplate {publisher : Publisher} {policy : Uploads.Policy} {key : String}
    {directory : Path} (other : String) :
    FailsWith (· ≠ .publish (other ++ " already exists"))
      (publisher.uploadTemplate store.toStore policy key directory : HostM σ String) := by
  have listing : FailsWith (· ≠ .publish (other ++ " already exists"))
      (listFiles directory : HostM σ (List Path)) := by
    refine FailsWith.bind (fun before failure later ran => ?_) fun _ => Action.failsWith_pure _
    have causes : FailsWith (fun _ => True) (FileM.look (·.listFiles directory)) :=
      fun _ _ _ _ => trivial
    obtain ⟨cause, -, rfl⟩ := HostM.failsWith_onFiles causes before failure later ran
    simp
  refine listing.bind fun files => FailsWith.bind ?_ fun _ => Action.failsWith_pure _
  intro before failure later ran
  obtain ⟨file, key, middle, cause, last, -, put, rfl⟩ :=
    @Uploads.failure_of_run _ _ _ _ (fun _ _ => True) _ _ _ (fun _ _ _ _ => trivial) _ ran
  exact publishFailure_ne (LocalStore.failsWith_put middle cause last put) file other

/-- To upload a direct version writes below its key, headers and the log. -/
theorem keeps_uploadTemplate {publisher : Publisher} {policy : Uploads.Policy}
    {name version : String} {directory : Path} {here : Location} {log : Option Location}
    {result : Except Failure String} (direct : IsDirect name version) (at_ : host.files.At here)
    (isDirectory : host.files.isDirectory directory = true)
    (uploaded : (publisher.uploadTemplate store.toStore policy (templateKey name version)
      directory).run host = (result, after)) :
    Host.Keeps here (Writes store here log (templateKey name version)) host after := by
  have looks : Moves (Host.Keeps here (Writes store here log (templateKey name version)))
      (listFiles directory : HostM σ (List Path)) :=
    (HostM.keeps_onFiles (FileM.moves_look _)).bind fun _ => Action.moves_pure _
  have looked := looks host
  rw [uploadTemplate, Action.run_bind] at uploaded
  cases listed : (listFiles directory : HostM σ (List Path)).run host with
  | mk found middle =>
    rw [listed] at looked uploaded
    cases found with
    | error failure =>
      cases uploaded
      exact looked
    | ok files =>
      have below := names_of_listFiles at_ isDirectory listed
      have uploads : Moves (Host.Keeps here (Writes store here log (templateKey name version)))
          (Uploads.run store.toStore policy publisher.parallelism.toNat (files.map fun file =>
            (file, [templateKey name version ++ "/" ++ Path.relativeKey directory file])) :
              HostM σ Unit) :=
        keeps_upload direct below
      have rest := uploads.bind
        (fun _ => Action.moves_pure (publisher.baseUrl ++ "/" ++ templateKey name version)) middle
      dsimp only at looked uploaded
      rw [uploaded] at rest
      exact trans_of (Host.Keeps here (Writes store here log (templateKey name version))) looked
        rest

/-- To publish a version of a template keeps every object that the store holds, if every piece of
the key of the version is a name that listings show or a put refuses; only an object that listings
leave out can be replaced below the key. A version that is refused since it exists leaves everything
as it is, whatever its key. -/
theorem published_version_stays (publisher : Publisher) (store : LocalStore)
    (policy : Uploads.Policy) (name version : String) (directory : Path) (host after : Host σ)
    (result : Except Failure String)
    (ran : (publisher.publishTemplate store.toStore policy name version directory).run host =
      (result, after)) :
    (IsDirect name version → store.IsShown → host.files.At host.files.here →
      (∀ log, host.log = some log → ¬store.root.place host.files.here <+: log) →
      host.files.isDirectory directory = true →
      ∀ key content, store.Holds host.files key content →
        (Text.split '/' (templateKey name version) <+: Text.split '/' key →
          LocalStore.headerDirectory ∉ Text.split '/' key) →
        store.Holds after.files key content) ∧
    (result = .error (.publish (templateKey name version ++ " already exists")) → after = host) := by
  rcases cases_of_run ran with ⟨refused, rfl⟩ | ⟨uploaded, absent⟩
  · exact ⟨fun _ _ _ _ _ _ _ holds _ => holds, fun _ => rfl⟩
  · refine ⟨fun direct shown at_ apart isDirectory key content holds visible => ?_, ?_⟩
    · have kept : Host.Keeps host.files.here
          (Writes store host.files.here host.log (templateKey name version)) host after :=
        keeps_uploadTemplate direct at_ isDirectory uploaded
      obtain ⟨files, spared⟩ :=
        kept ⟨at_, fun log opened content => ⟨⟨content, rfl⟩, .inr (.inr opened)⟩⟩
      refine holds.of_spares spared files.files.here_eq (fun place writes => ?_) ?_
      · obtain ⟨⟨content, same⟩, -⟩ := writes
        cases same
      · rintro ⟨-, ⟨names, some, same⟩ | ⟨names, same⟩ | opened⟩
        · have pieces := List.append_cancel_left same
          exact absent shown key content holds (visible ⟨names, pieces.symm⟩)
            (Text.prefix_of_split_eq some pieces)
        · have pieces := List.append_cancel_left same
          exact holds.isObject (by rw [pieces]; rfl)
        · exact apart _ opened (List.prefix_append _ _)
    · rintro rfl
      exact absurd rfl (failsWith_uploadTemplate _ host _ after uploaded)

section Sample

/-- A store in a directory. -/
def sampleLocalStore : LocalStore := ⟨⟨"/s"⟩⟩

/-- A host with a template and an object with its cache header. -/
def sampleTemplateHost (key : String) : Host Unit where
  files := (((Files.mk .empty []).plant [] ("s/" ++ key) ⟨#[1]⟩).plant []
    ("s/.loom-meta/" ++ key) .empty).plant [] "t/a.txt" ⟨#[2]⟩
  log := none
  now := ⟨0⟩
  uptime := 0
  bundlers := []
  store := ()

/-- A version of the template published. -/
def sampleTemplateRun (name version key : String) : Except Failure String × Host Unit :=
  ((Publisher.mk "https://cdn" "ls" 1).publishTemplate sampleLocalStore.toStore .inOrder name
    version ⟨"/t"⟩).run (sampleTemplateHost key)

/-- A version with an empty name is published over its own object. -/
theorem published_version_replaced :
    sampleLocalStore.Holds (sampleTemplateHost "lowcode-templates/1/a.txt").files
        "lowcode-templates/1/a.txt" ⟨#[1]⟩ ∧
      (sampleTemplateRun "" "1" "lowcode-templates/1/a.txt").1 =
        .ok "https://cdn/lowcode-templates//1" ∧
      sampleLocalStore.Holds (sampleTemplateRun "" "1" "lowcode-templates/1/a.txt").2.files
        "lowcode-templates/1/a.txt" ⟨#[2]⟩ := by
  have isKey : LocalStore.IsKey "lowcode-templates/1/a.txt" := by decide +kernel
  have isObject : (Text.split '/' "lowcode-templates/1/a.txt").head? ≠
      some LocalStore.headerDirectory := by decide +kernel
  have replaced : (sampleTemplateRun "" "1" "lowcode-templates/1/a.txt").1 =
        .ok "https://cdn/lowcode-templates//1" ∧
      (sampleTemplateRun "" "1" "lowcode-templates/1/a.txt").2.files.readFile
        (sampleLocalStore.objectPath "lowcode-templates/1/a.txt") = .ok ⟨#[2]⟩ := by
    decide +kernel
  exact ⟨⟨isKey, isObject, by decide +kernel⟩, replaced.1, isKey, isObject, replaced.2⟩

/-- To publish the second version of a template keeps the first one. -/
theorem published_version_stays_second :
    IsDirect "acme" "2" ∧ ∃ url after,
      sampleTemplateRun "acme" "2" "lowcode-templates/acme/1/a.txt" = (.ok url, after) ∧
        sampleLocalStore.Holds after.files "lowcode-templates/acme/1/a.txt" ⟨#[1]⟩ := by
  have direct : IsDirect "acme" "2" := by decide +kernel
  have works : (sampleTemplateRun "acme" "2" "lowcode-templates/acme/1/a.txt").1.toOption.isSome =
      true := by
    decide +kernel
  have holds : sampleLocalStore.Holds
      (sampleTemplateHost "lowcode-templates/acme/1/a.txt").files
      "lowcode-templates/acme/1/a.txt" ⟨#[1]⟩ :=
    ⟨by decide +kernel, by decide +kernel, by decide +kernel⟩
  have at_ : (sampleTemplateHost "lowcode-templates/acme/1/a.txt").files.At [] :=
    ⟨by decide +kernel, FileTree.isNamed_of_entries (by decide +kernel), by simp⟩
  cases ran : sampleTemplateRun "acme" "2" "lowcode-templates/acme/1/a.txt" with
  | mk result after =>
    rw [ran] at works
    cases result with
    | error failure => cases works
    | ok url =>
      have kept := (published_version_stays _ sampleLocalStore .inOrder "acme" "2" ⟨"/t"⟩ _ after _
        ran).1 direct (by decide +kernel) at_ (fun log opened => by cases opened) (by decide +kernel)
      exact ⟨direct, url, after, rfl, kept _ _ holds fun below => by decide +kernel⟩

end Sample

end Publisher

end PageBuild
