import PageBuild.Build.Run
import PageBuild.Proofs.Files.Walk
import PageBuild.Proofs.Publish.Recorded

/-!
# The entry page

The URL that publishing gives is that of the entry page under its latest key, unless the version has
the name of the target that stands before it in the key: then it is the segment of the target that
is replaced. `entry_url_addresses_entry` says exactly when the two agree, and that a file that was
verified is then put where the URL points.
-/
namespace PageBuild

/-- The name of a target is one step. -/
theorem Environment.isName_name (environment : Environment) : Path.IsName environment.name := by
  cases environment <;> decide

namespace Publisher

variable {publisher : Publisher} {app : AppInfo} {environment : Environment}

/-- The names on the way from the output directory to the entry page. -/
def entryNames (environment : Environment) (version : String) : List String :=
  [environment.name, version, "index.html"]

/-- The segments of a target in keys. -/
def targetSegments : Environment → List String
  | .pro => []
  | other => [other.name]

/-- The segment of a target is its name, and the release target has none. -/
theorem mem_targetSegments {segment : String} :
    segment ∈ targetSegments environment ↔
      environment ≠ .pro ∧ segment = environment.name := by
  cases environment <;> simp [targetSegments]

/-- The names to the entry page are steps. -/
theorem isName_entryNames {version : String} (isName : Path.IsName version) :
    ∀ name ∈ entryNames environment version, Path.IsName name := by
  simp only [entryNames, List.forall_mem_cons]
  exact ⟨environment.isName_name, isName, by decide, by simp⟩

/-- The key path of the entry page. -/
theorem keyPath_entry (version : String) :
    keyPath environment (Text.join '/' (entryNames environment version)) =
      Text.join '/' (targetSegments environment ++ [version, "index.html"]) := by
  cases environment with
  | pro => simp [keyPath, Text.join, entryNames, Environment.name, targetSegments]
  | _ => rfl

/-- The first segment that is the version is replaced. -/
theorem latestSegments_append {version : String} {before : List String} (apart : version ∉ before)
    (after : List String) :
    latestSegments version (before ++ version :: after) = before ++ "latest" :: after := by
  induction before with
  | nil => simp [latestSegments]
  | cons segment before ih =>
    rw [List.mem_cons, not_or] at apart
    rw [List.cons_append, latestSegments, if_neg (Ne.symm apart.1), ih apart.2, List.cons_append]

/-- The latest key of the entry page, by its segments. -/
theorem latestKey_entry (isName : Path.IsName app.version) :
    (publisher.artifactKeys app environment
        (Text.join '/' (entryNames environment app.version))).2 =
      publisher.projectKey app (Text.join '/'
        (latestSegments app.version (targetSegments environment ++ [app.version, "index.html"]))) := by
  have segments : ∀ segment ∈ targetSegments environment ++ [app.version, "index.html"],
      '/' ∉ segment.toList := by
    intro segment member
    rcases List.mem_append.mp member with target | member
    · rw [(mem_targetSegments.mp target).2]
      exact environment.isName_name.1
    · rw [List.mem_cons, List.mem_singleton] at member
      rcases member with rfl | rfl
      · exact isName.1
      · decide
  rw [artifactKeys, keyPath_entry]
  dsimp only
  rw [Text.split_join (by simp) segments]

/-- The URL of the entry page, by the segments of its key. -/
theorem entryUrl_eq :
    publisher.entryUrl app environment =
      publisher.baseUrl ++ publisher.projectKey app
        (Text.join '/' (targetSegments environment ++ ["latest", "index.html"])) := by
  cases environment <;>
    simp [entryUrl, projectKey, targetSegments, Text.join, Environment.name, String.append_assoc]

/-- The latest key of the entry page is that of its URL exactly if the version does not stand
before itself, as the name of the target. -/
theorem latestKey_eq_entryUrl (publisher : Publisher) (environment : Environment)
    (isName : Path.IsName app.version) :
    publisher.baseUrl ++ (publisher.artifactKeys app environment
        (Text.join '/' (entryNames environment app.version))).2 =
      publisher.entryUrl app environment ↔ app.version ∉ targetSegments environment := by
  rw [latestKey_entry isName, entryUrl_eq]
  constructor
  · intro same target
    obtain ⟨segmented, version⟩ := mem_targetSegments.mp target
    have whole : targetSegments environment = [app.version] := by
      cases environment <;> simp_all [targetSegments]
    rw [whole, List.singleton_append, latestSegments, if_pos rfl, version] at same
    simp only [projectKey, String.append_right_inj] at same
    cases environment <;> simp_all [Text.join, Environment.name]
  · intro apart
    rw [latestSegments_append apart]

end Publisher

variable {σ : Type} {host after : Host σ}

/-- The entry page stands at names below the output directory. -/
theorem Staging.distEntry_eq (staging : Staging) (environment : Environment) (version : String) :
    staging.distEntry environment version =
      staging.distDir.descend (Publisher.entryNames environment version) := by
  simp [distEntry, Path.descend, Publisher.entryNames]

/-- A build is verified only where its entry page is a file; the store is left alone. -/
theorem Build.stat_of_verify {staging : Staging} {job : Job} {schema : Schema}
    (verified : (Build.verify staging job schema).run host = (.ok (), after)) :
    after.store = host.store ∧
      ∃ content, after.files.stat (staging.distEntry job.environment schema.app.version) =
        .ok (.file content) := by
  rw [Build.verify, Action.run_get_bind] at verified
  split at verified
  · rename_i content found
    rw [HostM.info, HostM.run_narrate] at verified
    cases verified
    cases host.log with
    | none => exact ⟨rfl, content, found⟩
    | some log => exact ⟨rfl, Files.stat_append found⟩
  · cases verified

namespace Publisher

variable {publisher : Publisher} {app : AppInfo} {environment : Environment} {store : Store σ}

/-- Publishing that works out tells of itself and uploads every file of the output directory under both
of its keys. -/
theorem uploads_of_publishDist {policy : Uploads.Policy} {dist : Path} {url : String}
    (published : (publisher.publishDist store policy dist app environment).run host =
      (.ok url, after)) :
    url = publisher.entryUrl app environment ∧
      ∃ walked text, host.files.listFiles dist = .ok walked ∧
        (Uploads.run store policy publisher.parallelism.toNat
          ((walked.map (·.path)).map fun file =>
            (file, publisher.distKeys app environment dist file))).run (host.told .info text) =
          (.ok (), after) := by
  rw [publishDist] at published
  split at published
  · obtain ⟨_, _, refused, -⟩ := Action.of_run_bind_ok published
    cases refused
  · obtain ⟨files, listed, found, announced⟩ := Action.of_run_bind_ok published
    obtain ⟨walked, rfl, met, rfl⟩ := of_run_listFiles found
    rw [HostM.run_info_bind] at announced
    obtain ⟨_, last, ran, done⟩ := Action.of_run_bind_ok announced
    cases done
    exact ⟨rfl, walked, _, met, ran⟩

/-- Publishing that works out leaves the store to the uploads of every file of the output directory under
both of its keys. -/
theorem run_of_publishDist {policy : Uploads.Policy} {dist : Path} {url : String}
    (published : (publisher.publishDist store policy dist app environment).run host =
      (.ok url, after)) :
    url = publisher.entryUrl app environment ∧
      ∃ walked, host.files.listFiles dist = .ok walked ∧
        ∃ before, before.store = host.store ∧
          (Uploads.run store policy publisher.parallelism.toNat
            ((walked.map (·.path)).map fun file =>
              (file, publisher.distKeys app environment dist file))).run before =
            (.ok (), after) := by
  obtain ⟨same, walked, text, met, ran⟩ := uploads_of_publishDist published
  exact ⟨same, walked, met, host.told .info text, HostM.store_narrate .info text host, ran⟩

/-- The latest key of the entry page is the part of its URL that follows the base exactly if the
target has no segment of its own or another name than the version. Then, where publishing works out
after the entry page was verified, the entry page is put under the key in the URL. -/
theorem entry_url_addresses_entry (publisher : Publisher) (store : Store σ)
    (policy : Uploads.Policy) (staging : Staging) (job : Job) (schema : Schema)
    (plain : Text.isPlainName schema.app.version = true) :
    (publisher.baseUrl ++ (publisher.artifactKeys schema.app job.environment
        (Path.relativeKey staging.distDir
          (staging.distEntry job.environment schema.app.version))).2 =
        publisher.entryUrl schema.app job.environment ↔
      job.environment = .pro ∨ schema.app.version ≠ job.environment.name) ∧
    (job.environment = .pro ∨ schema.app.version ≠ job.environment.name →
      ∀ (host after : Host (σ × List Deposit)) (url : String),
        (do Build.verify staging job schema
            publisher.publishDist store.recorded policy staging.distDir schema.app
              job.environment).run host = (.ok url, after) →
          ∃ key made, url = publisher.baseUrl ++ key ∧ after.store.2 = host.store.2 ++ made ∧
            ⟨key, staging.distEntry job.environment schema.app.version, true⟩ ∈ made) := by
  have isName := Path.isName_of_isPlainName plain
  have names : ∀ name ∈ entryNames job.environment schema.app.version, Path.IsName name :=
    isName_entryNames isName
  have segment : schema.app.version ∉ targetSegments job.environment ↔
      job.environment = .pro ∨ schema.app.version ≠ job.environment.name := by
    rw [mem_targetSegments, not_and_or, not_not]
  have agrees := latestKey_eq_entryUrl publisher job.environment isName
  have relative : Path.relativeKey staging.distDir
      (staging.distEntry job.environment schema.app.version) =
        Text.join '/' (entryNames job.environment schema.app.version) := by
    rw [staging.distEntry_eq, Path.relativeKey_descend names]
  rw [← relative, segment] at agrees
  refine ⟨agrees, fun apart host after url published => ?_⟩
  obtain ⟨_, verified, found, published⟩ := Action.of_run_bind_ok published
  obtain ⟨untouched, content, stands⟩ := Build.stat_of_verify found
  obtain ⟨rfl, walked, listed, before, same, ran⟩ := run_of_publishDist published
  obtain ⟨made, record, deposits⟩ := Uploads.deposits_of_run_ok ran
  have filled : staging.distDir.text ≠ "" := Path.text_join_ne (by decide)
  rw [staging.distEntry_eq] at stands
  obtain ⟨base, slashed, located, above, below⟩ :=
    Files.stat_descend_eq_ok names (by simp [entryNames]) filled stands
  have member := (Files.mem_listFiles listed located above).mpr
    ⟨_, content, by simp [entryNames], below, rfl⟩
  refine ⟨_, made, (agrees.mpr apart).symm, by rw [record, same, untouched], ?_⟩
  exact deposits _ (List.mem_map_of_mem (List.mem_map_of_mem member)) _
    (by simp [distKeys, staging.distEntry_eq])

section Sample

/-- An application in a version. -/
def sampleApp (version : String) : AppInfo := ⟨none, version, "demo", []⟩

/-- A publisher that serves from a site. -/
def samplePublisher : Publisher := ⟨"https://cdn", "ls", 1⟩

/-- The latest key of the entry page is not that of its URL where the version has the name of the
target. -/
theorem entry_url_misses_entry_fat :
    Text.isPlainName (sampleApp "fat").version = true ∧
      samplePublisher.baseUrl ++ (samplePublisher.artifactKeys (sampleApp "fat") .fat
          "fat/fat/index.html").2 = "https://cdn/ls/demo/latest/fat/index.html" ∧
      samplePublisher.entryUrl (sampleApp "fat") .fat =
        "https://cdn/ls/demo/fat/latest/index.html" := by
  decide +kernel

/-- A store that keeps everything. -/
def sampleStore : Store Unit := ⟨fun _ _ _ => pure (), fun _ _ => pure [], none⟩

/-- A job whose entry page was made. -/
def sampleJob : Job := ⟨"", "b", ⟨"/t"⟩, .fat, false, none, some ⟨"/s"⟩⟩

/-- The schema of the job. -/
def sampleSchema : Schema := ⟨"", [], [], [], none, sampleApp "1"⟩

/-- The places of the job. -/
def sampleStaging : Staging := Staging.ofBuild sampleJob.template "b" sampleJob.stagingRoot

/-- A host with the entry page of the job. -/
def sampleHost : Host (Unit × List Deposit) where
  files := (Files.mk .empty []).plant [] "s/b/dist/fat/1/index.html" .empty
  log := none
  now := ⟨0⟩
  uptime := 0
  bundlers := []
  store := ((), [])

/-- The job verified and published. -/
def sampleRun : Except Failure String × Host (Unit × List Deposit) :=
  (do Build.verify sampleStaging sampleJob sampleSchema
      samplePublisher.publishDist sampleStore.recorded .inOrder sampleStaging.distDir
        sampleSchema.app sampleJob.environment).run sampleHost

/-- The entry page of a build is put where its URL points. -/
theorem entry_url_addresses_entry_built :
    Text.isPlainName sampleSchema.app.version = true ∧
      ∃ key made, sampleRun.1 = .ok (samplePublisher.baseUrl ++ key) ∧
        sampleRun.2.store.2 = sampleHost.store.2 ++ made ∧
        ⟨key, ⟨"/s/b/dist/fat/1/index.html"⟩, true⟩ ∈ made := by
  have plain : Text.isPlainName sampleSchema.app.version = true := by decide
  have entry : sampleStaging.distEntry sampleJob.environment sampleSchema.app.version =
      ⟨"/s/b/dist/fat/1/index.html"⟩ := by decide +kernel
  have works : sampleRun.1.toOption.isSome = true := by decide +kernel
  cases ended : sampleRun.1 with
  | error failure =>
    rw [ended] at works
    cases works
  | ok url =>
    have ran : sampleRun = (.ok url, sampleRun.2) := by rw [← ended]
    obtain ⟨key, made, rfl, record, kept⟩ :=
      (entry_url_addresses_entry samplePublisher sampleStore .inOrder sampleStaging sampleJob
        sampleSchema plain).2 (.inr (by decide)) sampleHost sampleRun.2 url ran
    rw [entry] at kept
    exact ⟨plain, key, made, rfl, record, kept⟩

end Sample

end Publisher

end PageBuild
