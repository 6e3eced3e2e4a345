import PageBuild.Proofs.Publish.Calls

/-!
# Calls of publishing an output

Publishing an output puts every file of it under both of its keys, or says that it did not
(`Publisher.publishDist_answers`). This holds for every store, whichever of its puts fail, for every
number of workers and whatever the policy.
-/
namespace PageBuild

variable {σ : Type}

namespace Publisher

variable {publisher : Publisher} {app : AppInfo} {environment : Environment} {dist : Path}

/-- The call that puts the file at some names of an output under its pinned key. -/
def pinnedCall (publisher : Publisher) (app : AppInfo) (environment : Environment) (dist : Path)
    (names : List String) (result : Except Failure Unit) : PutCall :=
  let file := dist.descend names
  .of file (publisher.artifactKeys app environment (Path.relativeKey dist file)).1 result

/-- The call that puts the file at some names of an output under its latest key. -/
def latestCall (publisher : Publisher) (app : AppInfo) (environment : Environment) (dist : Path)
    (names : List String) (result : Except Failure Unit) : PutCall :=
  let file := dist.descend names
  .of file (publisher.artifactKeys app environment (Path.relativeKey dist file)).2 result

/-- Whether the result of publishing an output answers for the calls made, each of which is kept with the
names of its file. -/
structure Answers (publisher : Publisher) (app : AppInfo) (environment : Environment) (dist : Path)
    (files : Files) (made : List (List String × PutCall)) (result : Except Failure String) : Prop where
  /-- There is a URL exactly if the project and its version are named, the files could be listed and no
  put failed. -/
  ok_iff : (∃ url, result = .ok url) ↔ app.project ≠ "" ∧ app.version ≠ "" ∧
    (∃ items, files.listFiles dist = .ok items) ∧ ∀ item ∈ made, item.2.result = .ok ()
  /-- A put that failed is a failure to publish. -/
  failed : (∃ item ∈ made, item.2.result ≠ .ok ()) → ∃ reason, result = .error (.publish reason)
  /-- Without a name nothing is put. -/
  unnamed : app.project = "" ∨ app.version = "" → made = []
  /-- Only files of the output are put. -/
  placed : ∀ item ∈ made, files.HasFile dist item.1
  /-- A file is put under its latest key after it was put under the pinned one. -/
  each : ∀ names, files.HasFile dist names → callsOf made names = [] ∨
    (∃ cause, callsOf made names =
      [publisher.pinnedCall app environment dist names (.error cause)]) ∨
    ∃ last, callsOf made names =
      [publisher.pinnedCall app environment dist names (.ok ()),
        publisher.latestCall app environment dist names last]
  /-- Where there is a URL every file was put under both of its keys. -/
  whole : (∃ url, result = .ok url) → ∀ names, files.HasFile dist names → callsOf made names =
    [publisher.pinnedCall app environment dist names (.ok ()),
      publisher.latestCall app environment dist names (.ok ())]

/-- What fails before any put answers for no calls. -/
theorem answers_nil {files : Files} {failure : Failure}
    (refused : ¬(app.project ≠ "" ∧ app.version ≠ "" ∧ ∃ items, files.listFiles dist = .ok items)) :
    publisher.Answers app environment dist files [] (.error failure) where
  ok_iff := by
    constructor
    · rintro ⟨url, worked⟩
      cases worked
    · rintro ⟨project, version, listed, -⟩
      exact absurd ⟨project, version, listed⟩ refused
  failed := by simp
  unnamed _ := rfl
  placed := by simp
  each _ _ := .inl rfl
  whole := by
    rintro ⟨url, worked⟩
    cases worked

section Listed

variable {files : Files} {items : List Files.Walked} {made : List (Nat × PutCall)}
  {result : Except Failure Unit}

/-- The names of the file that is listed at a place. -/
def namesAt (items : List Files.Walked) (place : Nat) : List String :=
  (items.map Files.Walked.names).getD place []

/-- The uploads of the files that are listed. -/
abbrev uploadsOf (publisher : Publisher) (app : AppInfo) (environment : Environment) (dist : Path)
    (items : List Files.Walked) : List (Path × List String) :=
  (items.map (·.path)).map fun file => (file, publisher.distKeys app environment dist file)

/-- A file of an output is uploaded at one place alone. -/
theorem exists_place (listed : files.listFiles dist = .ok items) {names : List String}
    (stands : files.HasFile dist names) (placed : ∀ item ∈ made, item.1 < items.length) :
    ∃ place, (publisher.uploadsOf app environment dist items)[place]? =
        some (dist.descend names, publisher.distKeys app environment dist (dist.descend names)) ∧
      callsOf (made.map (Prod.map (namesAt items) id)) names = callsOf made place := by
  obtain ⟨item, member, rfl⟩ := (Files.hasFile_iff listed).mp stands
  obtain ⟨place, within, rfl⟩ := List.mem_iff_getElem.mp member
  have named : ∀ {other}, other < items.length →
      (items.map Files.Walked.names)[other]? = some (namesAt items other) := by
    intro other inside
    simp [namesAt, inside]
  have here : items[place].names = namesAt items place := by simp [namesAt, within]
  refine ⟨place, ?_, ?_⟩
  · simp [uploadsOf, within, Files.path_of_listFiles listed member]
  · rw [here]
    refine callsOf_map fun item called same => ?_
    have inside := placed item called
    refine (List.getElem?_inj (by simpa) (Files.nodup_names_of_listFiles listed)).mp ?_
    rw [named inside, named within, same]

/-- Uploads of the files of an output that are concluded answer for their calls. -/
theorem answers_of_conclude {url : String} (project : app.project ≠ "") (version : app.version ≠ "")
    (listed : files.listFiles dist = .ok items)
    (concluded : Uploads.Concluded (publisher.uploadsOf app environment dist items) made result) :
    publisher.Answers app environment dist files (made.map (Prod.map (namesAt items) id))
      (result.map fun _ => url) := by
  obtain ⟨placed, each, outcome⟩ := concluded
  have fine : (∀ item ∈ made.map (Prod.map (namesAt items) id), item.2.result = .ok ()) ↔
      ∀ item ∈ made, item.2.result = .ok () := List.forall_mem_map
  have within : ∀ item ∈ made, item.1 < items.length := by simpa using placed
  have works : (∃ url', result.map (fun _ => url) = .ok url') ↔ result = .ok () := by
    cases result <;> simp [Except.map]
  constructor
  case ok_iff =>
    rw [works, fine]
    constructor
    · rintro rfl
      rcases outcome with ⟨-, kept, -⟩ | ⟨item, member, cause, failed, other⟩
      · exact ⟨project, version, ⟨items, listed⟩, kept⟩
      · cases other
    · rintro ⟨-, -, -, kept⟩
      rcases outcome with ⟨worked, -, -⟩ | ⟨item, member, cause, failed, -⟩
      · exact worked
      · rw [kept item member] at failed
        cases failed
  case failed =>
    rintro ⟨item, member, bad⟩
    rcases outcome with ⟨-, kept, -⟩ | ⟨item, -, cause, -, rfl⟩
    · exact absurd (fine.mpr kept item member) bad
    · obtain ⟨reason, same⟩ := Uploads.exists_publishFailure item.2.file cause
      exact ⟨reason, by rw [same]; rfl⟩
  case unnamed => exact fun unnamed => absurd unnamed (by simp [project, version])
  case placed =>
    refine List.forall_mem_map.mpr fun item member => (Files.hasFile_iff listed).mpr ?_
    refine ⟨items.get ⟨item.1, within item member⟩, List.get_mem _ _, ?_⟩
    simp [namesAt, within item member]
  case each =>
    intro names stands
    obtain ⟨place, uploaded, same⟩ := exists_place listed stands within
    rw [same]
    exact (each place _ _ uploaded).imp_right Uploads.Pursued.cases_pair
  case whole =>
    rw [works]
    intro worked names stands
    obtain ⟨place, uploaded, same⟩ := exists_place listed stands within
    rcases outcome with ⟨ended, fine, kept⟩ | ⟨item, member, cause, failed, other⟩
    · rw [same]
      exact kept place _ _ uploaded
    · rw [worked] at other
      cases other

end Listed

/-! ## Runs -/

/-- Without a name publishing fails at once. -/
theorem run_publishDist_unnamed {store : Store σ} {policy : Uploads.Policy} {host : Host σ}
    (unnamed : app.project = "" ∨ app.version = "") :
    (publisher.publishDist store policy dist app environment).run host =
      (.error (.publish "meta.project_name and meta.appVersion are required"), host) := by
  rw [publishDist, if_pos unnamed]
  rfl

/-- Publishing fails where the files cannot be listed. -/
theorem run_publishDist_unlisted {store : Store σ} {policy : Uploads.Policy} {host : Host σ}
    {cause : IoCause} (named : ¬(app.project = "" ∨ app.version = ""))
    (unlisted : host.files.listFiles dist = .error cause) :
    (publisher.publishDist store policy dist app environment).run host =
      (.error (.io cause), host) := by
  have looked : (HostM.onFiles (FileM.look (·.listFiles dist)) : HostM σ _).run host =
      (.error (.io cause), host) := by
    rw [HostM.run_onFiles_look, unlisted]
    rfl
  rw [publishDist, if_neg named]
  dsimp only
  rw [listFiles, bind_assoc, Action.run_bind, looked]

/-- Publishing files that are listed ends as their uploads do. -/
theorem run_publishDist_listed {store : Store σ} {policy : Uploads.Policy} {host after : Host σ}
    {items : List Files.Walked} {result : Except Failure Unit}
    (named : ¬(app.project = "" ∨ app.version = "")) (listed : host.files.listFiles dist = .ok items)
    (ran : (Uploads.run store policy publisher.parallelism.toNat
      (publisher.uploadsOf app environment dist items)).run
        (host.told .info
          ("Publishing " ++ toString items.length ++ " files from " ++ dist.text)) = (result, after)) :
    (publisher.publishDist store policy dist app environment).run host =
      (result.map fun _ => publisher.entryUrl app environment, after) := by
  have looked : (HostM.onFiles (FileM.look (·.listFiles dist)) : HostM σ _).run host =
      (.ok items, host) := by
    rw [HostM.run_onFiles_look, listed]
    rfl
  rw [publishDist, if_neg named]
  dsimp only
  rw [listFiles, bind_assoc, Action.run_bind_of_ok looked,
    pure_bind, HostM.run_info_bind, List.length_map, Action.run_bind, ran]
  cases result <;> rfl

/-- Publishing an output answers for its calls: whichever puts of the store fail, however many workers
there are and whatever the policy, every file of the output was put under both of its keys or the
result is a failure. -/
theorem publishDist_answers (publisher : Publisher) (store : Store σ) (policy : Uploads.Policy)
    (dist : Path) (app : AppInfo) (environment : Environment) (host : Host (σ × List PutCall)) :
    ∃ result after made,
      (publisher.publishDist store.watched policy dist app environment).run host = (result, after) ∧
      after.store.2 = host.store.2 ++ made.map Prod.snd ∧
      publisher.Answers app environment dist host.files made result := by
  by_cases unnamed : app.project = "" ∨ app.version = ""
  · exact ⟨_, host, [], run_publishDist_unnamed unnamed, by simp, answers_nil (by tauto)⟩
  cases listed : host.files.listFiles dist with
  | error cause =>
    exact ⟨_, host, [], run_publishDist_unlisted unnamed listed, by simp,
      answers_nil (by simp [listed])⟩
  | ok items =>
    obtain ⟨project, version⟩ := not_or.mp unnamed
    obtain ⟨result, after, made, ran, called, concluded⟩ := Uploads.exists_calls store policy
      publisher.parallelism.toNat (publisher.uploadsOf app environment dist items)
      (host.told .info ("Publishing " ++ toString items.length ++ " files from " ++ dist.text))
    refine ⟨_, after, _, run_publishDist_listed unnamed listed ran, ?_,
      answers_of_conclude project version listed concluded⟩
    rw [called, Host.told, HostM.store_narrate, List.map_map]
    rfl

end Publisher

end PageBuild
