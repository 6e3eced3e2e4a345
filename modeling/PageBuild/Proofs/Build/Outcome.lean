import PageBuild.Build.Run
import PageBuild.Proofs.Build.Host
import PageBuild.Proofs.Build.Staging

/-!
# Results of builds

A job that should not have been submitted is refused, and nothing is touched. Any other job has a
result, which reports a success exactly if every step of the build worked out (`Build.Succeeds`), with
the URL of what was published; a failure is reported with a message and without a URL.
-/
namespace PageBuild

variable {σ : Type}

/-- A host after a bundler ran in a process group for so many milliseconds. -/
def Host.bundled (host : Host σ) (group : UInt32) (milliseconds : Nat) (files : Files) : Host σ :=
  { host with
    files
    bundlers := host.bundlers ++ [group]
    now := host.now.after milliseconds
    uptime := host.uptime + milliseconds }

/-- Every failure has words. -/
theorem Failure.message_ne (failure : Failure) : failure.message ≠ "" := by
  have filled : ∀ {start rest : String}, start ≠ "" → start ++ rest ≠ "" := by
    intro start rest filled
    simp [filled]
  cases failure with
  | template path reason => exact filled (filled (filled (by decide)))
  | workerCrashed status =>
    cases status with
    | none => decide
    | some status => exact filled (filled (by decide))
  | _ => exact filled (by decide)

namespace Build

variable {tools : Tools} {settings : Settings} {job : Job} {schema : Schema}
  {store : Option (Store σ)} {host after : Host σ}

/-! ## Builds that succeed -/

/-- Whether the log of a job opens, and the host when the build is said to have started. -/
inductive Opens (job : Job) (host : Host σ) : Host σ → Prop
  | intro {opened : Host σ} (opens : (openLog job.staging.logPath).run host = (.ok (), opened)) :
    Opens job host (opened.begun job)

/-- Whether a build that started comes as far as its bundler, and the host then: the template is
staged, and the schema is compiled into it. -/
inductive Calls (tools : Tools) (settings : Settings) (job : Job) (schema : Schema)
    (started : Host σ) : Host σ → Prop
  | intro {staged compiled : Host σ} {copied : Nat} {code : Compiled}
      (stage : (HostM.onFiles (job.staging.stage job.template)).run started = (.ok copied, staged))
      (compile : (Compile.run tools.fill schema job.staging.buildDir job.environment
          job.isPreview).run
        (staged.told .info
          ("Staged " ++ toString copied ++ " files into " ++ job.staging.buildDir.text)) =
        (.ok code, compiled)) :
    Calls tools settings job schema started ((compiled.told .info
        ("Compiled " ++ toString code.pageFiles.length ++ " page modules and " ++
          toString code.scaffoldFiles.length ++ " scaffold files")).told .info
        ("Running " ++ Bundler.shownCommand settings.buildCommand))

/-- Whether the steps of a build that started work out one after the other, and the host then: it
comes as far as its bundler, the bundler starts and exits with zero, and the entry page is a file. -/
inductive Works (tools : Tools) (settings : Settings) (job : Job) (schema : Schema)
    (started : Host σ) : Host σ → Prop
  | intro {called : Host σ} {group : UInt32} {milliseconds : Nat} {files : Files}
      {content : ByteArray} (calls : Calls tools settings job schema started called)
      (bundle : tools.runner (bundlerCall settings job.staging job (called.log.getD []))
        called.files = (.started group (.exited 0) milliseconds, files))
      (entry : files.stat (job.staging.distEntry job.environment schema.app.version) =
        .ok (.file content)) :
    Works tools settings job schema started ((called.bundled group milliseconds files).told .info
      ("Verified " ++ (job.staging.distEntry job.environment schema.app.version).text ++ " (" ++
        toString content.size ++ " bytes)"))

/-- Whether the output of a build is published at a URL, or there is no store for it. -/
inductive Publishes (tools : Tools) (settings : Settings) (job : Job) (schema : Schema)
    (host : Host σ) : Option (Store σ) → String → Prop
  | notRequested : Publishes tools settings job schema host none ""
  | published {store : Store σ} {after : Host σ} {url : String}
      (ran : ((publisherOf settings store).publishDist store tools.order job.staging.distDir
        schema.app job.environment).run host = (.ok url, after)) :
    Publishes tools settings job schema host (some store) url

/-- Whether every step of a build works out, with the URL of its output. -/
def Succeeds (tools : Tools) (settings : Settings) (job : Job) (schema : Schema)
    (store : Option (Store σ)) (host : Host σ) (url : String) : Prop :=
  ∃ started after, Opens job host started ∧ Works tools settings job schema started after ∧
    Publishes tools settings job schema after store url

/-- Whether a job is refused with a failure. -/
def Refuses (job : Job) (failure : Failure) : Prop :=
  job.validate = .error failure ∨ (job.validate = .ok () ∧ job.parseSchema = .error failure)

/-! ## Steps -/

/-- A bundler works out if it starts and exits with zero. -/
theorem run_bundler_eq_ok {runner : Runner} {call : CommandCall} :
    (Bundler.run runner call).run host = (.ok (), after) ↔
      ∃ group milliseconds files,
        runner call host.files = (.started group (.exited 0) milliseconds, files) ∧
          after = host.bundled group milliseconds files := by
  rw [Bundler.run, Action.run_get_bind]
  generalize runner call host.files = outcome
  obtain ⟨came, files⟩ := outcome
  cases came with
  | notStarted cause =>
    constructor
    · intro ran
      cases ran
    · rintro ⟨group, milliseconds, files, ended, -⟩
      cases ended
  | started group ending milliseconds =>
    constructor
    · intro ran
      obtain ⟨done, middle, first, ran⟩ := Action.of_run_bind_ok ran
      obtain ⟨again, last, second, ran⟩ := Action.of_run_bind_ok ran
      cases first
      cases second
      cases ending with
      | exited status =>
        by_cases zero : status = 0
        · subst zero
          cases ran
          exact ⟨group, milliseconds, files, rfl, rfl⟩
        · rw [Bundler.verdict, if_neg zero] at ran
          cases ran
      | signalled signal => cases ran
      | timedOut => cases ran
    · rintro ⟨group, milliseconds, files, ended, rfl⟩
      cases ended
      rfl

/-- The entry page is verified if it is a file. -/
theorem run_verify_eq_ok {staging : Staging} :
    (verify staging job schema).run host = (.ok (), after) ↔
      ∃ content, host.files.stat (staging.distEntry job.environment schema.app.version) =
          .ok (.file content) ∧
        after = host.told .info
          ("Verified " ++ (staging.distEntry job.environment schema.app.version).text ++ " (" ++
            toString content.size ++ " bytes)") := by
  rw [verify, Action.run_get_bind]
  constructor
  · intro ran
    split at ran
    · rename_i content found
      cases ran
      exact ⟨content, found, rfl⟩
    · cases ran
  · rintro ⟨content, found, rfl⟩
    rw [found]
    rfl

/-- The steps of a build work out if each of them does. -/
theorem run_execute_eq_ok :
    (execute tools settings job schema job.staging).run host = (.ok (), after) ↔
      Works tools settings job schema host after := by
  constructor
  · intro ran
    obtain ⟨done, bundled, ran, verified⟩ := Action.of_run_bind_ok ran
    obtain ⟨copied, staged, stage, ran⟩ := Action.of_run_bind_ok ran
    rw [HostM.run_info_bind] at ran
    obtain ⟨code, compiled, compile, ran⟩ := Action.of_run_bind_ok ran
    rw [HostM.run_info_bind, HostM.run_info_bind, Action.run_get_bind] at ran
    obtain ⟨group, milliseconds, files, exited, rfl⟩ := run_bundler_eq_ok.mp ran
    obtain ⟨content, entry, rfl⟩ := run_verify_eq_ok.mp verified
    exact .intro (.intro stage compile) exited entry
  · rintro ⟨⟨stage, compile⟩, bundle, entry⟩
    rw [execute, Build.bundle]
    simp only [bind_assoc]
    rw [Action.run_bind_of_ok stage, HostM.run_info_bind, Action.run_bind_of_ok compile,
      HostM.run_info_bind, HostM.run_info_bind, Action.run_get_bind,
      Action.run_bind_of_ok (run_bundler_eq_ok.mpr ⟨_, _, _, bundle, rfl⟩)]
    exact run_verify_eq_ok.mpr ⟨_, entry, rfl⟩

/-- There is one URL at most. -/
theorem Succeeds.url_unique {url other : String}
    (first : Succeeds tools settings job schema store host url)
    (second : Succeeds tools settings job schema store host other) : url = other := by
  obtain ⟨started, after, ⟨opens⟩, works, published⟩ := first
  obtain ⟨started', after', ⟨opens'⟩, works', published'⟩ := second
  rw [opens] at opens'
  cases opens'
  have ran := run_execute_eq_ok.mpr works
  rw [run_execute_eq_ok.mpr works'] at ran
  cases ran
  cases published with
  | notRequested =>
    cases published'
    rfl
  | published ran =>
    cases published' with
    | published ran' =>
      rw [ran] at ran'
      cases ran'
      rfl

/-! ## Reports -/

/-- Whether a result reports a success with a URL for which it is one, or else a failure with a
message. -/
structure Reports (buildId : String) (good : String → Prop) (result : BuildResult) : Prop where
  buildId_eq : result.buildId = buildId
  worked : result.success = true → good result.url
  failed : result.success = false → result.url = "" ∧ result.message ≠ "" ∧ ∀ url, ¬good url

/-- Whether an action has a value on a host of which something holds. -/
def Gives {α : Type} (action : HostM σ α) (host : Host σ) (holds : α → Prop) : Prop :=
  ∃ value after, action.run host = (.ok value, after) ∧ holds value

/-- Publishing reports whether it worked out. -/
theorem reports_publish {store : Store σ} :
    Gives (publish tools settings job schema job.staging store) host
      (Reports job.buildId (Publishes tools settings job schema host (some store))) := by
  cases ran : ((publisherOf settings store).publishDist store tools.order job.staging.distDir
      schema.app job.environment).run host with
  | mk outcome after =>
    have attempted := HostM.run_attempt ((publisherOf settings store).publishDist store tools.order
      job.staging.distDir schema.app job.environment) host
    rw [ran] at attempted
    rw [Gives, publish, Action.run_bind_of_ok attempted]
    cases outcome with
    | ok url => exact ⟨_, _, rfl, rfl, fun _ => .published ran, fun failed => by cases failed⟩
    | error failure =>
      refine ⟨_, _, rfl, rfl, fun good => (by cases good), fun _ => ⟨rfl, by simp, fun url published => ?_⟩⟩
      cases published with
      | published worked =>
        rw [ran] at worked
        cases worked

/-- The report of a build whose steps ended in some way. -/
theorem reports_conclude {outcome : Except Failure Unit} :
    Gives (conclude tools settings job schema job.staging store outcome) host
      (Reports job.buildId fun url =>
        outcome = .ok () ∧ Publishes tools settings job schema host store url) := by
  cases outcome with
  | ok done =>
    cases store with
    | none =>
      exact ⟨_, _, rfl, rfl, fun _ => ⟨rfl, .notRequested⟩, fun failed => by cases failed⟩
    | some store =>
      obtain ⟨result, after, ran, same, good, failed⟩ :=
        @reports_publish σ tools settings job schema host store
      refine ⟨result, after, ran, same, fun success => ⟨rfl, good success⟩, fun failure => ?_⟩
      obtain ⟨url, message, never⟩ := failed failure
      exact ⟨url, message, fun url published => never url published.2⟩
  | error failure =>
    cases store <;> exact ⟨_, _, rfl, rfl, fun good => (by cases good),
      fun _ => ⟨rfl, failure.message_ne, fun url ⟨failed, _⟩ => by cases failed⟩⟩

/-- A log is published or not, without a failure. -/
theorem gives_uploadLog {publisher : Publisher} {store : Store σ} {log : Path} {app : AppInfo}
    {environment : Environment} :
    Gives (publisher.uploadLog store log app environment) host fun _ => True := by
  rw [Gives, Publisher.uploadLog, Action.run_get_bind]
  by_cases found : host.files.pathExists log = true
  · simp only [found, Bool.not_true, Bool.false_eq_true, ↓reduceIte]
    rw [Action.run_get_bind, Action.run_bind_of_ok (HostM.run_attempt _ _)]
    generalize ((store.put _ log log.cacheControl).run host).1 = outcome
    cases outcome <;> exact ⟨_, _, rfl, trivial⟩
  · simp only [found, Bool.not_false, ↓reduceIte]
    exact ⟨_, _, rfl, trivial⟩

/-- In the end the log is published, closed and removed with the directory of the build. -/
theorem run_finish {store : Store σ} {result : BuildResult} {logUrl : String} {uploaded : Host σ}
    (ran : ((publisherOf settings store).uploadLog store job.staging.logPath schema.app
      job.environment).run host = (.ok logUrl, uploaded)) :
    (finish settings job schema job.staging store result).run host =
      (.ok { result with logUrl },
        ((HostM.onFiles job.staging.clean).run { uploaded with log := none }).2) := by
  have closed : closeLog.run uploaded = (.ok (), { uploaded with log := none }) := rfl
  rw [finish, Action.run_bind_of_ok ran, Action.run_bind_of_ok closed,
    Action.run_bind_of_ok (HostM.run_attempt _ _)]
  rfl

/-- What is done in the end changes no more of a report than the URL of the log. -/
theorem reports_finish {store : Store σ} {good : String → Prop} {result : BuildResult}
    (reports : Reports job.buildId good result) :
    Gives (finish settings job schema job.staging store result) host (Reports job.buildId good) := by
  obtain ⟨logUrl, after, uploaded, -⟩ := @gives_uploadLog σ host (publisherOf settings store) store
    job.staging.logPath schema.app job.environment
  rw [Gives, run_finish uploaded]
  exact ⟨_, _, rfl, reports.buildId_eq, reports.worked, reports.failed⟩

/-- The report of a build whose log is open. -/
theorem reports_narratedRun :
    Gives (narratedRun tools settings job schema job.staging store) host
      (Reports job.buildId fun url => ∃ after,
        Works tools settings job schema (host.begun job) after ∧
          Publishes tools settings job schema after store url) := by
  rw [Gives, narratedRun, HostM.run_info_bind, ← Host.begun, Action.run_get_bind,
    Action.run_bind_of_ok (HostM.run_attempt _ _)]
  generalize host.begun job = started
  cases executed : (execute tools settings job schema job.staging).run started with
  | mk outcome after =>
    obtain ⟨result, concluded, ran, same, good, failed⟩ :=
      @reports_conclude σ tools settings job schema store after outcome
    have reports : ∀ time, Reports job.buildId (fun url => ∃ after,
        Works tools settings job schema started after ∧
          Publishes tools settings job schema after store url)
        { result with buildTime := time } := by
      intro time
      refine ⟨same, fun success => ?_, fun failure => ?_⟩
      · obtain ⟨worked, published⟩ := good success
        exact ⟨after, run_execute_eq_ok.mp (worked ▸ executed), published⟩
      · obtain ⟨url, message, never⟩ := failed failure
        refine ⟨url, message, fun url ⟨last, works, published⟩ => never url ?_⟩
        have ran := run_execute_eq_ok.mpr works
        rw [executed] at ran
        cases ran
        exact ⟨rfl, published⟩
    dsimp only
    rw [Action.run_bind_of_ok ran, Action.run_get_bind, HostM.run_info_bind]
    cases store with
    | none => exact ⟨_, _, rfl, reports _⟩
    | some store => exact reports_finish (reports _)

/-- The report of a job that is not refused. -/
theorem reports_run (accepted : job.validate = .ok ()) (parsed : job.parseSchema = .ok schema) :
    Gives (run tools settings job store) host
      (Reports job.buildId (Succeeds tools settings job schema store host)) := by
  rw [Gives, run, accepted, parsed]
  dsimp only
  rw [Action.run_bind_of_ok (HostM.run_attempt _ _), ← Job.staging]
  cases opening : (openLog job.staging.logPath).run host with
  | mk outcome opened =>
    cases outcome with
    | error failure =>
      refine ⟨{ BuildResult.ofBuild job.buildId with message := failure.message }, opened, rfl, rfl,
        fun good => (by cases good), fun _ => ⟨rfl, failure.message_ne, fun url succeeds => ?_⟩⟩
      obtain ⟨last, after, ⟨opens⟩, -⟩ := succeeds
      rw [opening] at opens
      cases opens
    | ok done =>
      obtain ⟨result, after, ran, same, worked, failed⟩ :=
        @reports_narratedRun σ tools settings job schema store opened
      refine ⟨result, after, ran, same, fun success => ?_, fun failure => ?_⟩
      · obtain ⟨last, works, published⟩ := worked success
        exact ⟨_, last, .intro opening, works, published⟩
      · obtain ⟨url, message, never⟩ := failed failure
        refine ⟨url, message, fun url succeeds => never url ?_⟩
        obtain ⟨first, last, ⟨opens⟩, works, published⟩ := succeeds
        rw [opening] at opens
        cases opens
        exact ⟨last, works, published⟩

/-- A job is refused, or accepted with a schema. -/
theorem refuses_or_accepts (job : Job) :
    (∃ failure, Refuses job failure) ∨
      ∃ schema, job.validate = .ok () ∧ job.parseSchema = .ok schema := by
  cases validated : job.validate with
  | error failure => exact .inl ⟨failure, .inl validated⟩
  | ok done =>
    cases parsed : job.parseSchema with
    | error failure => exact .inl ⟨failure, .inr ⟨validated, parsed⟩⟩
    | ok schema => exact .inr ⟨schema, rfl, rfl⟩

/-- A job that is refused fails at once. -/
theorem run_of_refuses {failure : Failure} (refuses : Refuses job failure) :
    (run tools settings job store).run host = (.error failure, host) := by
  rcases refuses with invalid | ⟨valid, unread⟩
  · rw [run, invalid]
    rfl
  · rw [run, valid]
    dsimp only
    rw [unread]
    rfl

/-- A build fails only if its job is refused, and then nothing is touched. Any other build has a
result that names it, and that is a success exactly if every step of the build worked out: its URL is
then the one of what was published, and a failure has no URL but a message. -/
theorem run_coherent (tools : Tools) (settings : Settings) (job : Job) (store : Option (Store σ))
    (host : Host σ) :
    (∀ failure after, (run tools settings job store).run host = (.error failure, after) ↔
      Refuses job failure ∧ after = host) ∧
    ∀ result after, (run tools settings job store).run host = (.ok result, after) →
      ∃ schema, job.validate = .ok () ∧ job.parseSchema = .ok schema ∧
        result.buildId = job.buildId ∧
        (result.success = true ↔ ∃ url, Succeeds tools settings job schema store host url) ∧
        (∀ url, Succeeds tools settings job schema store host url → result.url = url) ∧
        (result.success = false → result.url = "" ∧ result.message ≠ "") := by
  constructor
  · intro failure after
    constructor
    · intro ran
      rcases refuses_or_accepts job with ⟨found, refuses⟩ | ⟨schema, valid, parsed⟩
      · rw [run_of_refuses refuses] at ran
        cases ran
        exact ⟨refuses, rfl⟩
      · obtain ⟨result, last, worked, -⟩ :=
          @reports_run σ tools settings job schema store host valid parsed
        rw [worked] at ran
        cases ran
    · rintro ⟨refuses, rfl⟩
      exact run_of_refuses refuses
  · intro result after ran
    rcases refuses_or_accepts job with ⟨found, refuses⟩ | ⟨schema, valid, parsed⟩
    · rw [run_of_refuses refuses] at ran
      cases ran
    · obtain ⟨found, last, worked, same, good, failed⟩ :=
        @reports_run σ tools settings job schema store host valid parsed
      rw [worked] at ran
      cases ran
      refine ⟨schema, valid, parsed, same, ⟨fun success => ⟨_, good success⟩, ?_⟩,
        fun url succeeds => ?_, fun failure => ?_⟩
      · rintro ⟨url, succeeds⟩
        by_contra failure
        exact (failed (Bool.eq_false_iff.mpr failure)).2.2 url succeeds
      · by_cases success : result.success = true
        · exact (good success).url_unique succeeds
        · exact absurd succeeds ((failed (Bool.eq_false_iff.mpr success)).2.2 url)
      · obtain ⟨url, message, -⟩ := failed failure
        exact ⟨url, message⟩

end Build

end PageBuild
