import PageBuild.Proofs.Build.Request
import PageBuild.Proofs.Worker.Course
import PageBuild.Worker.Session

/-!
# Isolated builds

A build that runs in a worker of its own ends as the same build that runs here. The session of a
worker that is launched for a job is an errand (`Session.errand`): it reports the bundlers that the
build starts, and closes with what the build comes to. The settings that the worker runs the job
with are those that the request carries, in which a time limit is a whole number of seconds.
-/
namespace PageBuild

namespace Worker

/-- The outcome of a launch whose worker ran a build that ended in some way. -/
def Outcome.ofRun : Except Failure BuildResult → Outcome
  | .ok result => .completed result
  | .error failure => .failed failure.message

/-- A launch completes with a result exactly if the run ended with it. -/
theorem Outcome.ofRun_eq_completed {ended : Except Failure BuildResult} {result : BuildResult} :
    Outcome.ofRun ended = .completed result ↔ ended = .ok result := by
  cases ended <;> simp [ofRun]

/-- A launch fails with a message exactly if the run ended with a failure that says so. -/
theorem Outcome.ofRun_eq_failed {ended : Except Failure BuildResult} {message : String} :
    Outcome.ofRun ended = .failed message ↔
      ∃ failure, ended = .error failure ∧ failure.message = message := by
  cases ended <;> simp [ofRun]

namespace Session

open PageBuild.Frame (Layout)

variable {σ : Type}

/-- What a build comes to closes the job. -/
theorem ofResponse_closing (ended : Except Failure BuildResult) :
    Reaction.ofResponse (closing ended) = .close (.ofRun ended) := by
  cases ended <;> rfl

/-- What a build comes to is said last. -/
theorem isClosing_closing (ended : Except Failure BuildResult) :
    (closing ended).isClosing = true := by
  cases ended <;> rfl

/-- Whether the frames of a session for one request are all accepted. -/
def Fits (tools : Tools) (request : BuildRequest) (host : Host σ) : Prop :=
  (Layout.command.encode (.build request)).length ≤ Frame.maxBody ∧
    ∀ response ∈ ((build tools request).run host).1,
      (Layout.response.encode response).length ≤ Frame.maxBody

instance (tools : Tools) (request : BuildRequest) (host : Host σ) :
    Decidable (Fits tools request host) :=
  inferInstanceAs (Decidable (_ ∧ _))

/-- What a worker does before it closes a job whose build takes the host from one state to
another. -/
def reports (before after : Host σ) : List Act :=
  (after.bundlers.drop before.bundlers.length).map (fun group => .doing (.say (.bundling group))) ++
    [.pause (after.now.milliseconds - before.now.milliseconds)]

section Build

variable {tools : Tools} {job : Job} {settings : Settings} {host after : Host σ}
  {ended : Except Failure BuildResult}

/-- The answers to a request that was made of a job. -/
theorem build_of
    (ran : (Build.runLocal tools (BuildRequest.of job settings).settings job).run host =
      (ended, after)) :
    (build tools (.of job settings)).run host =
      ((after.bundlers.drop host.bundlers.length).map .bundling ++ [closing ended], after) := by
  change build tools (.of job settings) host = _
  simp only [build, BuildRequest.parts_of]
  rw [ran]

/-- What a worker does for a request that was made of a job. -/
theorem buildActs_of
    (ran : (Build.runLocal tools (BuildRequest.of job settings).settings job).run host =
      (ended, after)) :
    (buildActs tools (.of job settings)).run host =
      (reports host after ++ [.doing (.say (closing ended))], after) := by
  change buildActs tools (.of job settings) host = _
  have said : ∀ (lasted : Nat) (groups : List UInt32),
      (groups.map Response.bundling).flatMap (fun response =>
          if response.isClosing then [.pause lasted, .doing (.say response)]
          else [.doing (.say response)]) =
        groups.map fun group => Act.doing (.say (.bundling group)) := by
    intro lasted groups
    induction groups with
    | nil => rfl
    | cons group groups ih =>
      rw [List.map_cons, List.flatMap_cons, ih]
      rfl
  rw [buildActs, build_of ran]
  dsimp only
  rw [List.flatMap_append, said, List.flatMap_singleton, if_pos (isClosing_closing ended), reports,
    List.append_assoc]
  rfl

/-- The session of a worker that is launched for a job, as an errand. -/
def errand (path : Path) (limit : Option Duration)
    (ran : (Build.runLocal tools (BuildRequest.of job settings).settings job).run host =
      (ended, after))
    (fits : Fits tools (.of job settings) host) : Errand (Host σ) where
  path
  limit
  request := .of job settings
  program := program tools
  before := host
  after
  reports := reports host after
  closing := closing ended
  outcome := .ofRun ended
  start_eq := rfl
  hear_ping := rfl
  hear_build := buildActs_of ran
  hear_shutdown := rfl
  isReport act member := by
    rcases List.mem_append.mp member with said | paused
    · obtain ⟨group, -, rfl⟩ := List.mem_map.mp said
      trivial
    · rw [List.mem_singleton.mp paused]
      trivial
  closes := ofResponse_closing ended
  request_short := fits.1
  closing_short := fits.2 _ (by
    rw [build_of ran]
    simp)

/-- The reports of a job take as long as its build. -/
theorem lasts_errand (path : Path) (limit : Option Duration)
    (ran : (Build.runLocal tools (BuildRequest.of job settings).settings job).run host =
      (ended, after))
    (fits : Fits tools (.of job settings) host) :
    (errand path limit ran fits).lasts = after.now.milliseconds - host.now.milliseconds := by
  have silent : ∀ groups : List UInt32,
      ((groups.map fun group => Act.doing (.say (.bundling group))).map Act.lasts).sum = 0 := by
    intro groups
    induction groups with
    | nil => rfl
    | cons group groups ih => simpa [Act.lasts] using ih
  rw [Errand.lasts]
  change ((reports host after).map Act.lasts).sum = _
  rw [reports, List.map_append, List.sum_append, silent]
  simp [Act.lasts]

end Build

/-- The starter of a worker runs its file. -/
theorem starter_self (tools : Tools) (path : Path) (host : Host σ) :
    starter tools path path host = .ok (program tools) := if_pos rfl

end Session

/-- A build in a worker of its own ends as the build that runs here with the settings that the
request carries: whatever the order in which launch and worker take their turns, the launch comes
to one outcome, which is the result of that build or the words of its failure, and the host is
left as that build leaves it. The launch that takes its turns in one order gives this outcome when
its time does not run out. -/
theorem isolated_build_agrees {σ : Type} (tools : Tools) (path : Path) (limit : Option Duration)
    (job : Job) (settings : Settings) (host : Host σ)
    (fits : Session.Fits tools (.of job settings) host) :
    ∃ taken, (BuildRequest.of job settings).parts = .ok (job, taken) ∧
      ∃ outcome after, ((Build.runLocal tools taken job).run host).2 = after ∧
        (Attended.begin path limit (.of job settings) host).ComesTo (Session.program tools)
          outcome after ∧
        (∀ result, outcome = .completed result ↔
          ((Build.runLocal tools taken job).run host).1 = .ok result) ∧
        (∀ message, outcome = .failed message ↔
          ∃ failure, ((Build.runLocal tools taken job).run host).1 = .error failure ∧
            failure.message = message) ∧
        ((∀ time, limit = some time →
            after.now.milliseconds - host.now.milliseconds ≤ time.milliseconds) →
          launch (Session.starter tools path) path limit (.of job settings) host =
            (some outcome, after)) := by
  obtain ⟨ended, after, ran⟩ :
      ∃ ended after, (Build.runLocal tools (BuildRequest.of job settings).settings job).run host =
        (ended, after) := ⟨_, _, rfl⟩
  let errand := Session.errand path limit ran fits
  refine ⟨_, BuildRequest.parts_of job settings, .ofRun ended, after, ?_, errand.comesTo, ?_, ?_,
    fun inTime => ?_⟩
  · rw [ran]
  · intro result
    rw [ran, Outcome.ofRun_eq_completed]
  · intro message
    rw [ran, Outcome.ofRun_eq_failed]
  · refine errand.launch_eq (Session.starter_self tools path host) ?_
    intro time limited
    rw [Session.lasts_errand]
    exact inTime time limited

section Sample

/-- Tools whose bundler runs for five seconds. -/
def sampleTools : Tools where
  fill text _ := .ok text
  runner _ files := (.started 7 (.exited 0) 5000, files)
  order := .inOrder

/-- A job whose template does not exist. -/
def sampleJob : Job where
  schemaText := "\x7b\"meta\":\x7b\"appVersion\":\"1\"\x7d\x7d"
  buildId := "b"
  template := ⟨"/t"⟩
  environment := .fat
  isPreview := false
  publishTo := none
  stagingRoot := none

/-- A host without files. -/
def sampleHost : Host Unit where
  files := default
  log := none
  now := ⟨0⟩
  uptime := 0
  bundlers := []
  store := ()

/-- The build of the job with the settings that its request carries. -/
def sampleRun : Except Failure BuildResult × Host Unit :=
  (Build.runLocal sampleTools (BuildRequest.of sampleJob .default).settings sampleJob).run sampleHost

/-- A worker that is given a minute completes a job with the result of a build that failed. -/
theorem isolated_build_agrees_failed :
    Session.Fits sampleTools (.of sampleJob .default) sampleHost ∧
      ∃ result, result.message = "IO error: template directory /t does not exist" ∧
        launch (Session.starter sampleTools ⟨"loom-worker"⟩) ⟨"loom-worker"⟩ (some (.ofSeconds 60))
          (.of sampleJob .default) sampleHost = (some (.completed result), sampleRun.2) := by
  have checked : Session.Fits sampleTools (.of sampleJob .default) sampleHost ∧
      sampleRun.1.toOption.map (·.message) =
        some "IO error: template directory /t does not exist" ∧
      sampleRun.2.now.milliseconds - sampleHost.now.milliseconds ≤
        (Duration.ofSeconds 60).milliseconds := by decide +kernel
  obtain ⟨fits, fails, inTime⟩ := checked
  obtain ⟨taken, parts, outcome, after, left, -, completed, -, launched⟩ :=
    isolated_build_agrees sampleTools ⟨"loom-worker"⟩ (some (.ofSeconds 60)) sampleJob .default
      sampleHost fits
  rw [BuildRequest.parts_of] at parts
  obtain ⟨-, rfl⟩ := Prod.mk.inj (Except.ok.inj parts)
  obtain ⟨result, ran, said⟩ := Option.map_eq_some_iff.mp fails
  have ended : sampleRun.1 = .ok result := by
    cases ended : sampleRun.1 <;> simp_all [Except.toOption]
  have left : sampleRun.2 = after := left
  refine ⟨fits, result, said, ?_⟩
  rw [left, ← (completed result).mpr ended]
  refine launched fun time limited => ?_
  rw [← Option.some.inj limited, ← left]
  exact inTime

end Sample

end Worker

end PageBuild
