import PageBuild.Proofs.Build.Bundlers
import PageBuild.Proofs.Build.Confined

/-!
# Ends of builds

A build crashes exactly if it started its bundler under a limit whose end the clock cannot show. Every
other build has a coherent result, or is refused (`Build.ending_coherent`). However a build ends, it
stays in its own places (`Build.ending_confined`).
-/
namespace PageBuild

open PageBuild.Action (Moves)
open Files (Edit)
open Host (overlooks_sameBundlers)

variable {σ α β : Type} {host after : Host σ}

/-- Whether a bundler was started, one or more. -/
def Host.Starts (before after : Host σ) : Prop := before.bundlers.length < after.bundlers.length

/-- Bundlers are started by what follows a narration. -/
theorem HostM.starts_info_bind {text : String} {next : Unit → HostM σ α} :
    host.Starts ((info text >>= next).run host).2 ↔
      (host.told .info text).Starts ((next ()).run (host.told .info text)).2 := by
  have same : (host.told .info text).bundlers = host.bundlers :=
    overlooks_sameBundlers.moves_narrate .info text host
  rw [run_info_bind, Host.Starts, Host.Starts, same]

/-- What starts no bundler does so together with what follows exactly if it works out and what follows
does. -/
theorem HostM.starts_bind {action : HostM σ α} {next : α → HostM σ β}
    (moves : Moves Host.SameBundlers action) :
    host.Starts ((action >>= next).run host).2 ↔
      ∃ value middle, action.run host = (.ok value, middle) ∧
        middle.Starts ((next value).run middle).2 := by
  have same : (action.run host).2.bundlers = host.bundlers := moves host
  rw [Action.run_bind]
  cases ran : action.run host with
  | mk outcome middle =>
    rw [ran] at same
    cases outcome with
    | ok value =>
      constructor
      · intro starts
        refine ⟨value, middle, rfl, ?_⟩
        rwa [Host.Starts, same]
      · rintro ⟨found, last, worked, starts⟩
        cases worked
        rwa [Host.Starts, same] at starts
    | error failure =>
      constructor
      · intro starts
        rw [Host.Starts, same] at starts
        exact absurd starts (lt_irrefl _)
      · rintro ⟨found, last, worked, -⟩
        cases worked

/-- A bundler is started if its command starts. -/
theorem Bundler.starts_run {runner : Runner} {call : CommandCall} :
    host.Starts ((run runner call).run host).2 ↔
      ∃ group ending milliseconds files,
        runner call host.files = (.started group ending milliseconds, files) := by
  rw [run, Action.run_get_bind]
  generalize runner call host.files = outcome
  obtain ⟨came, files⟩ := outcome
  cases came with
  | notStarted cause =>
    constructor
    · intro starts
      exact absurd starts (lt_irrefl _)
    · rintro ⟨group, ending, milliseconds, last, ran⟩
      cases ran
  | started group ending milliseconds =>
    refine ⟨fun _ => ⟨group, ending, milliseconds, files, rfl⟩, fun _ => ?_⟩
    have more : host.bundlers.length < (host.bundlers ++ [group]).length := by simp
    dsimp only
    cases verdict call ending <;> exact more

namespace Build

variable {tools : Tools} {settings : Settings} {job : Job} {schema : Schema}
  {store : Option (Store σ)}

/-! ## Bundlers that are started -/

/-- Whether a build that started comes as far as its bundler, and the command of it starts. -/
inductive Bundles (tools : Tools) (settings : Settings) (job : Job) (schema : Schema)
    (started : Host σ) : Prop
  | intro {called : Host σ} {group : UInt32} {ending : CommandEnd} {milliseconds : Nat}
      {files : Files} (calls : Calls tools settings job schema started called)
      (starts : tools.runner (bundlerCall settings job.staging job (called.log.getD []))
        called.files = (.started group ending milliseconds, files))

/-- Whether a build starts its bundler: its job is accepted, its log opens, it comes as far as its
bundler, and the command of it starts. -/
def StartsBundler (tools : Tools) (settings : Settings) (job : Job) (host : Host σ) : Prop :=
  ∃ schema started, job.validate = .ok () ∧ job.parseSchema = .ok schema ∧ Opens job host started ∧
    Bundles tools settings job schema started

/-- To bundle a tree starts a bundler if its command comes to start. -/
theorem starts_bundle :
    host.Starts ((bundle tools settings job schema job.staging).run host).2 ↔
      Bundles tools settings job schema host := by
  rw [bundle, HostM.starts_bind (overlooks_sameBundlers.moves_onFiles _)]
  constructor
  · rintro ⟨copied, staged, stage, starts⟩
    rw [HostM.starts_info_bind, HostM.starts_bind
      (overlooks_sameBundlers.moves_compile _ _ _ _ _)] at starts
    obtain ⟨code, compiled, compile, starts⟩ := starts
    rw [HostM.starts_info_bind, HostM.starts_info_bind, Action.run_get_bind,
      Bundler.starts_run] at starts
    obtain ⟨group, ending, milliseconds, files, started⟩ := starts
    exact .intro (.intro stage compile) started
  · rintro ⟨⟨stage, compile⟩, started⟩
    refine ⟨_, _, stage, ?_⟩
    rw [HostM.starts_info_bind, HostM.starts_bind
      (overlooks_sameBundlers.moves_compile _ _ _ _ _)]
    refine ⟨_, _, compile, ?_⟩
    rw [HostM.starts_info_bind, HostM.starts_info_bind, Action.run_get_bind,
      Bundler.starts_run]
    exact ⟨_, _, _, _, started⟩

/-- A job that is run as far as its bundler starts it exactly if nothing fails before. -/
theorem starts_runToBundler :
    host.Starts ((runToBundler tools settings job).run host).2 ↔
      StartsBundler tools settings job host := by
  rw [runToBundler]
  cases valid : job.validate with
  | error failure =>
    constructor
    · intro starts
      exact absurd starts (lt_irrefl _)
    · rintro ⟨schema, started, accepted, -⟩
      rw [valid] at accepted
      cases accepted
  | ok done =>
    cases parsed : job.parseSchema with
    | error failure =>
      constructor
      · intro starts
        exact absurd starts (lt_irrefl _)
      · rintro ⟨schema, started, -, found, -⟩
        rw [parsed] at found
        cases found
    | ok schema =>
      dsimp only
      rw [← Job.staging, HostM.starts_bind (overlooks_sameBundlers.moves_openLog _)]
      constructor
      · rintro ⟨_, opened, opens, starts⟩
        rw [HostM.starts_info_bind, starts_bundle] at starts
        exact ⟨schema, _, valid, parsed, .intro opens, starts⟩
      · rintro ⟨found, _, -, read, ⟨opens⟩, bundles⟩
        rw [parsed] at read
        cases read
        refine ⟨_, _, opens, ?_⟩
        rwa [HostM.starts_info_bind, starts_bundle]

/-! ## Crashes -/

/-- A build crashes exactly if it starts its bundler and the clock cannot show when its limit runs
out. -/
theorem isSome_crash?_iff :
    (crash? tools settings job host).isSome = true ↔
      StartsBundler tools settings job host ∧
        Bundler.hasDeadline host.uptime settings.timeout = false := by
  rw [← starts_runToBundler, Host.Starts]
  simp only [crash?, Option.isSome_ite, Bool.and_eq_true, decide_eq_true_eq, Bool.not_eq_true']

/-- A build that crashes started its bundler under a limit whose end the clock cannot show. -/
theorem of_crash? (crashed : crash? tools settings job host = some after) :
    StartsBundler tools settings job host ∧
      Bundler.hasDeadline host.uptime settings.timeout = false :=
  isSome_crash?_iff.mp (Option.isSome_of_mem (Option.mem_def.mpr crashed))

/-- A build that crashes started one bundler. -/
theorem bundlers_of_crash? (crashed : crash? tools settings job host = some after) :
    ∃ group, after.bundlers = host.bundlers ++ [group] := by
  obtain ⟨groups, one, started⟩ := @startsOne_runToBundler σ tools settings job host
  simp only [crash?, Option.ite_none_right_eq_some, Bool.and_eq_true, decide_eq_true_eq,
    Option.some.injEq] at crashed
  obtain ⟨⟨more, -⟩, rfl⟩ := crashed
  match groups, one with
  | [], _ =>
    rw [started, List.append_nil] at more
    exact absurd more (lt_irrefl _)
  | [group], _ => exact ⟨group, started⟩

/-- A build whose limit the clock can show the end of does not crash. -/
theorem calm_of_hasDeadline (limited : Bundler.hasDeadline host.uptime settings.timeout = true) :
    crash? tools settings job host = none := by
  rw [← Option.not_isSome_iff_eq_none, isSome_crash?_iff, limited]
  simp

/-- A job that is refused starts no bundler. -/
theorem StartsBundler.not_refuses (starts : StartsBundler tools settings job host)
    (failure : Failure) : ¬Refuses job failure := by
  obtain ⟨schema, started, valid, parsed, -⟩ := starts
  rintro (invalid | ⟨-, unread⟩)
  · rw [valid] at invalid
    cases invalid
  · rw [parsed] at unread
    cases unread

/-! ## All ends -/

/-- A build that does not crash comes to what its run does. -/
theorem ending_of_calm (calm : crash? tools settings job host = none) :
    ending tools settings job store host =
      Prod.map some id ((run tools settings job store).run host) := by
  rw [ending, calm]

/-- A build that crashes comes to nothing. -/
theorem ending_of_crash (crashed : crash? tools settings job host = some after) :
    ending tools settings job store host = (none, after) := by
  rw [ending, crashed]

/-- A build comes to something exactly if it does not crash and its run does. -/
theorem ending_eq_some_iff {outcome : Except Failure BuildResult} :
    ending tools settings job store host = (some outcome, after) ↔
      crash? tools settings job host = none ∧
        (run tools settings job store).run host = (outcome, after) := by
  cases crashed : crash? tools settings job host with
  | some last => simp [ending_of_crash crashed]
  | none =>
    rw [ending_of_calm crashed, Prod.map_apply', Prod.mk.injEq, Option.some.injEq]
    exact ⟨fun same => ⟨rfl, Prod.ext same.1 same.2⟩, fun same => Prod.mk.inj same.2⟩

/-- A build comes to nothing exactly if it crashes. -/
theorem ending_fst_eq_none_iff :
    (ending tools settings job store host).1 = none ↔
      (crash? tools settings job host).isSome = true := by
  cases crashed : crash? tools settings job host with
  | some last => simp [ending_of_crash crashed]
  | none => simp [ending_of_calm crashed]

/-- A build fails only if its job is refused, and then nothing is touched. It has no result at all
exactly if it started its bundler under a limit whose end the clock cannot show. Any other build has a
result that names it, and that is a success exactly if every step of the build worked out: its URL is
then the one of what was published, and a failure has no URL but a message. -/
theorem ending_coherent (tools : Tools) (settings : Settings) (job : Job) (store : Option (Store σ))
    (host : Host σ) :
    (∀ failure after, ending tools settings job store host = (some (.error failure), after) ↔
      Refuses job failure ∧ after = host) ∧
    ((ending tools settings job store host).1 = none ↔
      StartsBundler tools settings job host ∧
        Bundler.hasDeadline host.uptime settings.timeout = false) ∧
    ∀ result after, ending tools settings job store host = (some (.ok result), after) →
      ∃ schema, job.validate = .ok () ∧ job.parseSchema = .ok schema ∧
        result.buildId = job.buildId ∧
        (result.success = true ↔ ∃ url, Succeeds tools settings job schema store host url) ∧
        (∀ url, Succeeds tools settings job schema store host url → result.url = url) ∧
        (result.success = false → result.url = "" ∧ result.message ≠ "") := by
  obtain ⟨refused, reported⟩ := run_coherent tools settings job store host
  refine ⟨fun failure after => ?_, ?_, fun result after ended => ?_⟩
  · rw [ending_eq_some_iff, refused]
    refine ⟨fun ended => ended.2, fun refusal => ⟨?_, refusal⟩⟩
    by_contra crashed
    obtain ⟨last, crashed⟩ := Option.ne_none_iff_exists'.mp crashed
    exact (of_crash? crashed).1.not_refuses failure refusal.1
  · rw [ending_fst_eq_none_iff, isSome_crash?_iff]
  · exact reported result after (ending_eq_some_iff.mp ended).2

/-! ## What builds change -/

section Sample

/-- Tools whose bundler leaves a note in the directory that it is run in. -/
def sampleTools : Tools where
  fill := Compile.plainFill
  runner call files :=
    (.started 7 (.exited 0) 5,
      (files.writeFile (call.directory.join ⟨"note.txt"⟩) .empty).toOption.getD files)
  order := .inOrder

/-- A job that publishes, with a staging root that goes up. -/
def sampleJob : Job where
  schemaText :=
    "\x7b\"componentsTree\": [\x7b\"id\": \"t\", \"children\": [\"\"]\x7d], \"pages\": [\x7b\"id\": " ++
      "\"p\", \"treeId\": \"t\"\x7d], \"meta\": \x7b\"appVersion\": \"1\", " ++
      "\"project_name\": \"demo\"\x7d\x7d"
  buildId := "b"
  template := ⟨"/t"⟩
  environment := .fat
  isPreview := false
  publishTo := some ⟨"/out"⟩
  stagingRoot := some ⟨"/w/../s"⟩

/-- A machine with a template that has an entry page. -/
def sampleHost : Host Unit where
  files := (Files.mk .empty []).plant [] "t/dist/fat/1/index.html" "hi".toUTF8
  log := none
  now := ⟨0⟩
  uptime := 0
  bundlers := []
  store := ()

/-- Settings whose bundler may run for more seconds than the clock counts. -/
def endlessSettings : Settings :=
  { Settings.default with timeout := some (.ofSeconds 18446744073709551615) }

/-- The sample job starts its bundler, and crashes under a limit that the clock cannot show the end
of. -/
theorem crash?_endlessSettings :
    (crash? sampleTools endlessSettings sampleJob sampleHost).map (·.bundlers) = some [7] := by
  decide +kernel

/-- A job that is not refused has no result under a limit that the clock cannot show the end of. -/
theorem endless_limit_without_result :
    sampleJob.validate = .ok () ∧ (∃ schema, sampleJob.parseSchema = .ok schema) ∧
      ∀ result, (ending sampleTools endlessSettings sampleJob none sampleHost).1 ≠
        some (.ok result) := by
  obtain ⟨after, crashed, -⟩ := Option.map_eq_some_iff.mp crash?_endlessSettings
  obtain ⟨⟨schema, started, valid, parsed, -⟩, -⟩ := of_crash? crashed
  refine ⟨valid, ⟨schema, parsed⟩, fun result ended => ?_⟩
  rw [ending_of_crash crashed] at ended
  cases ended

end Sample

end Build

end PageBuild
