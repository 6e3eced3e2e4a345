import PageBuild.Proofs.Build.Overlook

/-!
# Bundlers that builds start

A build starts one bundler at most. All that it does before the run of its bundler and after it starts
none, so that a build and one that goes no further than its bundler start the same.
-/
namespace PageBuild

open PageBuild.Action (Moves)

variable {σ α β : Type}

/-- Whether no bundler was started. -/
def Host.SameBundlers (before after : Host σ) : Prop := after.bundlers = before.bundlers

/-- Whether one bundler was started at most. -/
def Host.StartsOne (before after : Host σ) : Prop :=
  ∃ groups : List UInt32, groups.length ≤ 1 ∧ after.bundlers = before.bundlers ++ groups

instance : IsPreorder (Host σ) Host.SameBundlers where
  refl _ := rfl
  trans _ _ _ first second := second.trans first

/-- Files and logs do not matter to the bundlers. -/
theorem Host.overlooks_sameBundlers :
    Host.Overlooks (Host.SameBundlers : Host σ → Host σ → Prop) :=
  ⟨fun _ _ => rfl, fun _ _ => rfl⟩

open Host (overlooks_sameBundlers)

/-- No bundler is not more than one. -/
theorem Host.SameBundlers.startsOne {before after : Host σ} (same : before.SameBundlers after) :
    before.StartsOne after :=
  ⟨[], by simp, by rw [same, List.append_nil]⟩

/-- What starts one bundler at most may come after what starts none. -/
theorem HostM.startsOne_bind {action : HostM σ α} {next : α → HostM σ β}
    (moves : Moves Host.SameBundlers action) (onward : ∀ value, Moves Host.StartsOne (next value)) :
    Moves Host.StartsOne (action >>= next) := by
  refine moves.join onward Host.SameBundlers.startsOne ?_
  rintro before middle after same ⟨groups, one, started⟩
  exact ⟨groups, one, by rw [started, same]⟩

/-- To run a bundler is to start it, if that is possible. -/
theorem Bundler.startsOne_run (runner : Runner) (call : CommandCall) :
    Moves Host.StartsOne (run runner call : HostM σ Unit) := by
  intro host
  rw [run, Action.run_get_bind]
  generalize runner call host.files = outcome
  obtain ⟨came, files⟩ := outcome
  cases came with
  | notStarted cause => exact ⟨[], by simp, (List.append_nil _).symm⟩
  | started group ending milliseconds =>
    refine ⟨[group], by simp, ?_⟩
    dsimp only
    cases verdict call ending <;> rfl

namespace Build

variable {tools : Tools} {settings : Settings} {job : Job} {schema : Schema} {staging : Staging}

/-- To bundle a tree starts one bundler at most. -/
theorem startsOne_bundle :
    Moves Host.StartsOne (bundle tools settings job schema staging : HostM σ Unit) :=
  HostM.startsOne_bind (overlooks_sameBundlers.moves_onFiles _) fun _ =>
    HostM.startsOne_bind (overlooks_sameBundlers.moves_narrate _ _) fun _ =>
    HostM.startsOne_bind (overlooks_sameBundlers.moves_compile _ _ _ _ _) fun _ =>
    HostM.startsOne_bind (overlooks_sameBundlers.moves_narrate _ _) fun _ =>
    HostM.startsOne_bind (overlooks_sameBundlers.moves_narrate _ _) fun _ =>
      Action.moves_get_bind fun _ => Bundler.startsOne_run _ _ _

/-- A job that is run as far as its bundler starts one bundler at most. -/
theorem startsOne_runToBundler :
    Moves Host.StartsOne (runToBundler tools settings job : HostM σ Unit) := by
  have refused : ∀ failure : Failure, Moves Host.StartsOne (throw failure : HostM σ Unit) :=
    fun failure host => (Action.moves_throw failure host : Host.SameBundlers host _).startsOne
  rw [runToBundler]
  cases job.validate with
  | error failure => exact refused failure
  | ok done =>
    cases job.parseSchema with
    | error failure => exact refused failure
    | ok schema =>
      exact HostM.startsOne_bind (overlooks_sameBundlers.moves_openLog _) fun _ =>
        HostM.startsOne_bind (overlooks_sameBundlers.moves_narrate _ _) fun _ => startsOne_bundle

/-- What a build with an open log does after its bundler starts no other. -/
theorem sameBundlers_narratedRun {store : Option (Store σ)}
    (puts : ∀ target ∈ store, ∀ key file cache, Moves Host.SameBundlers (target.put key file cache))
    (host : Host σ) :
    ((bundle tools settings job schema staging).run (host.begun job)).2.SameBundlers
      ((narratedRun tools settings job schema staging store).run host).2 := by
  rw [narratedRun, HostM.run_info_bind, ← Host.begun, Action.run_get_bind,
    Action.run_bind_of_ok (HostM.run_attempt _ _)]
  generalize host.begun job = started
  have verified : ((bundle tools settings job schema staging).run started).2.SameBundlers
      ((execute tools settings job schema staging).run started).2 :=
    Action.related_run_bind (fun _ => overlooks_sameBundlers.moves_verify _ _ _) started
  generalize (execute tools settings job schema staging).run started = executed at verified ⊢
  obtain ⟨outcome, middle⟩ := executed
  refine trans_of Host.SameBundlers verified ?_
  refine ((overlooks_sameBundlers.moves_conclude puts).bind fun concluded =>
    Action.moves_get_bind fun last => ?_) middle
  refine (overlooks_sameBundlers.moves_narrate _ _).bind (fun _ => ?_) last
  cases store with
  | none => exact overlooks_sameBundlers.moves_closeLog.bind fun _ => Action.moves_pure _
  | some store => exact overlooks_sameBundlers.moves_finish (puts store rfl)

/-- A build starts the bundlers that it starts when it goes no further. -/
theorem sameBundlers_runLocal (tools : Tools) (settings : Settings) (job : Job) (host : Host σ) :
    ((runToBundler tools settings job).run host).2.SameBundlers
      ((runLocal tools settings job).run host).2 := by
  rw [runToBundler, runLocal, run]
  cases job.validate with
  | error failure => rfl
  | ok done =>
    cases job.parseSchema with
    | error failure => rfl
    | ok schema =>
      dsimp only
      rw [Action.run_bind_of_ok (HostM.run_attempt _ _), Action.run_bind]
      cases opening : (openLog _ : HostM σ Unit).run host with
      | mk outcome opened =>
        cases outcome with
        | error failure => rfl
        | ok done =>
          dsimp only
          rw [HostM.run_info_bind]
          refine sameBundlers_narratedRun (fun target named key file cache => ?_) opened
          obtain ⟨root, -, rfl⟩ := Option.map_eq_some_iff.mp named
          exact overlooks_sameBundlers.moves_put _ key file cache

end Build

end PageBuild
