import PageBuild.Proofs.Worker.Report

/-!
# Launches with a limit

The timer can only use the switch that the thread hands over. So the worker of a launch is out of its
reach while it is greeted, and within reach from then on: a switch that was used has sent it the killing
signal, or is about to (`Launch.Timed`). All runs of a launch with a limit keep this, and once its time
ran out the worker is doomed as soon as thread and timer are done with the switch
(`Launch.Overdue.doomed`).
-/
namespace PageBuild.Worker.Launch

open KillSwitch (Op)

/-- Whether the worker of a launch was sent the killing signal or has ended, if there is one. -/
def IsDoomed (launch : Launch) : Prop :=
  ∀ handle, launch.handle = some handle → handle.process.Doomed

/-! ## The invariant -/

/-- Whether a launch with a limit has its worker within reach of the switch that it handed over, and
out of reach before that. -/
structure Timed (limit : Duration) (launch : Launch) : Prop where
  limited : launch.limit = some limit
  /-- There is no worker before the thread begins. -/
  fresh : launch.stage = .starting → launch.handle = none ∧ launch.isRecorded = false
  /-- While a worker is greeted, nobody kills it. -/
  spared : launch.stage = .greeting ∨ launch.stage = .meeting → launch.isRecorded = false ∧
    ∀ handle, launch.handle = some handle →
      handle.isKilled = false ∧ handle.process.isCondemned = false
  /-- A switch that was not handed over is not used. -/
  unused : launch.isRecorded = false → launch.timer = [] ∧ launch.switch.used = false
  /-- A worker whose end is awaited was met before. -/
  handed : launch.stage = .waiting → launch.isRecorded = true
  /-- A switch that was used has signalled the worker or is about to. -/
  signalled : launch.switch.used = true →
    launch.IsDoomed ∨ .send .worker ∈ launch.pending ∨ .send .worker ∈ launch.timer
  reaped : ∀ outcome, launch.stage = .reaping outcome → launch.IsDoomed
  ended : ∀ outcome handle, launch.stage = .done outcome → launch.handle = some handle →
    handle.process.isAlive = false
  expired : ∀ outcome, launch.outcome = some outcome → launch.hasExpired = true →
    outcome = Launch.expired limit

/-- A worker stays doomed whatever the switch does. -/
theorem IsDoomed.afterOp {launch : Launch} (doomed : launch.IsDoomed) (op : Op) {handle : Handle}
    (has : (launch.handle.map fun handle => handle.afterOp op) = some handle) :
    handle.process.Doomed := by
  obtain ⟨before, had, rfl⟩ := Option.map_eq_some_iff.mp has
  exact (Handle.follows_afterOp op).doomed (doomed before had)

/-- A thread that uses the switch signals the worker, or leaves the signal to itself or another. -/
theorem signalled_of_use {launch : Launch} {op : Op} {ops : List Op} {elsewhere : Prop}
    (before : launch.switch.used = true →
      launch.IsDoomed ∨ .send .worker ∈ op :: ops ∨ elsewhere)
    (used : (launch.switch.advance (op :: ops)).1.used = true) :
    (∀ handle, (launch.handle.map fun handle => handle.afterOp op) = some handle →
        handle.process.Doomed) ∨
      .send .worker ∈ (launch.switch.advance (op :: ops)).2 ∨ elsewhere := by
  have left : (launch.switch.advance (op :: ops)).2 = (launch.switch.apply op).2 ++ ops := rfl
  by_cases sends : op = .send .worker
  · left
    intro handle has
    obtain ⟨running, -, rfl⟩ := Option.map_eq_some_iff.mp has
    rw [Handle.afterOp, if_pos sends]
    exact Handle.doomed_condemn
  by_cases usedBefore : launch.switch.used = true
  · rcases before usedBefore with doomed | mine | theirs
    · exact .inl fun handle => doomed.afterOp op
    · have later := (List.mem_cons.mp mine).resolve_left (Ne.symm sends)
      exact .inr (.inl (left ▸ List.mem_append_right _ later))
    · exact .inr (.inr theirs)
  · -- Only the first use marks the switch, and it goes on to signal the worker.
    right; left
    rw [left]
    cases op <;> simp_all [KillSwitch.advance, KillSwitch.apply]

namespace Timed

variable {limit : Duration} {groups : List UInt32} {launch next : Launch} {move : Move}

/-- A launch with a limit that is about to begin. -/
theorem begin {path : Path} {request : BuildRequest} :
    Timed limit (ofRequest path (some limit) request) where
  limited := rfl
  fresh _ := ⟨rfl, rfl⟩
  spared stage := by rcases stage with stage | stage <;> cases stage
  unused _ := ⟨rfl, rfl⟩
  handed stage := by cases stage
  signalled used := by cases used
  reaped outcome stage := by cases stage
  ended outcome handle stage := by cases stage
  expired outcome none := by cases none

/-- Thread or timer uses the switch that was handed over. -/
theorem use (timed : Timed limit launch) (recorded : launch.isRecorded = true) (op : Op)
    {switch : KillSwitch} {pending timer : List Op}
    (signalled : switch.used = true →
      (∀ handle, (launch.handle.map fun handle => handle.afterOp op) = some handle →
          handle.process.Doomed) ∨
        .send .worker ∈ pending ∨ .send .worker ∈ timer) :
    Timed limit
      { launch with
        handle := launch.handle.map fun handle => handle.afterOp op, switch, pending, timer } where
  limited := timed.limited
  fresh stage := by
    have unrecorded := (timed.fresh stage).2
    rw [recorded] at unrecorded
    cases unrecorded
  spared stage := by
    have unrecorded := (timed.spared stage).1
    rw [recorded] at unrecorded
    cases unrecorded
  unused unrecorded := by
    change launch.isRecorded = false at unrecorded
    rw [recorded] at unrecorded
    cases unrecorded
  handed _ := recorded
  signalled := signalled
  reaped outcome stage handle := (timed.reaped outcome stage).afterOp op
  ended outcome handle stage has := by
    obtain ⟨before, had, rfl⟩ := Option.map_eq_some_iff.mp has
    rw [(Handle.follows_afterOp op).isAlive_eq]
    exact timed.ended outcome before stage had
  expired := timed.expired

/-- The thread goes on with the worker. -/
theorem advance {handle after : Handle} {before stage : Stage} (timed : Timed limit launch)
    (watched : Watched groups launch) (has : launch.handle = some handle)
    (was : launch.stage = before) (advances : Advances launch.request handle before stage after) :
    Timed limit { launch with handle := some after, stage } where
  limited := timed.limited
  fresh begins := by
    change stage = .starting at begins
    subst begins
    cases advances
  spared greets := by
    change stage = .greeting ∨ stage = .meeting at greets
    rcases greets with rfl | rfl
    · cases advances
    · cases advances
      obtain ⟨unrecorded, kept⟩ := timed.spared (.inl was)
      obtain ⟨alive, uncondemned⟩ := kept handle has
      obtain ⟨-, -, -, condemned, killed⟩ := @Handle.send_process handle .ping
      refine ⟨unrecorded, fun _ same => ?_⟩
      cases same
      exact ⟨killed.trans alive, condemned.trans uncondemned⟩
  unused := timed.unused
  handed waits := by
    change stage = .waiting at waits
    subst waits
    cases advances
    exact watched.recorded (.inr was)
  signalled used := by
    refine (timed.signalled used).imp_left fun doomed _ same => ?_
    cases same
    exact advances.follows.doomed (doomed handle has)
  reaped outcome reaps _ same := by
    change stage = .reaping outcome at reaps
    subst reaps
    cases same
    cases advances
    exact Handle.doomed_condemn
  ended outcome _ done same := by
    change stage = .done outcome at done
    subst done
    cases same
    cases advances with
    | reap ended => rw [Process.isAlive, ended]; rfl
  expired := timed.expired

/-- The thread takes a step. -/
theorem thread (timed : Timed limit launch) (watched : Watched groups launch)
    (acts : Acts launch next) : Timed limit next := by
  cases acts with
  | @use op ops pending =>
    have recorded := watched.recorded (watched.busy (by simp [pending]))
    rw [useSwitch_cons]
    exact timed.use recorded op (signalled_of_use (pending ▸ timed.signalled))
  | record idle stage =>
    exact {
      limited := timed.limited
      fresh := fun begins => by cases begins
      spared := fun greets => by rcases greets with greets | greets <;> cases greets
      unused := fun unrecorded => by cases unrecorded
      handed := fun _ => rfl
      signalled := fun used => by
        have before := timed.signalled used
        rw [idle] at before
        exact before.imp_right fun sent => .inr (sent.resolve_left (List.not_mem_nil))
      reaped := fun outcome reaps => by cases reaps
      ended := fun outcome handle done => by cases done
      expired := timed.expired }
  | @track handle group idle has stage said =>
    exact {
      limited := timed.limited
      fresh := fun begins => by simp [stage] at begins
      spared := fun greets => by simp [stage] at greets
      unused := timed.unused
      handed := fun waits => by simp [stage] at waits
      signalled := fun used => by
        have before := timed.signalled used
        rw [idle] at before
        rcases before with doomed | none | timer
        · refine .inl fun _ same => ?_
          cases same
          exact Handle.follows_receive.doomed (doomed handle has)
        · cases none
        · exact .inr (.inr timer)
      reaped := fun outcome reaps => by simp [stage] at reaps
      ended := fun outcome _ done => by simp [stage] at done
      expired := timed.expired }
  | advance idle has advances => exact timed.advance watched has rfl advances

/-- The timer takes a step. -/
theorem timer (timed : Timed limit launch) (moved : launch.timerStep = some next) :
    Timed limit next := by
  obtain ⟨op, ops, timer, rfl⟩ := of_timerStep moved
  have recorded : launch.isRecorded = true := by
    by_contra kept
    have idle := (timed.unused (by simpa using kept)).1
    rw [timer] at idle
    cases idle
  have signalled := timed.signalled
  rw [timer] at signalled
  rw [useSwitch_cons]
  exact timed.use recorded op fun used =>
    (signalled_of_use (fun before => (signalled before).imp_right Or.symm) used).imp_right Or.symm

/-- The file of the worker is run, or cannot be. -/
theorem start {cause : Option IoCause} (timed : Timed limit launch)
    (moved : launch.step (.start cause) = some next) : Timed limit next := by
  rw [Launch.step] at moved
  split at moved
  · rename_i begins
    cases moved
    obtain ⟨none, unrecorded⟩ := timed.fresh begins
    have unused := timed.unused unrecorded
    cases cause with
    | none =>
      exact {
        limited := timed.limited
        fresh := fun stage => by cases stage
        spared := fun _ => ⟨unrecorded, fun handle same => by cases same; exact ⟨rfl, rfl⟩⟩
        unused := timed.unused
        handed := fun stage => by cases stage
        signalled := fun used => by
          change launch.switch.used = true at used
          rw [unused.2] at used
          cases used
        reaped := fun outcome stage => by cases stage
        ended := fun outcome handle stage => by cases stage
        expired := timed.expired }
    | some cause =>
      have missing : ∀ handle, launch.handle ≠ some handle := fun handle has => by
        rw [none] at has
        cases has
      exact {
        limited := timed.limited
        fresh := fun stage => by cases stage
        spared := fun stage => by rcases stage with stage | stage <;> cases stage
        unused := timed.unused
        handed := fun stage => by cases stage
        signalled := timed.signalled
        reaped := fun outcome stage => by cases stage
        ended := fun outcome handle _ has => absurd has (missing handle)
        expired := timed.expired }
  · cases moved

/-- The time runs out. -/
theorem expire (timed : Timed limit launch) (watched : Watched groups launch)
    (moved : launch.expire = some next) : Timed limit next := by
  rw [Launch.expire] at moved
  split at moved
  · rename_i allowed
    cases moved
    simp only [Bool.and_eq_true, Bool.not_eq_eq_eq_not, Bool.not_true, Option.isNone_iff_eq_none]
      at allowed
    obtain ⟨⟨-, unexpired⟩, running⟩ := allowed
    obtain ⟨-, unused, -, -⟩ := watched.early unexpired
    exact { timed with
      unused := fun unrecorded => by
        change launch.isRecorded = false at unrecorded
        exact ⟨by simp [unrecorded], unused⟩
      signalled := fun used => by
        change launch.switch.used = true at used
        rw [unused] at used
        cases used
      expired := fun outcome concluded _ => by
        obtain ⟨-, last, done⟩ := watched.concluded (by rw [concluded]; simp)
        simp [threadOutcome?, done] at running }
  · cases moved

/-- The launch comes to its outcome. -/
theorem join (timed : Timed limit launch) (moved : launch.join = some next) : Timed limit next := by
  rw [Launch.join] at moved
  split at moved
  · cases moved
    exact { timed with
      expired := fun outcome concluded expired => by
        change launch.hasExpired = true at expired
        simpa [expired, timed.limited, eq_comm] using concluded }
  · cases moved

/-- The worker does something. -/
theorem worker {doing : Doing} (timed : Timed limit launch)
    (moved : launch.workerStep doing = some next) : Timed limit next := by
  obtain ⟨handle, has, moved⟩ := Option.bind_eq_some_iff.mp moved
  split at moved
  · rename_i alive
    obtain ⟨process, applied, rfl⟩ := Option.map_eq_some_iff.mp moved
    have condemned : process.isCondemned = handle.process.isCondemned := by
      cases doing <;> simp only [Doing.apply] at applied
      case listen => split at applied <;> cases applied; rfl
      case die => split at applied <;> cases applied; rfl
      all_goals cases applied; rfl
    have doomed : handle.process.Doomed → process.Doomed := fun doomed _ =>
      condemned.trans (doomed alive)
    exact {
      limited := timed.limited
      fresh := fun stage => by
        have none := (timed.fresh stage).1
        rw [has] at none
        cases none
      spared := fun stage => by
        obtain ⟨unrecorded, kept⟩ := timed.spared stage
        refine ⟨unrecorded, fun _ same => ?_⟩
        cases same
        exact ⟨(kept handle has).1, condemned.trans (kept handle has).2⟩
      unused := timed.unused
      handed := timed.handed
      signalled := fun used => (timed.signalled used).imp_left fun all _ same => by
        cases same
        exact doomed (all handle has)
      reaped := fun outcome stage _ same => by
        cases same
        exact doomed (timed.reaped outcome stage handle has)
      ended := fun outcome _ stage _ => by
        have ended := timed.ended outcome handle stage has
        rw [alive] at ended
        cases ended
      expired := timed.expired }
  · cases moved

/-- Every move of a launch keeps it timed. -/
theorem step (timed : Timed limit launch) (watched : Watched groups launch)
    (moved : launch.step move = some next) : Timed limit next := by
  cases move with
  | start cause => exact timed.start moved
  | thread => exact timed.thread watched (acts_of_threadStep moved)
  | timer => exact timed.timer moved
  | expire => exact timed.expire watched moved
  | join => exact timed.join moved
  | worker doing => exact timed.worker moved
  | endGroup group =>
    cases moved
    exact { timed with }

end Timed

/-! ## Launches that are overdue -/

/-- Whether a launch ran out of time. -/
structure Overdue (limit : Duration) (launch : Launch) : Prop where
  watched : ∃ groups, Watched groups launch
  timed : Timed limit launch
  expired : launch.hasExpired = true

/-- A move that the worker has no part in, but for its death by the killing signal. -/
inductive Move.IsForced : Move → Prop
  | thread : IsForced .thread
  | timer : IsForced .timer
  | join : IsForced .join
  | die : IsForced (.worker .die)

namespace Overdue

variable {limit : Duration} {launch next : Launch} {move : Move} {handle : Handle}

/-- A launch that a run leads to. -/
theorem of_run {path : Path} {request : BuildRequest} {moves : List Move}
    (ran : (ofRequest path (some limit) request).run moves = some launch)
    (expired : launch.hasExpired = true) : Overdue limit launch := by
  have both : ∀ {groups : List UInt32} {first : Launch}, Watched groups first → Timed limit first →
      first.run moves = some launch → (∃ groups, Watched groups launch) ∧ Timed limit launch := by
    clear ran expired
    induction moves with
    | nil =>
      intro groups first watched timed ran
      cases ran
      exact ⟨⟨groups, watched⟩, timed⟩
    | cons move moves ih =>
      intro groups first watched timed ran
      obtain ⟨after, moved, ran⟩ := Option.bind_eq_some_iff.mp ran
      exact ih (watched.step moved) (timed.step watched moved) ran
  obtain ⟨watched, timed⟩ := both .begin .begin ran
  exact ⟨watched, timed, expired⟩

/-- What is forced leaves a launch overdue. -/
theorem step (overdue : Overdue limit launch) (forced : move.IsForced)
    (moved : launch.step move = some next) : Overdue limit next := by
  obtain ⟨⟨groups, watched⟩, timed, expired⟩ := overdue
  refine ⟨⟨_, watched.step moved⟩, timed.step watched moved, ?_⟩
  cases forced with
  | thread =>
    cases acts_of_threadStep moved with
    | use => rw [useSwitch_cons]; exact expired
    | record | track | advance => exact expired
  | timer =>
    obtain ⟨op, ops, -, rfl⟩ := of_timerStep moved
    rw [useSwitch_cons]
    exact expired
  | join =>
    change launch.join = some next at moved
    rw [Launch.join] at moved
    split at moved <;> cases moved
    exact expired
  | die =>
    obtain ⟨handle, -, moved⟩ := Option.bind_eq_some_iff.mp moved
    split at moved
    · obtain ⟨process, -, rfl⟩ := Option.map_eq_some_iff.mp moved
      exact expired
    · cases moved

/-- Moves that are forced leave a launch overdue. -/
theorem run {moves : List Move} (overdue : Overdue limit launch)
    (forced : ∀ move ∈ moves, move.IsForced) (ran : launch.run moves = some next) :
    Overdue limit next := by
  induction moves generalizing launch with
  | nil =>
    cases ran
    exact overdue
  | cons move moves ih =>
    obtain ⟨first, others⟩ := List.forall_mem_cons.mp forced
    obtain ⟨after, moved, ran⟩ := Option.bind_eq_some_iff.mp ran
    exact ih (overdue.step first moved) others ran

/-- A switch that was handed over has doomed the worker once thread and timer are done with it. -/
theorem doomed (overdue : Overdue limit launch) (recorded : launch.isRecorded = true)
    (idle : launch.pending = []) (timer : launch.timer = []) : launch.IsDoomed := by
  obtain ⟨⟨groups, watched⟩, timed, expired⟩ := overdue
  have used : launch.switch.used = true := by
    simpa [idle, timer] using watched.late expired recorded
  simpa [idle, timer] using timed.signalled used

end Overdue

end PageBuild.Worker.Launch
