import PageBuild.Proofs.Worker.Errand
import PageBuild.Proofs.Worker.Thread

/-!
# The phases of an errand

The states that the launch of an errand goes through (`Phase`), with the most turns that are left
from each. Every turn leads from a phase to one with fewer turns left (`Phase.of_step`), and in every
phase the errand is over or someone has a turn (`Phase.over_or_turn`), so that all runs come to the
outcome of the errand (`Errand.comesTo`).
-/
namespace PageBuild.Worker

/-- A worker that was asked to stop, with what it is about to do and the most turns that it has
left. -/
inductive Parting : Nat → Process → List Act → Prop
  | asked {condemned : Bool} : Parting 2 ⟨[.shutdown], true, [], condemned, none⟩ []
  | leaving {condemned : Bool} :
    Parting 1 ⟨[], true, [], condemned, none⟩ [.doing (.exit (some 0))]
  | left {condemned : Bool} {status : ExitStatus} {acts : List Act}
      (rest : acts = [] ∨ acts = [.doing (.exit (some 0))]) :
    Parting 0 ⟨[], true, [], condemned, some status⟩ acts

/-- What a thread has left to do to note the group of a bundler. -/
inductive Noting : List KillSwitch.Op → Prop
  | nothing : Noting []
  | check (group : UInt32) : Noting [.check group]
  | store (group : UInt32) : Noting (KillSwitch.track group)

/-- The most turns that worker and thread take for what the worker does. -/
def Act.turns : Act → Nat
  | .doing (.say (.bundling _)) => 4
  | _ => 1

/-- The most turns that worker and thread take for reports. -/
def reportTurns (reports : List Act) : Nat := (reports.map Act.turns).sum

/-- How far an errand is, with the most turns that are left. -/
inductive Phase {σ : Type} (errand : Errand σ) : Nat → Attended σ → Prop
  | fresh :
    Phase errand (reportTurns errand.reports + 16)
      (.begin errand.path errand.limit errand.request errand.before)
  | started :
    Phase errand (reportTurns errand.reports + 15)
      ⟨errand.launchAt .greeting (.running [] []) [] 0 [], [], errand.before⟩
  | greeted :
    Phase errand (reportTurns errand.reports + 14)
      ⟨errand.launchAt .meeting (.running [.ping] []) [] 0 [], [], errand.before⟩
  | answering :
    Phase errand (reportTurns errand.reports + 13)
      ⟨errand.launchAt .meeting (.running [] []) [] 0 [], [.doing (.say .pong)], errand.before⟩
  | answered :
    Phase errand (reportTurns errand.reports + 12)
      ⟨errand.launchAt .meeting (.running [] [.pong]) [.said .pong] 0 [], [], errand.before⟩
  | recording :
    Phase errand (reportTurns errand.reports + 11)
      ⟨errand.launchAt .recording (.running [] []) [.said .pong] 0 [], [], errand.before⟩
  | sending :
    Phase errand (reportTurns errand.reports + 10)
      ⟨errand.launchAt .sending (.running [] []) [.said .pong] 0 [], [], errand.before⟩
  | ordered :
    Phase errand (reportTurns errand.reports + 9)
      ⟨errand.launchAt .reading (.running [.build errand.request] []) [.said .pong] 0 [], [],
        errand.before⟩
  | working {events : List Event} {group : UInt32} {pending : List KillSwitch.Op}
      {groups : List UInt32} {reports : List Act} (noting : Noting pending)
      (isReport : ∀ act ∈ reports, act.IsReport) :
    Phase errand (reportTurns reports + 3 * groups.length + pending.length + 8)
      ⟨errand.launchAt .reading (.running [] (groups.map .bundling)) events group pending,
        reports ++ [.doing (.say errand.closing)], errand.after⟩
  | closed {events : List Event} {group : UInt32} {pending : List KillSwitch.Op}
      {groups : List UInt32} (noting : Noting pending) :
    Phase errand (3 * groups.length + pending.length + 7)
      ⟨errand.launchAt .reading (.running [] (groups.map .bundling ++ [errand.closing])) events
        group pending, [], errand.after⟩
  | dismissing {events : List Event} {group : UInt32} :
    Phase errand 6
      ⟨errand.launchAt (.dismissing errand.outcome) (.running [] []) events group [], [],
        errand.after⟩
  | killing {events : List Event} {group : UInt32} {turns : Nat} {process : Process}
      {acts : List Act} (parting : Parting turns process acts) :
    Phase errand (turns + 3)
      ⟨errand.launchAt (.killing errand.outcome) process events group [], acts, errand.after⟩
  | reaping {events : List Event} {group : UInt32} {turns : Nat} {process : Process}
      {acts : List Act} (parting : Parting turns process acts)
      (doomed : process.Doomed) :
    Phase errand (turns + 2)
      ⟨errand.launchAt (.reaping errand.outcome) process events group [], acts, errand.after⟩
  | done {events : List Event} {group : UInt32} {process : Process} {acts : List Act}
      (parting : Parting 0 process acts) :
    Phase errand 1
      ⟨errand.launchAt (.done errand.outcome) process events group [], acts, errand.after⟩
  | over {events : List Event} {group : UInt32} {process : Process} {acts : List Act}
      (parting : Parting 0 process acts) :
    Phase errand 0
      ⟨{ errand.launchAt (.done errand.outcome) process events group [] with
          outcome := some errand.outcome }, acts, errand.after⟩

/-- A worker that is sent the killing signal goes on as before until it ends. -/
theorem Parting.condemn {turns : Nat} {process : Process} {acts : List Act}
    (parting : Parting turns process acts) :
    Parting turns (if process.isAlive then process.condemn else process) acts ∧
      (if process.isAlive then process.condemn else process).Doomed := by
  cases parting with
  | asked => exact ⟨.asked, fun _ => rfl⟩
  | leaving => exact ⟨.leaving, fun _ => rfl⟩
  | left rest => exact ⟨.left rest, Process.Doomed.of_ended rfl⟩

section Next

variable {σ : Type} {errand : Errand σ} {attended next : Attended σ} {turn : Turn} {turns : Nat}
  {stage : Stage} {events : List Event} {group : UInt32}

/-- While the thread works and the worker runs, a turn is the thread's or the worker's. -/
theorem thread_or_worker_of_step {input : List Command} {unread : List Response}
    {pending : List KillSwitch.Op} {acts : List Act} {state : σ} (begun : stage ≠ .starting)
    (undone : ∀ outcome, stage ≠ .done outcome)
    (stepped : Attended.step errand.program
      ⟨errand.launchAt stage (.running input unread) events group pending, acts, state⟩ turn =
        some next) :
    (∃ launch, (errand.launchAt stage (.running input unread) events group pending).threadStep =
        some launch ∧ next = ⟨launch, acts, state⟩) ∨
      Attended.workerTurn errand.program
        ⟨errand.launchAt stage (.running input unread) events group pending, acts, state⟩ =
          some next := by
  by_cases thread : turn = .thread
  · subst thread
    obtain ⟨launch, moved, rfl⟩ := Option.map_eq_some_iff.mp stepped
    exact .inl ⟨launch, moved, rfl⟩
  · by_cases worker : turn = .worker
    · subst worker
      exact .inr stepped
    · rw [Errand.step_eq_none begun undone thread worker] at stepped
      cases stepped

section Alone

variable {input : List Command} {unread : List Response} {pending : List KillSwitch.Op}
  {acts : List Act} {state : σ}

/-- While the worker has nothing to do, a turn is the thread's. -/
theorem eq_of_thread {launch : Launch} (begun : stage ≠ .starting)
    (undone : ∀ outcome, stage ≠ .done outcome)
    (moves : (errand.launchAt stage (.running input unread) events group pending).threadStep =
      some launch)
    (rests : Attended.workerTurn errand.program
      ⟨errand.launchAt stage (.running input unread) events group pending, acts, state⟩ = none)
    (stepped : Attended.step errand.program
      ⟨errand.launchAt stage (.running input unread) events group pending, acts, state⟩ turn =
        some next) :
    next = ⟨launch, acts, state⟩ := by
  rcases thread_or_worker_of_step begun undone stepped with ⟨taken, moved, rfl⟩ | worked
  · have same : launch = taken := Option.some.inj (moves.symm.trans moved)
    rw [same]
  · rw [rests] at worked
    cases worked

/-- While the thread waits, a turn is the worker's. -/
theorem eq_of_worker {after : Attended σ} (begun : stage ≠ .starting)
    (undone : ∀ outcome, stage ≠ .done outcome)
    (waits : (errand.launchAt stage (.running input unread) events group pending).threadStep = none)
    (works : Attended.workerTurn errand.program
      ⟨errand.launchAt stage (.running input unread) events group pending, acts, state⟩ = some after)
    (stepped : Attended.step errand.program
      ⟨errand.launchAt stage (.running input unread) events group pending, acts, state⟩ turn =
        some next) :
    next = after := by
  rcases thread_or_worker_of_step begun undone stepped with ⟨taken, moved, -⟩ | worked
  · rw [waits] at moved
    cases moved
  · exact Option.some.inj (worked.symm.trans works)

end Alone

/-- A worker that was asked to stop ends in as many turns of its own as it has left, or by the
killing signal. -/
theorem Parting.of_step {process : Process} {acts : List Act} (parting : Parting turns process acts)
    (begun : stage ≠ .starting) (undone : ∀ outcome, stage ≠ .done outcome)
    (thread : turn ≠ .thread)
    (stepped : Attended.step errand.program
      ⟨errand.launchAt stage process events group [], acts, errand.after⟩ turn = some next) :
    ∃ fewer < turns, ∃ process' events' acts', Parting fewer process' acts' ∧
      (process.Doomed → process'.Doomed) ∧
      next = ⟨errand.launchAt stage process' events' group [], acts', errand.after⟩ := by
  cases turn with
  | start => simp [Attended.step, Launch.step, Errand.launchAt, begun] at stepped
  | thread => exact absurd rfl thread
  | timer => cases stepped
  | join =>
    cases stage with
    | done outcome => exact absurd rfl (undone outcome)
    | _ => cases stepped
  | worker =>
    cases parting with
    | asked =>
      rw [Attended.step, Errand.worker_listen rfl rfl (heard?_of_short shutdown_short), errand.hear_shutdown] at stepped
      cases stepped
      exact ⟨1, by omega, _, _, _, .leaving, id, rfl⟩
    | leaving =>
      rw [Attended.step, Errand.worker_exit rfl] at stepped
      cases stepped
      exact ⟨0, by omega, _, _, _, .left (.inl rfl), fun _ => .of_ended rfl, rfl⟩
    | left rest =>
      rcases rest with rfl | rfl <;> cases stepped
  | die =>
    cases parting with
    | @asked condemned | @leaving condemned =>
      cases condemned with
      | false => cases stepped
      | true =>
        rw [Errand.step_die rfl rfl] at stepped
        cases stepped
        exact ⟨0, by omega, _, _, _, .left (by simp), fun _ => .of_ended rfl, rfl⟩
    | left => cases stepped

/-- A thread that notes the group of a bundler does nothing else. -/
theorem Noting.of_threadStep {process : Process} {pending : List KillSwitch.Op} {launch : Launch}
    (noting : Noting pending) (busy : pending ≠ [])
    (moved : (errand.launchAt stage process events group pending).threadStep = some launch) :
    ∃ pending' group', Noting pending' ∧ pending'.length < pending.length ∧
      launch = errand.launchAt stage process events group' pending' := by
  cases noting with
  | nothing => exact absurd rfl busy
  | check found =>
    rw [Errand.thread_check] at moved
    cases moved
    exact ⟨[], _, .nothing, by simp, rfl⟩
  | store found =>
    rw [Errand.thread_store] at moved
    cases moved
    exact ⟨[.check found], _, .check found, by simp [KillSwitch.track], rfl⟩

/-- While the worker works, reports are made and noted, until the job is closed. -/
theorem Phase.of_step_working {pending : List KillSwitch.Op} {groups : List UInt32}
    {reports : List Act} (noting : Noting pending) (isReport : ∀ act ∈ reports, act.IsReport)
    (stepped : Attended.step errand.program
      ⟨errand.launchAt .reading (.running [] (groups.map .bundling)) events group pending,
        reports ++ [.doing (.say errand.closing)], errand.after⟩ turn = some next) :
    ∃ fewer < reportTurns reports + 3 * groups.length + pending.length + 8,
      Phase errand fewer next := by
  rcases thread_or_worker_of_step (by simp) (by simp) stepped with ⟨launch, moved, rfl⟩ | worked
  · by_cases idle : pending = []
    · subst idle
      cases groups with
      | nil => cases moved
      | cons found groups =>
        rw [List.map_cons, Errand.thread_reading_bundling] at moved
        cases moved
        exact ⟨_, by simp [KillSwitch.track]; omega, .working (.store found) isReport⟩
    · obtain ⟨pending', group', noting', shorter, rfl⟩ := noting.of_threadStep idle moved
      exact ⟨_, by omega, .working noting' isReport⟩
  · cases reports with
    | nil =>
      rw [List.nil_append, Errand.worker_say] at worked
      cases worked
      exact ⟨_, by omega, .closed noting⟩
    | cons act reports =>
      obtain ⟨first, others⟩ := List.forall_mem_cons.mp isReport
      rcases first.pause_or_bundling with ⟨_, rfl⟩ | ⟨found, rfl⟩
      · cases worked
        refine ⟨_, ?_, .working noting others⟩
        simp only [reportTurns, List.map_cons, List.sum_cons, Act.turns]
        omega
      · rw [List.cons_append, Errand.worker_say] at worked
        cases worked
        have joined : groups.map Response.bundling ++ [.bundling found] =
            (groups ++ [found]).map .bundling := by
          simp
        rw [joined]
        refine ⟨_, ?_, .working noting others⟩
        simp only [reportTurns, List.map_cons, List.sum_cons, Act.turns, List.length_append,
          List.length_cons, List.length_nil]
        omega

/-- Once the job is closed, what was reported is noted, and the worker is dismissed. -/
theorem Phase.of_step_closed {pending : List KillSwitch.Op} {groups : List UInt32}
    (noting : Noting pending)
    (stepped : Attended.step errand.program
      ⟨errand.launchAt .reading (.running [] (groups.map .bundling ++ [errand.closing])) events
        group pending, [], errand.after⟩ turn = some next) :
    ∃ fewer < 3 * groups.length + pending.length + 7, Phase errand fewer next := by
  rcases thread_or_worker_of_step (by simp) (by simp) stepped with ⟨launch, moved, rfl⟩ | worked
  · by_cases idle : pending = []
    · subst idle
      cases groups with
      | nil =>
        rw [List.map_nil, List.nil_append, Errand.thread_reading_closing] at moved
        cases moved
        exact ⟨_, by omega, .dismissing⟩
      | cons found groups =>
        rw [List.map_cons, List.cons_append, Errand.thread_reading_bundling] at moved
        cases moved
        exact ⟨_, by simp [KillSwitch.track]; omega, .closed (.store found)⟩
    · obtain ⟨pending', group', noting', shorter, rfl⟩ := noting.of_threadStep idle moved
      exact ⟨_, by omega, .closed noting'⟩
  · cases worked

/-- The first turn starts the worker. -/
theorem Phase.of_step_fresh
    (stepped : Attended.step errand.program
      (.begin errand.path errand.limit errand.request errand.before) turn = some next) :
    ∃ fewer < reportTurns errand.reports + 16, Phase errand fewer next := by
  cases turn with
  | start =>
    change some (Attended.mk (errand.launchAt .greeting (.running [] []) [] 0 [])
      (errand.program.start errand.before).1 (errand.program.start errand.before).2) =
        some next at stepped
    rw [errand.start_eq] at stepped
    cases stepped
    exact ⟨_, by omega, .started⟩
  | _ => cases stepped

/-- The worker reads the job and begins its reports. -/
theorem Phase.of_step_ordered
    (stepped : Attended.step errand.program
      ⟨errand.launchAt .reading (.running [.build errand.request] []) [.said .pong] 0 [], [],
        errand.before⟩ turn = some next) :
    ∃ fewer < reportTurns errand.reports + 9, Phase errand fewer next := by
  obtain rfl := eq_of_worker (by simp) (by simp) Errand.thread_reading_nil
    (Errand.worker_listen rfl rfl (heard?_of_short errand.request_short)) stepped
  rw [errand.hear_build]
  have none_noted : reportTurns errand.reports + 3 * ([] : List UInt32).length +
      ([] : List KillSwitch.Op).length + 8 < reportTurns errand.reports + 9 := by
    simp
  exact ⟨_, none_noted, .working .nothing errand.isReport⟩

/-- A worker that was asked to stop is sent the killing signal, whether it has ended or not. -/
theorem Phase.of_step_killing {process : Process} {acts : List Act}
    (parting : Parting turns process acts)
    (stepped : Attended.step errand.program
      ⟨errand.launchAt (.killing errand.outcome) process events group [], acts, errand.after⟩ turn =
        some next) :
    ∃ fewer < turns + 3, Phase errand fewer next := by
  by_cases thread : turn = .thread
  · subst thread
    rw [Attended.step, Launch.step, Errand.thread_killing] at stepped
    cases stepped
    exact ⟨_, by omega, .reaping parting.condemn.1 parting.condemn.2⟩
  · obtain ⟨fewer, less, process, events, acts, parting, -, rfl⟩ :=
      parting.of_step (by simp) (by simp) thread stepped
    exact ⟨_, by omega, .killing parting⟩

/-- The thread waits for the end of a worker that it has killed. -/
theorem Phase.of_step_reaping {process : Process} {acts : List Act}
    (parting : Parting turns process acts) (doomed : process.Doomed)
    (stepped : Attended.step errand.program
      ⟨errand.launchAt (.reaping errand.outcome) process events group [], acts, errand.after⟩ turn =
        some next) :
    ∃ fewer < turns + 2, Phase errand fewer next := by
  by_cases thread : turn = .thread
  · subst thread
    rw [Attended.step, Launch.step, Errand.thread_reaping] at stepped
    cases parting with
    | left rest =>
      cases stepped
      exact ⟨_, by omega, .done (.left rest)⟩
    | _ => cases stepped
  · obtain ⟨fewer, less, process, events, acts, parting, still, rfl⟩ :=
      parting.of_step (by simp) (by simp) thread stepped
    exact ⟨_, by omega, .reaping parting (still doomed)⟩

/-- Once the thread is done, the launch comes to its outcome. -/
theorem Phase.of_step_done {process : Process} {acts : List Act} (parting : Parting 0 process acts)
    (stepped : Attended.step errand.program
      ⟨errand.launchAt (.done errand.outcome) process events group [], acts, errand.after⟩ turn =
        some next) :
    Phase errand 0 next := by
  cases parting with
  | left rest =>
    cases turn with
    | join =>
      cases stepped
      exact .over (.left rest)
    | worker => rcases rest with rfl | rfl <;> cases stepped
    | _ => cases stepped

/-- An errand that is over has no turn. -/
theorem step_over {process : Process} {acts : List Act} (parting : Parting 0 process acts) :
    Attended.step errand.program
      ⟨{ errand.launchAt (.done errand.outcome) process events group [] with
          outcome := some errand.outcome }, acts, errand.after⟩ turn = none := by
  cases parting with
  | left rest =>
    cases turn with
    | worker => rcases rest with rfl | rfl <;> rfl
    | _ => rfl

/-- Every turn brings an errand closer to its end. -/
theorem Phase.of_step (phase : Phase errand turns attended)
    (stepped : attended.step errand.program turn = some next) :
    ∃ fewer < turns, Phase errand fewer next := by
  cases phase with
  | fresh => exact of_step_fresh stepped
  | started =>
    obtain rfl := eq_of_thread (by simp) (by simp) Errand.thread_greeting rfl stepped
    exact ⟨_, by omega, .greeted⟩
  | greeted =>
    obtain rfl := eq_of_worker (by simp) (by simp) Errand.thread_meeting_nil
      (Errand.worker_listen rfl rfl (heard?_of_short ping_short)) stepped
    rw [errand.hear_ping]
    exact ⟨_, by omega, .answering⟩
  | answering =>
    obtain rfl := eq_of_worker (by simp) (by simp) Errand.thread_meeting_nil Errand.worker_say stepped
    exact ⟨_, by omega, .answered⟩
  | answered =>
    obtain rfl := eq_of_thread (by simp) (by simp) Errand.thread_meeting_pong rfl stepped
    exact ⟨_, by omega, .recording⟩
  | recording =>
    obtain rfl := eq_of_thread (by simp) (by simp) Errand.thread_recording rfl stepped
    exact ⟨_, by omega, .sending⟩
  | sending =>
    obtain rfl := eq_of_thread (by simp) (by simp) Errand.thread_sending rfl stepped
    exact ⟨_, by omega, .ordered⟩
  | ordered => exact of_step_ordered stepped
  | working noting isReport => exact of_step_working noting isReport stepped
  | closed noting => exact of_step_closed noting stepped
  | dismissing =>
    obtain rfl := eq_of_thread (by simp) (by simp) Errand.thread_dismissing rfl stepped
    exact ⟨_, by omega, .killing .asked⟩
  | killing parting => exact of_step_killing parting stepped
  | reaping parting doomed => exact of_step_reaping parting doomed stepped
  | done parting => exact ⟨0, by omega, of_step_done parting stepped⟩
  | «over» parting =>
    rw [step_over parting] at stepped
    cases stepped

/-- An errand is over, and came to its outcome, or someone has a turn. -/
theorem Phase.over_or_turn (phase : Phase errand turns attended) :
    (attended.launch.outcome = some errand.outcome ∧ attended.state = errand.after) ∨
      (attended.launch.outcome = none ∧
        ∃ turn next, attended.step errand.program turn = some next) := by
  cases phase with
  | fresh => exact .inr ⟨rfl, .start, _, rfl⟩
  | started => exact .inr ⟨rfl, .thread, _, Errand.step_thread Errand.thread_greeting⟩
  | greeted =>
    have heard := heard?_of_short ping_short
    exact .inr ⟨rfl, .worker, by
      rw [Attended.step, Errand.worker_listen rfl rfl heard]
      exact ⟨_, rfl⟩⟩
  | answering => exact .inr ⟨rfl, .worker, _, Errand.worker_say⟩
  | answered => exact .inr ⟨rfl, .thread, _, Errand.step_thread Errand.thread_meeting_pong⟩
  | recording => exact .inr ⟨rfl, .thread, _, Errand.step_thread Errand.thread_recording⟩
  | sending => exact .inr ⟨rfl, .thread, _, Errand.step_thread Errand.thread_sending⟩
  | ordered =>
    have heard := heard?_of_short errand.request_short
    exact .inr ⟨rfl, .worker, by
      rw [Attended.step, Errand.worker_listen rfl rfl heard]
      exact ⟨_, rfl⟩⟩
  | @working _ _ _ _ reports noting isReport =>
    cases reports with
    | nil => exact .inr ⟨rfl, .worker, _, Errand.worker_say⟩
    | cons act reports =>
      rcases (isReport act List.mem_cons_self).pause_or_bundling with ⟨_, rfl⟩ | ⟨found, rfl⟩
      · exact .inr ⟨rfl, .worker, _, rfl⟩
      · exact .inr ⟨rfl, .worker, _, Errand.worker_say⟩
  | @closed _ _ _ groups noting =>
    cases noting with
    | nothing =>
      cases groups with
      | nil => exact .inr ⟨rfl, .thread, _, Errand.step_thread Errand.thread_reading_closing⟩
      | cons found groups =>
        exact .inr ⟨rfl, .thread, _, Errand.step_thread Errand.thread_reading_bundling⟩
    | check found => exact .inr ⟨rfl, .thread, _, Errand.step_thread Errand.thread_check⟩
    | store found => exact .inr ⟨rfl, .thread, _, Errand.step_thread Errand.thread_store⟩
  | dismissing => exact .inr ⟨rfl, .thread, _, Errand.step_thread Errand.thread_dismissing⟩
  | killing parting => exact .inr ⟨rfl, .thread, _, Errand.step_thread Errand.thread_killing⟩
  | reaping parting doomed =>
    cases parting with
    | asked | leaving => exact .inr ⟨rfl, .die, _, Errand.step_die rfl (doomed rfl)⟩
    | left rest => exact .inr ⟨rfl, .thread, _, Errand.step_thread Errand.thread_reaping⟩
  | done parting => exact .inr ⟨rfl, .join, _, rfl⟩
  | «over» parting => exact .inl ⟨rfl, rfl⟩

/-- A run of an errand takes no more turns than were left, and is then in a phase. -/
theorem Phase.of_run {order : List Turn} (phase : Phase errand turns attended)
    (ran : attended.run errand.program order = some next) :
    ∃ fewer, order.length + fewer ≤ turns ∧ Phase errand fewer next := by
  induction order generalizing attended turns with
  | nil =>
    cases ran
    exact ⟨turns, by simp, phase⟩
  | cons turn order ih =>
    obtain ⟨middle, stepped, rest⟩ := Option.bind_eq_some_iff.mp ran
    obtain ⟨fewer, less, phase⟩ := phase.of_step stepped
    obtain ⟨fewest, within, phase⟩ := ih phase rest
    exact ⟨fewest, by rw [List.length_cons]; omega, phase⟩

end Next

/-- Whatever the order of the turns, the launch of an errand comes to its outcome. -/
theorem Errand.comesTo {σ : Type} (errand : Errand σ) :
    (Attended.begin errand.path errand.limit errand.request errand.before).ComesTo errand.program
      errand.outcome errand.after where
  only order last ran found came := by
    obtain ⟨_, _, phase⟩ := Phase.fresh.of_run ran
    rcases phase.over_or_turn with ⟨ended, state⟩ | ⟨open_, _⟩
    · rw [ended] at came
      exact ⟨(Option.some.inj came).symm, state⟩
    · rw [open_] at came
      cases came
  goesOn order last ran open_ := by
    obtain ⟨_, _, phase⟩ := Phase.fresh.of_run ran
    rcases phase.over_or_turn with ⟨ended, _⟩ | ⟨_, goesOn⟩
    · rw [ended] at open_
      cases open_
    · exact goesOn
  ends := by
    refine ⟨reportTurns errand.reports + 16, fun order last ran => ?_⟩
    obtain ⟨_, within, _⟩ := Phase.fresh.of_run ran
    omega

end PageBuild.Worker
