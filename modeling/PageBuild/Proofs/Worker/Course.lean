import PageBuild.Proofs.Worker.Phase

/-!
# The course of an errand

`Worker.launch` takes the turns of a launch in one order: the parent goes on as far as it can
before the worker does its next thing. It does not stop before the parent waits (`Settles`), and
for an errand that is done in time it gives the outcome of the errand (`Errand.launch_eq`).
-/
namespace PageBuild.Worker

namespace Launch

/-- The next move of a parent that goes on by itself. -/
def parentStep (launch : Launch) : Option Launch :=
  launch.firstStep? [.thread, .timer, .worker .die, .join]

/-- A parent goes on from one launch to another, where it waits, in so many steps. -/
inductive Settles : Nat → Launch → Launch → Prop
  | rest {launch : Launch} (waits : launch.parentStep = none) : Settles 0 launch launch
  | step {steps : Nat} {launch next last : Launch} (moved : launch.parentStep = some next)
      (settles : Settles steps next last) : Settles (steps + 1) launch last

/-- A parent that goes on comes to where it waits. -/
theorem Settles.settleWithin {steps : Nat} {launch last : Launch}
    (settles : Settles steps launch last) (spare : Nat) :
    launch.settleWithin (steps + spare) = last := by
  induction settles with
  | rest waits =>
    cases spare with
    | zero => rfl
    | succ spare =>
      rw [Nat.zero_add]
      unfold Launch.settleWithin
      rw [parentStep] at waits
      rw [waits]
  | @step steps launch next last moved _ ih =>
    rw [Nat.add_right_comm]
    unfold Launch.settleWithin
    rw [parentStep] at moved
    rw [moved]
    exact ih

/-- A parent that has no more than forty steps to take takes them all. -/
theorem Settles.settle {steps : Nat} {launch last : Launch} (settles : Settles steps launch last)
    (few : steps ≤ 40) : launch.settle = last := by
  obtain ⟨spare, enough⟩ := Nat.exists_eq_add_of_le (Nat.le_add_right_of_le few)
  rw [Launch.settle, enough]
  exact settles.settleWithin spare

/-- A step of the thread is the next move of its parent. -/
theorem parentStep_of_thread {launch next : Launch} (moved : launch.threadStep = some next) :
    launch.parentStep = some next := by
  rw [parentStep, firstStep?, step, moved]

/-- A move after which the parent goes on as far as it can. -/
theorem Settles.tryStep {steps : Nat} {launch next last : Launch} {move : Move}
    (settles : Settles steps next last) (few : steps ≤ 40) (moved : launch.step move = some next) :
    launch.tryStep move = last := by
  rw [Launch.tryStep, moved, Option.getD_some, settles.settle few]

/-- A move that is not possible changes nothing where the parent waits. -/
theorem tryStep_eq_self {launch : Launch} {move : Move} (waits : launch.parentStep = none)
    (refused : launch.step move = none) : launch.tryStep move = launch := by
  rw [tryStep, refused, Option.getD_none, (Settles.rest waits).settle (Nat.zero_le _)]

end Launch

namespace Course

variable {σ : Type} {program : Program σ} {course : Course} {state : σ} {commands : Nat}

/-- A program that is sent a command hears it. -/
theorem attend_of_command {command : Command} {acts : List Act} {after : σ}
    (sent : course.launch.nextCommand? = some command)
    (heard : program.hear command state = (acts, after)) :
    attend program (commands + 1) course state =
      attend program commands (course.perform (.doing .listen :: acts)) after := by
  simp only [attend, sent, heard]

/-- A program that is sent nothing waits. -/
theorem attend_of_silence (silent : course.launch.nextCommand? = none) :
    attend program (commands + 1) course state = (course.perform [.stall], state) := by
  simp only [attend, silent]

end Course

/-- A launch whose worker is started goes on as its program does. -/
theorem launch_of_start {σ : Type} {start : Starter σ} {program : Program σ} {path : Path}
    {limit : Option Duration} {request : BuildRequest} {state after : σ} {acts : List Act}
    (started : start path state = .ok program) (begun : program.start state = (acts, after)) :
    launch start path limit request state =
      (((Course.perform ⟨(Launch.ofRequest path limit request).tryStep (.start none), 0⟩
          acts).attend program 4 after).1.launch.outcome,
        ((Course.perform ⟨(Launch.ofRequest path limit request).tryStep (.start none), 0⟩
          acts).attend program 4 after).2) := by
  simp only [launch, started, begun]

/-- How long a worker does nothing, in milliseconds. -/
def Act.lasts : Act → Nat
  | .pause milliseconds => milliseconds
  | _ => 0

/-- How long the reports of an errand take. -/
def Errand.lasts {σ : Type} (errand : Errand σ) : Nat := (errand.reports.map Act.lasts).sum

/-- Whether an errand is done before the time of its launch runs out. -/
def Errand.InTime {σ : Type} (errand : Errand σ) : Prop :=
  ∀ limit, errand.limit = some limit → errand.lasts ≤ limit.milliseconds

namespace Errand

variable {σ : Type} {errand : Errand σ} {stage : Stage} {events : List Event} {group : UInt32}
  {pending : List KillSwitch.Op} {input : List Command} {unread : List Response} {clock : Nat}

/-- While the worker runs, the parent waits where the thread does. -/
theorem parentStep_eq_none (undone : ∀ outcome, stage ≠ .done outcome)
    (waits : (errand.launchAt stage (.running input unread) events group []).threadStep = none) :
    (errand.launchAt stage (.running input unread) events group []).parentStep = none := by
  have join : (errand.launchAt stage (.running input unread) events group []).join = none := by
    cases stage with
    | done outcome => exact absurd rfl (undone outcome)
    | _ => rfl
  rw [Launch.parentStep, Launch.firstStep?, Launch.step, waits]
  change Launch.firstStep? _ [.join] = none
  rw [Launch.firstStep?, Launch.step, join]
  rfl

/-- The launch of an errand that waits for what the worker says. -/
theorem reading_rests :
    (errand.launchAt .reading (.running [] []) events group []).parentStep = none :=
  parentStep_eq_none (by simp) thread_reading_nil

/-- A worker is started and greeted. -/
theorem tryStep_start :
    (Launch.ofRequest errand.path errand.limit errand.request).tryStep (.start none) =
      errand.launchAt .meeting (.running [.ping] []) [] 0 [] :=
  Launch.Settles.tryStep
    (.step (Launch.parentStep_of_thread thread_greeting)
      (.rest (parentStep_eq_none (by simp) thread_meeting_nil)))
    (by decide) rfl

/-- A worker reads a command while its parent waits. -/
theorem tryStep_listen {command : Command}
    (waits : (errand.launchAt stage (.running [] []) events group []).parentStep = none) :
    (errand.launchAt stage (.running [command] []) events group []).tryStep (.worker .listen) =
      errand.launchAt stage (.running [] []) events group [] := by
  refine (Launch.Settles.rest waits).tryStep (by decide) ?_
  rw [Launch.step, Launch.workerStep, launchAt, launchAt]
  simp [Process.running, Process.isAlive, Launch.Doing.apply, Launch.Doing.events]

/-- What a worker says reaches its pipe. -/
theorem step_say {response : Response} :
    (errand.launchAt stage (.running [] []) events group []).step (.worker (.say response)) =
      some (errand.launchAt stage (.running [] [response]) (events ++ [.said response]) group
        []) := by
  have whole : Frame.stream .response [response] =
      Frame.stream .response [] ++ Frame.write .response response := by
    simp [Frame.stream]
  rw [Process.running, Process.running, whole]
  rfl

/-- A worker that answers its greeting is sent the request. -/
theorem tryStep_pong :
    (errand.launchAt .meeting (.running [] []) events group []).tryStep
        (.worker (.say .pong)) =
      errand.launchAt .reading (.running [.build errand.request] [])
        (events ++ [.said .pong]) group [] :=
  Launch.Settles.tryStep
    (.step (Launch.parentStep_of_thread thread_meeting_pong) <|
      .step (Launch.parentStep_of_thread thread_recording) <|
      .step (Launch.parentStep_of_thread thread_sending) <|
      .rest (parentStep_eq_none (by simp) thread_reading_nil))
    (by decide) step_say

/-- The group of a bundler is noted. -/
theorem tryStep_bundling {found : UInt32} :
    (errand.launchAt .reading (.running [] []) events group []).tryStep
        (.worker (.say (.bundling found))) =
      errand.launchAt .reading (.running [] []) (events ++ [.said (.bundling found)]) found [] :=
  Launch.Settles.tryStep
    (.step (Launch.parentStep_of_thread thread_reading_bundling) <|
      .step (Launch.parentStep_of_thread thread_store) <|
      .step (Launch.parentStep_of_thread thread_check) <|
      .rest reading_rests)
    (by decide) step_say

/-- The launch of an errand that came to its outcome. -/
def launchEnded (errand : Errand σ) (events : List Event) (group : UInt32) : Launch :=
  { errand.launchAt (.done errand.outcome) ⟨[], true, [], true, some none⟩ events group [] with
    outcome := some errand.outcome }

/-- A launch that came to its outcome rests. -/
theorem ended_rests : (errand.launchEnded events group).parentStep = none := rfl

/-- The time of a launch that came to its outcome does not run out. -/
theorem step_expire_ended : (errand.launchEnded events group).step .expire = none := by
  rw [Launch.step, Launch.expire]
  exact if_neg (by simp [launchEnded, launchAt, Launch.threadOutcome?])

/-- A worker that closes the job is dismissed, and ends by the killing signal. -/
theorem tryStep_closing :
    (errand.launchAt .reading (.running [] []) events group []).tryStep
        (.worker (.say errand.closing)) =
      errand.launchEnded (events ++ [.said errand.closing] ++ [.exited none]) group :=
  Launch.Settles.tryStep
    (.step (Launch.parentStep_of_thread thread_reading_closing) <|
      .step (Launch.parentStep_of_thread thread_dismissing) <|
      .step (Launch.parentStep_of_thread thread_killing) <|
      .step rfl <|
      .step (Launch.parentStep_of_thread thread_reaping) <|
      .step rfl <|
      .rest ended_rests)
    (by decide) step_say

/-- A pause in which the time does not run out only passes. -/
theorem pause_of_le {milliseconds : Nat}
    (inTime : ∀ limit, errand.limit = some limit → clock + milliseconds ≤ limit.milliseconds) :
    (⟨errand.launchAt stage (.running input unread) events group pending, clock⟩ : Course).pause
        milliseconds =
      ⟨errand.launchAt stage (.running input unread) events group pending,
        clock + milliseconds⟩ := by
  rw [Course.pause]
  dsimp only [launchAt]
  cases limited : errand.limit with
  | none => rfl
  | some limit => exact if_neg (Nat.not_lt.mpr (inTime limit limited))

/-- The reports of a worker are heard one by one. -/
theorem perform_reports {reports rest : List Act} (isReport : ∀ act ∈ reports, act.IsReport)
    (inTime : ∀ limit, errand.limit = some limit →
      clock + (reports.map Act.lasts).sum ≤ limit.milliseconds) :
    ∃ events' group' clock',
      Course.perform ⟨errand.launchAt .reading (.running [] []) events group [], clock⟩
          (reports ++ rest) =
        Course.perform ⟨errand.launchAt .reading (.running [] []) events' group' [], clock'⟩
          rest := by
  induction reports generalizing events group clock with
  | nil => exact ⟨events, group, clock, rfl⟩
  | cons act reports ih =>
    obtain ⟨first, others⟩ := List.forall_mem_cons.mp isReport
    simp only [List.map_cons, List.sum_cons] at inTime
    match act, first with
    | .pause milliseconds, _ =>
      rw [List.cons_append, Course.perform,
        pause_of_le fun limit limited =>
          Nat.le_trans (by rw [Act.lasts]; omega) (inTime limit limited)]
      exact ih others fun limit limited => by
        rw [Nat.add_assoc]
        exact inTime limit limited
    | .doing (.say (.bundling found)), _ =>
      rw [List.cons_append, Course.perform, tryStep_bundling]
      exact ih others fun limit limited => by
        have := inTime limit limited
        simpa only [Act.lasts, Nat.zero_add] using this

/-- An errand that is done in time gives its outcome. -/
theorem launch_eq {start : Starter σ}
    (started : start errand.path errand.before = .ok errand.program) (inTime : errand.InTime) :
    Worker.launch start errand.path errand.limit errand.request errand.before =
      (some errand.outcome, errand.after) := by
  obtain ⟨events, group, clock, reported⟩ :
      ∃ events group clock,
        Course.perform ⟨errand.launchAt .reading (.running [] []) [.said .pong] 0 [], 0⟩
            (errand.reports ++ [.doing (.say errand.closing)]) =
          Course.perform ⟨errand.launchAt .reading (.running [] []) events group [], clock⟩
            [.doing (.say errand.closing)] :=
    perform_reports errand.isReport (by simpa [InTime, lasts] using inTime)
  have greeted : Course.perform ⟨errand.launchAt .meeting (.running [.ping] []) [] 0 [], 0⟩
      [.doing .listen, .doing (.say .pong)] =
        ⟨errand.launchAt .reading (.running [.build errand.request] []) [.said .pong] 0 [], 0⟩ := by
    rw [Course.perform, tryStep_listen (parentStep_eq_none (by simp) thread_meeting_nil),
      Course.perform, tryStep_pong, Course.perform, List.nil_append]
  have worked : Course.perform
      ⟨errand.launchAt .reading (.running [.build errand.request] []) [.said .pong] 0 [], 0⟩
      (.doing .listen :: (errand.reports ++ [.doing (.say errand.closing)])) =
        ⟨errand.launchEnded (events ++ [.said errand.closing] ++ [.exited none]) group, clock⟩ := by
    rw [Course.perform, tryStep_listen reading_rests, reported, Course.perform, tryStep_closing,
      Course.perform]
  have attended : Course.attend errand.program 4
      ⟨errand.launchAt .meeting (.running [.ping] []) [] 0 [], 0⟩ errand.before =
        (⟨errand.launchEnded (events ++ [.said errand.closing] ++ [.exited none]) group, clock⟩,
          errand.after) := by
    rw [Course.attend_of_command rfl errand.hear_ping, greeted,
      Course.attend_of_command rfl errand.hear_build, worked, Course.attend_of_silence rfl,
      Course.perform, Launch.tryStep_eq_self ended_rests step_expire_ended]
  rw [Worker.launch_of_start started errand.start_eq, tryStep_start, Course.perform, attended]
  rfl

end Errand

end PageBuild.Worker
