import PageBuild.Proofs.Worker.Limit

/-!
# Launches whose time runs out

A launch whose time runs out kills its worker and comes to an outcome, whatever the worker does, unless
it waits for the answer to its greeting (`Launch.AwaitsAnswer`): then nobody has a switch to use, and
thread and timer wait for as long as the worker is silent.
-/
namespace PageBuild.Worker

/-- What is read depends on the output and on whether more may come. -/
theorem Process.read_fst_congr {process other : Process} (output : other.output = process.output)
    (ending : other.ending = process.ending) : other.read.1 = process.read.1 := by
  unfold read
  rw [output, isAlive, isAlive, ending]
  split
  · rfl
  · split <;> rfl

/-- Only of a process that runs more may come. -/
theorem Process.isAlive_of_pending {process : Process} (silent : process.read.1 = .pending) :
    process.isAlive = true := by
  unfold read at silent
  split at silent
  · cases silent
  · split at silent
    · rename_i waits
      exact (Bool.and_eq_true_iff.mp waits).2
    · cases silent

namespace Launch

open KillSwitch (Op)

/-- Whether a launch waits, or will after its greeting, for a worker that has not answered. -/
def AwaitsAnswer (launch : Launch) : Prop :=
  ∃ handle, launch.handle = some handle ∧ handle.process.read.1 = .pending ∧
    (launch.stage = .meeting ∨ launch.stage = .greeting ∧ handle.process.hears = true)

/-! ## Waiting for the answer -/

section Waiting

variable {limit : Duration} {launch next : Launch} {move : Move} {handle : Handle}

/-- A launch that waits for the answer to its greeting waits on, whatever is forced. -/
theorem AwaitsAnswer.step (awaits : launch.AwaitsAnswer) (overdue : Overdue limit launch)
    (forced : move.IsForced) (moved : launch.step move = some next) : next.AwaitsAnswer := by
  obtain ⟨⟨groups, watched⟩, timed, -⟩ := overdue
  obtain ⟨handle, has, silent, stage⟩ := awaits
  have greets : launch.stage = .greeting ∨ launch.stage = .meeting :=
    stage.symm.imp_left And.left
  obtain ⟨unrecorded, kept⟩ := timed.spared greets
  obtain ⟨alive, uncondemned⟩ := kept handle has
  cases forced with
  | thread =>
    cases acts_of_threadStep moved with
    | use pending =>
      have recorded := watched.recorded (watched.busy (by simp [pending]))
      rw [unrecorded] at recorded
      cases recorded
    | record _ stage => simp [stage] at greets
    | track _ _ stage => simp [stage] at greets
    | @advance handle' after stage' _ has' advances =>
      obtain rfl : handle = handle' := Option.some.inj (has.symm.trans has')
      rcases stage with meets | ⟨greets, hears⟩
      · have unanswered : handle.receive.1 = .pending := by rw [Handle.receive_eq alive, silent]
        rw [meets] at advances
        cases advances with
        | meet said => rw [unanswered] at said; cases said
        | stray said => exact absurd unanswered said
      · rw [greets] at advances
        cases advances with
        | greet =>
          obtain ⟨output, ending, -⟩ := @Handle.send_process handle .ping
          exact ⟨_, rfl, (Process.read_fst_congr output ending).trans silent, .inl rfl⟩
        | unheard refused =>
          rw [Handle.send_eq_ok alive hears] at refused
          cases refused
  | timer =>
    obtain ⟨op, ops, timer, -⟩ := of_timerStep moved
    rw [(timed.unused unrecorded).1] at timer
    cases timer
  | join =>
    have working : launch.threadOutcome? = none := by
      rcases greets with greets | greets <;> rw [threadOutcome?, greets]
    change launch.join = some next at moved
    rw [Launch.join, working] at moved
    split at moved <;> simp_all
  | die =>
    obtain ⟨handle', has', moved⟩ := Option.bind_eq_some_iff.mp moved
    obtain rfl : handle = handle' := Option.some.inj (has.symm.trans has')
    simp [Doing.apply, uncondemned] at moved

/-- Thread and timer leave the worker as it is, but for the killing signal. -/
theorem follows_of_step (has : launch.handle = some handle) (parent : move = .thread ∨ move = .timer)
    (moved : launch.step move = some next) :
    ∃ after, next.handle = some after ∧ handle.Follows after := by
  rcases parent with rfl | rfl
  · cases acts_of_threadStep moved with
    | @use op ops =>
      rw [useSwitch_cons]
      exact ⟨_, by simp only [has, Option.map_some], Handle.follows_afterOp op⟩
    | record => exact ⟨handle, has, .refl⟩
    | @track handle' group _ has' =>
      obtain rfl : handle = handle' := Option.some.inj (has.symm.trans has')
      exact ⟨_, rfl, Handle.follows_receive⟩
    | @advance handle' after _ _ has' advances =>
      obtain rfl : handle = handle' := Option.some.inj (has.symm.trans has')
      exact ⟨after, rfl, advances.follows⟩
  · obtain ⟨op, ops, -, rfl⟩ := of_timerStep moved
    rw [useSwitch_cons]
    exact ⟨_, by simp only [has, Option.map_some], Handle.follows_afterOp op⟩

/-- Using the switch is not what makes a launch wait. -/
theorem AwaitsAnswer.of_use {op : Op} {switch : KillSwitch} {pending timer : List Op}
    (awaits : AwaitsAnswer
      { launch with
        handle := launch.handle.map fun handle => handle.afterOp op, switch, pending, timer }) :
    launch.AwaitsAnswer := by
  obtain ⟨after, mapped, silent, stage⟩ := awaits
  obtain ⟨handle, has, rfl⟩ := Option.map_eq_some_iff.mp mapped
  rcases handle.afterOp_eq op with same | same <;> rw [same] at silent stage
  · exact ⟨handle, has, silent, stage⟩
  · have unread : handle.process.condemn.read.1 = handle.process.read.1 :=
      Process.read_fst_congr rfl rfl
    exact ⟨handle, has, unread ▸ silent, stage⟩

/-- A launch that waits after a step of its own waited before, or was about to greet the worker. -/
theorem AwaitsAnswer.of_step (awaits : next.AwaitsAnswer) (parent : move = .thread ∨ move = .timer)
    (moved : launch.step move = some next) : launch.AwaitsAnswer := by
  rcases parent with rfl | rfl
  · cases acts_of_threadStep moved with
    | use =>
      rw [useSwitch_cons] at awaits
      exact awaits.of_use
    | record =>
      obtain ⟨-, -, -, stage | ⟨stage, -⟩⟩ := awaits <;> cases stage
    | track _ _ reading =>
      obtain ⟨-, -, -, stage | ⟨stage, -⟩⟩ := awaits <;> simp [reading] at stage
    | @advance handle after stage _ has advances =>
      obtain ⟨_, same, silent, waits⟩ := awaits
      cases same
      have greets : stage = .meeting ∨ stage = .greeting := waits.imp_right And.left
      generalize was : launch.stage = before at advances
      cases advances with
      | greet sent =>
        obtain ⟨output, ending, -⟩ := @Handle.send_process handle .ping
        rw [Process.read_fst_congr output ending] at silent
        exact ⟨handle, has, silent, .inr ⟨was, Handle.hears_of_send sent⟩⟩
      | _ => simp at greets
  · obtain ⟨op, ops, -, rfl⟩ := of_timerStep moved
    rw [useSwitch_cons] at awaits
    exact awaits.of_use

end Waiting

/-! ## The end of an overdue launch -/

/-- A sequence of moves may be cut into two. -/
theorem run_append (launch : Launch) (moves more : List Move) :
    launch.run (moves ++ more) = (launch.run moves).bind fun next => next.run more := by
  induction moves generalizing launch with
  | nil => rfl
  | cons move moves ih => simp only [List.cons_append, Launch.run, ih, Option.bind_assoc]

/-- Whether thread and timer by themselves can come to have sent the worker the killing signal. -/
def CanCondemn (launch : Launch) : Prop :=
  ∃ moves : List Move, (∀ move ∈ moves, move = .thread ∨ move = .timer) ∧
    ∃ next handle, launch.run moves = some next ∧ next.handle = some handle ∧
      handle.process.isCondemned = true

/-- Whether a launch can come to an outcome by what is forced. -/
def CanEnd (launch : Launch) (outcome : Outcome) : Prop :=
  ∃ moves : List Move, (∀ move ∈ moves, move.IsForced) ∧
    ∃ next, launch.run moves = some next ∧ next.outcome = some outcome

namespace Overdue

variable {limit : Duration} {launch next : Launch} {move : Move} {handle : Handle}
  {moves : List Move}

/-- What thread and timer do is forced. -/
theorem forced_of_parents (parents : ∀ move ∈ moves, move = .thread ∨ move = .timer) :
    ∀ move ∈ moves, move.IsForced := by
  intro move member
  rcases parents move member with rfl | rfl
  · exact .thread
  · exact .timer

/-- A launch that waits for the answer waits on after all that is forced. -/
theorem awaits_run (overdue : Overdue limit launch) (awaits : launch.AwaitsAnswer)
    (forced : ∀ move ∈ moves, move.IsForced) (ran : launch.run moves = some next) :
    next.AwaitsAnswer := by
  induction moves generalizing launch with
  | nil =>
    cases ran
    exact awaits
  | cons move moves ih =>
    obtain ⟨first, others⟩ := List.forall_mem_cons.mp forced
    obtain ⟨after, moved, ran⟩ := Option.bind_eq_some_iff.mp ran
    exact ih (overdue.step first moved) (awaits.step overdue first moved) others ran

/-- Thread and timer lead to a launch with the same worker, which waits only if this one does. -/
theorem parents_run (has : launch.handle = some handle)
    (parents : ∀ move ∈ moves, move = .thread ∨ move = .timer) (ran : launch.run moves = some next) :
    (∃ after, next.handle = some after ∧
        after.process.isAlive = handle.process.isAlive) ∧
      (next.AwaitsAnswer → launch.AwaitsAnswer) := by
  induction moves generalizing launch handle with
  | nil =>
    cases ran
    exact ⟨⟨handle, has, rfl⟩, id⟩
  | cons move moves ih =>
    obtain ⟨first, others⟩ := List.forall_mem_cons.mp parents
    obtain ⟨middle, moved, ran⟩ := Option.bind_eq_some_iff.mp ran
    obtain ⟨onward, owned, follows⟩ := follows_of_step has first moved
    obtain ⟨⟨after, has, same⟩, back⟩ := ih owned others ran
    exact ⟨⟨after, has, same.trans follows.isAlive_eq⟩, fun awaits => (back awaits).of_step first moved⟩

/-- An overdue launch at rest waits for the answer, or has doomed its worker and waits for its end, or
is done with a worker that has ended. -/
theorem rest_cases (overdue : Overdue limit launch) (has : launch.handle = some handle)
    (thread : launch.threadStep = none) (timer : launch.timerStep = none) :
    launch.AwaitsAnswer ∨
      (handle.process.isAlive = true ∧ handle.process.isCondemned = true) ∨
      (handle.process.isAlive = false ∧ ∃ outcome, launch.stage = .done outcome) := by
  obtain ⟨idle, rests⟩ := rests_of_threadStep has thread
  have quiet := timer_eq_nil timer
  obtain ⟨⟨groups, watched⟩, timed, -⟩ := id overdue
  cases rests with
  | starting stage =>
    have none := (timed.fresh stage).1
    rw [has] at none
    cases none
  | hearing stage silent =>
    have kept : handle.isKilled = false := by
      by_contra killed
      rw [Handle.receive_of_isKilled (by simpa using killed)] at silent
      cases silent
    rw [Handle.receive_eq kept] at silent
    rcases stage with meeting | reading
    · exact .inl ⟨handle, has, silent, .inl meeting⟩
    · have doomed := overdue.doomed (watched.recorded (.inr reading)) idle quiet
      have alive := Process.isAlive_of_pending silent
      exact .inr (.inl ⟨alive, doomed handle has alive⟩)
  | ending stage alive =>
    have doomed : launch.IsDoomed := by
      rcases stage with waiting | ⟨outcome, reaping⟩
      · exact overdue.doomed (timed.handed waiting) idle quiet
      · exact timed.reaped outcome reaping
    exact .inr (.inl ⟨alive, doomed handle has alive⟩)
  | @done outcome stage =>
    exact .inr (.inr ⟨timed.ended outcome handle stage has, outcome, stage⟩)

/-- An overdue launch comes to rest by itself, waiting only if it waits now. -/
theorem exists_rest (overdue : Overdue limit launch) (has : launch.handle = some handle)
    (answered : ¬launch.AwaitsAnswer) :
    ∃ moves : List Move, (∀ move ∈ moves, move = .thread ∨ move = .timer) ∧
      ∃ rest after, launch.run moves = some rest ∧ rest.handle = some after ∧
        ((handle.process.isAlive = true ∧ after.process.isAlive = true ∧
            after.process.isCondemned = true) ∨
          (handle.process.isAlive = false ∧ (∃ outcome, rest.stage = .done outcome) ∧
            rest.timer = [])) := by
  obtain ⟨moves, parents, rest, ran, thread, timer⟩ := Launch.exists_rest launch
  obtain ⟨⟨after, owned, same⟩, back⟩ := parents_run has parents ran
  refine ⟨moves, parents, rest, after, ran, owned, ?_⟩
  have still := overdue.run (forced_of_parents parents) ran
  rcases still.rest_cases owned thread timer with awaits | ⟨alive, condemned⟩ | ⟨ended, done⟩
  · exact absurd (back awaits) answered
  · exact .inl ⟨same ▸ alive, alive, condemned⟩
  · exact .inr ⟨same ▸ ended, done, timer_eq_nil timer⟩

/-- A launch can end if it can after moves that are forced. -/
theorem canEnd_of_run {outcome : Outcome} (forced : ∀ move ∈ moves, move.IsForced)
    (ran : launch.run moves = some next) (ends : next.CanEnd outcome) : launch.CanEnd outcome := by
  obtain ⟨more, others, last, onward, concluded⟩ := ends
  refine ⟨moves ++ more, List.forall_mem_append.mpr ⟨forced, others⟩, last, ?_, concluded⟩
  rw [run_append, ran, Option.bind_some, onward]

/-- An overdue launch whose thread and timer are done has or comes to the outcome of the time. -/
theorem canEnd_of_done (overdue : Overdue limit launch) {last : Outcome}
    (done : launch.stage = .done last) (timer : launch.timer = []) :
    launch.CanEnd (Launch.expired limit) := by
  obtain ⟨-, timed, late⟩ := overdue
  cases concluded : launch.outcome with
  | some outcome =>
    exact ⟨[], by simp, launch, rfl, by rw [concluded, timed.expired outcome concluded late]⟩
  | none =>
    have joined : launch.run [.join] =
        some { launch with outcome := some (Launch.expired limit) } := by
      simp only [Launch.run, Launch.step, Launch.join, concluded, timer, threadOutcome?, done, late,
        timed.limited, Option.bind_some]
    exact ⟨[.join], by simp [Move.IsForced.join], _, joined, rfl⟩

/-- An overdue launch with a worker that has ended can end. -/
theorem canEnd_of_ended (overdue : Overdue limit launch) (has : launch.handle = some handle)
    (ended : handle.process.isAlive = false) : launch.CanEnd (Launch.expired limit) := by
  have answered : ¬launch.AwaitsAnswer := by
    rintro ⟨_, same, silent, -⟩
    cases has.symm.trans same
    rw [Process.isAlive_of_pending silent] at ended
    cases ended
  obtain ⟨moves, parents, rest, after, ran, owned, still⟩ := overdue.exists_rest has answered
  obtain ⟨alive, -⟩ | ⟨-, ⟨last, done⟩, timer⟩ := still
  · rw [ended] at alive
    cases alive
  · have forced := forced_of_parents parents
    exact canEnd_of_run forced ran ((overdue.run forced ran).canEnd_of_done done timer)

/-- A launch that does not wait for the answer can come to the outcome of the time. -/
theorem canEnd (overdue : Overdue limit launch) (has : launch.handle = some handle)
    (answered : ¬launch.AwaitsAnswer) : launch.CanEnd (Launch.expired limit) := by
  obtain ⟨moves, parents, rest, after, ran, owned, still⟩ := overdue.exists_rest has answered
  have forced := forced_of_parents parents
  have late := overdue.run forced ran
  refine canEnd_of_run forced ran ?_
  obtain ⟨-, alive, condemned⟩ | ⟨-, ⟨last, done⟩, timer⟩ := still
  · -- The worker is killed, and nothing else holds the thread up.
    have died : rest.run [.worker .die] = some
        { rest with
          handle := some { after with process := after.process.exit none }
          events := rest.events ++ [.exited none] } := by
      simp [Launch.run, Launch.step, workerStep, owned, alive, Doing.apply, condemned, Doing.events]
    have killed : ∀ move ∈ [Move.worker .die], move.IsForced := by simp [Move.IsForced.die]
    exact canEnd_of_run killed died ((late.run killed died).canEnd_of_ended rfl rfl)
  · exact late.canEnd_of_done done timer

end Overdue

/-- A launch whose time ran out, with a worker that was started, is sure of its end unless it waits for
the answer to its greeting: thread and timer can kill a worker that runs, and come to the outcome that
the time ran out, without anything that the worker does. While it waits for the answer, neither can
happen until the worker does something by itself. -/
theorem expiry_ends_launch (path : Path) (limit : Duration) (request : BuildRequest)
    (moves : List Move) (launch : Launch) (handle : Handle)
    (ran : (ofRequest path (some limit) request).run moves = some launch)
    (expired : launch.hasExpired = true) (started : launch.handle = some handle) :
    (handle.process.isAlive = true → (launch.CanCondemn ↔ ¬launch.AwaitsAnswer)) ∧
    (launch.CanEnd (Launch.expired limit) ↔ ¬launch.AwaitsAnswer) := by
  have overdue := Overdue.of_run ran expired
  refine ⟨fun alive => ⟨?_, fun answered => ?_⟩, ?_, overdue.canEnd started⟩
  · rintro ⟨moves, parents, next, after, ran, owned, condemned⟩ awaits
    have forced := Overdue.forced_of_parents parents
    obtain ⟨_, has, -, stage⟩ := overdue.awaits_run awaits forced ran
    have spared := ((overdue.run forced ran).timed.spared (stage.symm.imp_left And.left)).2
    rw [(spared after owned).2] at condemned
    cases condemned
  · obtain ⟨moves, parents, rest, after, ran, owned, still⟩ := overdue.exists_rest started answered
    obtain ⟨-, -, condemned⟩ | ⟨ended, -⟩ := still
    · exact ⟨moves, parents, rest, after, ran, owned, condemned⟩
    · rw [alive] at ended
      cases ended
  · rintro ⟨moves, forced, last, ran, concluded⟩ awaits
    obtain ⟨_, -, -, stage⟩ := overdue.awaits_run awaits forced ran
    obtain ⟨groups, watched⟩ := (overdue.run forced ran).watched
    obtain ⟨-, outcome, done⟩ := watched.concluded (by rw [concluded]; simp)
    simp [done] at stage

/-- While the bundler runs, the time that runs out ends the launch. -/
theorem expiry_ends_launch_reported :
    ∃ launch, plainLaunch.run (reported ++ [.expire]) = some launch ∧ launch.CanCondemn ∧
      launch.CanEnd (expired (.ofSeconds 1)) := by
  have state : (plainLaunch.run (reported ++ [.expire])).map (fun launch =>
      (launch.hasExpired, launch.stage, launch.handle.map fun handle => handle.process.isAlive)) =
      some (true, .reading, some true) := by decide +kernel
  obtain ⟨launch, ran, same⟩ := Option.map_eq_some_iff.mp state
  obtain ⟨late, same⟩ := Prod.mk.inj same
  obtain ⟨reading, same⟩ := Prod.mk.inj same
  obtain ⟨handle, has, alive⟩ := Option.map_eq_some_iff.mp same
  have answered : ¬launch.AwaitsAnswer := by
    rintro ⟨_, -, -, stage | ⟨stage, -⟩⟩ <;> rw [reading] at stage <;> cases stage
  obtain ⟨condemns, ends⟩ := expiry_ends_launch _ _ _ _ launch handle ran late has
  exact ⟨launch, ran, (condemns alive).mpr answered, ends.mpr answered⟩

/-- A worker that does not answer its greeting outlives the time: it was sent no signal, and neither
thread nor timer has a step until it does something. -/
theorem silent_worker_outlives_timer :
    ∃ launch handle, plainLaunch.run [.start none, .thread, .expire] = some launch ∧
      launch.hasExpired = true ∧ launch.handle = some handle ∧ handle.process.isAlive = true ∧
      handle.process.isCondemned = false ∧ launch.outcome = none ∧
      ∀ move, (∀ doing, move ≠ .worker doing) → (∀ group, move ≠ .endGroup group) →
        launch.step move = none := by
  refine ⟨_, _, rfl, rfl, rfl, rfl, rfl, rfl, fun move own outside => ?_⟩
  cases move with
  | worker doing => exact absurd rfl (own doing)
  | endGroup group => exact absurd rfl (outside group)
  | start cause | thread | timer | expire | join => rfl

end Launch

end PageBuild.Worker
