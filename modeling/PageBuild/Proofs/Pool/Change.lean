import PageBuild.Pool.Step

/-!
# What a step of a pool changes

`Change pool next` lists once what one step of any thread can do, with the conditions under
which it does it. A thread that moves is shown by its place between the threads before and after
it. `change_of_step` says that these are all the steps there are, so that an invariant of the
pools ever reached (`Reached`) is an induction with one case for each change, and none of them
opens `Pool.step` again.
-/
namespace PageBuild.Pool

/-- A step of the thread of a job that leaves it its slot: the stage before, what happens and the
stage after. -/
inductive Turn (ticket : Ticket) : Stage → Event → Stage → Prop where
  | launch : Turn ticket .waiting (.launched ticket) .running
  | finish (outcome : Worker.Outcome) :
    Turn ticket .running (.ended ticket (.reported outcome)) (.ended outcome)
  | abort : Turn ticket .running (.ended ticket .aborted) (.unwinding false)
  | abandon :
    Turn ticket (.unwinding false) (.settled ticket.number Ending.aborted.verdict)
      (.unwinding true)

/-- The answer that the thread of a job still has to give when it gives up its slot. -/
inductive Due (ticket : Ticket) : Stage → Option Reply → Prop where
  | ended (outcome : Worker.Outcome) :
    Due ticket (.ended outcome) (some ⟨ticket.number, outcome.verdict⟩)
  | unwound : Due ticket (.unwinding true) none

/-- What one step makes of a pool. -/
inductive Change (pool : Pool) : Pool → Prop where
  /-- A submission is refused. -/
  | refuse {job : Job} {failure : Failure} (flawed : job.validate = .error failure) :
    Change pool
      (record { pool with submissions := pool.submissions + 1 }
        (.refused pool.submissions failure))
  /-- A submission joins the queue, and its thread sets out to search the queue. -/
  | accept {job : Job} (sound : job.validate = .ok ()) :
    Change pool
      (record
        { pool with
          submissions := pool.submissions + 1,
          queue := pool.queue ++ [⟨pool.submissions, job⟩],
          schedulers := pool.schedulers ++ [⟨.looking, none⟩] }
        (.accepted ⟨pool.submissions, job⟩))
  /-- A search finds no slot or no job. -/
  | stop {front back : List Scheduler} {reply : Option Reply}
      (place : pool.schedulers = front ++ ⟨.looking, reply⟩ :: back)
      (idle : pool.running < pool.capacity → pool.queue = []) :
    Change pool { pool with schedulers := front ++ ⟨.over, reply⟩ :: back }
  /-- A search takes the first job and a slot for it. -/
  | seat {front back : List Scheduler} {reply : Option Reply} {ticket : Ticket}
      {queue : List Ticket} (place : pool.schedulers = front ++ ⟨.looking, reply⟩ :: back)
      (room : pool.running < pool.capacity) (first : pool.queue = ticket :: queue) :
    Change pool
      (record
        { pool with
          queue, running := pool.running + 1,
          schedulers := front ++ ⟨.holding ticket, reply⟩ :: back }
        (.admitted ticket))
  /-- A search makes the thread of the job that it took. -/
  | spawn {front back : List Scheduler} {reply : Option Reply} {ticket : Ticket}
      (place : pool.schedulers = front ++ ⟨.holding ticket, reply⟩ :: back) :
    Change pool
      { pool with
        tasks := pool.tasks ++ [⟨ticket, .waiting⟩],
        schedulers := front ++ ⟨.looking, reply⟩ :: back }
  /-- A thread that searched has nothing to answer. -/
  | leave {front back : List Scheduler}
      (place : pool.schedulers = front ++ ⟨.over, none⟩ :: back) :
    Change pool { pool with schedulers := front ++ back }
  /-- A thread that searched answers a submitter. -/
  | answer {front back : List Scheduler} {reply : Reply}
      (place : pool.schedulers = front ++ ⟨.over, some reply⟩ :: back) :
    Change pool
      (record { pool with schedulers := front ++ back } (.settled reply.number reply.verdict))
  /-- The thread of a job goes on and keeps its slot. -/
  | turn {front back : List Task} {ticket : Ticket} {before after : Stage} {event : Event}
      (place : pool.tasks = front ++ ⟨ticket, before⟩ :: back)
      (turned : Turn ticket before event after) :
    Change pool (record { pool with tasks := front ++ ⟨ticket, after⟩ :: back } event)
  /-- The thread of a job gives up its slot, and sets out to search the queue. -/
  | release {front back : List Task} {ticket : Ticket} {stage : Stage} {reply : Option Reply}
      (place : pool.tasks = front ++ ⟨ticket, stage⟩ :: back) (due : Due ticket stage reply) :
    Change pool
      (record
        { pool with
          running := pool.running - 1, tasks := front ++ back,
          schedulers := pool.schedulers ++ [⟨.looking, reply⟩] }
        (.released ticket))

section Place

variable {α : Type} {list : List α} {index : Nat} {value : α}

/-- The element at a place stands between those before and after it. -/
theorem split_of_getElem? (found : list[index]? = some value) :
    list = list.take index ++ value :: list.drop (index + 1) := by
  obtain ⟨inside, same⟩ := List.getElem?_eq_some_iff.mp found
  rw [← same, List.getElem_cons_drop, List.take_append_drop]

/-- Replacing the element at a place keeps those before and after it. -/
theorem set_of_getElem? (found : list[index]? = some value) (other : α) :
    list.set index other = list.take index ++ other :: list.drop (index + 1) := by
  obtain ⟨inside, _⟩ := List.getElem?_eq_some_iff.mp found
  rw [List.set_eq_take_append_cons_drop, if_pos inside]

end Place

/-- What a search does is a change. -/
theorem change_of_look {pool : Pool} {index : Nat} {reply : Option Reply}
    (found : pool.schedulers[index]? = some ⟨.looking, reply⟩) :
    Change pool (pool.look index ⟨.looking, reply⟩) := by
  have place := split_of_getElem? found
  unfold look
  split
  · rename_i full
    simp only [setSearch, set_of_getElem? found]
    exact .stop place fun room => absurd full (by omega)
  · rename_i free
    split
    · rename_i empty
      simp only [setSearch, set_of_getElem? found]
      exact .stop place fun _ => empty
    · rename_i ticket queue first
      simp only [setSearch, set_of_getElem? found]
      exact .seat place (by omega) first

/-- What a thread does that searches the queue is a change. -/
theorem change_of_scheduleStep {pool next : Pool} {index : Nat} {scheduler : Scheduler}
    {move : Move} (found : pool.schedulers[index]? = some scheduler)
    (stepped : pool.scheduleStep index scheduler move = some next) : Change pool next := by
  obtain ⟨search, reply⟩ := scheduler
  unfold scheduleStep at stepped
  split at stepped <;> cases stepped
  · rename_i looking
    obtain rfl : search = .looking := looking
    exact change_of_look found
  · rename_i ticket holding
    obtain rfl : search = .holding ticket := holding
    simp only [spawn, setSearch, set_of_getElem? found]
    exact .spawn (split_of_getElem? found)
  · rename_i done
    obtain rfl : search = .over := done
    simp only [leave, List.eraseIdx_eq_take_drop_succ]
    cases reply with
    | none => exact .leave (split_of_getElem? found)
    | some reply => exact .answer (split_of_getElem? found)

/-- What the thread of a job does is a change. -/
theorem change_of_taskStep {pool next : Pool} {index : Nat} {task : Task} {move : Move}
    (found : pool.tasks[index]? = some task)
    (stepped : pool.taskStep index task move = some next) : Change pool next := by
  obtain ⟨ticket, stage⟩ := task
  have place := split_of_getElem? found
  unfold taskStep at stepped
  split at stepped <;> cases stepped
  all_goals
    rename_i atStage
    dsimp only at atStage
    subst atStage
    simp only [setStage, set_of_getElem? found, release, List.eraseIdx_eq_take_drop_succ]
  · exact .turn place .launch
  · exact .turn place (.finish _)
  · exact .turn place .abort
  · exact .turn place .abandon
  · exact .release place (.ended _)
  · exact .release place .unwound

/-- Submitting a job is a change. -/
theorem change_of_submit (pool : Pool) (job : Job) : Change pool (pool.submit job) := by
  unfold submit
  split
  · rename_i failure flawed
    exact .refuse flawed
  · rename_i sound
    exact .accept sound

/-- Every step is a change. -/
theorem change_of_step {pool next : Pool} {move : Move} (stepped : pool.step move = some next) :
    Change pool next := by
  cases move with
  | submit job =>
    cases stepped
    exact change_of_submit pool job
  | look index | spawn index | leave index =>
    obtain ⟨scheduler, found, stepped⟩ := Option.bind_eq_some_iff.mp stepped
    exact change_of_scheduleStep found stepped
  | launch index | finish index outcome | abort index | abandon index | release index =>
    obtain ⟨task, found, stepped⟩ := Option.bind_eq_some_iff.mp stepped
    exact change_of_taskStep found stepped

/-- A pool that some sequence of steps leads to from a fresh pool. -/
inductive Reached (capacity : Nat) : Pool → Prop where
  | fresh : Reached capacity (ofCapacity capacity)
  | step {pool next : Pool} {move : Move} (before : Reached capacity pool)
      (stepped : pool.step move = some next) : Reached capacity next

/-- Steps from a reached pool lead to reached pools. -/
theorem Reached.run {capacity : Nat} {moves : List Move} :
    ∀ {pool next : Pool}, Reached capacity pool → pool.run moves = some next →
      Reached capacity next := by
  induction moves with
  | nil =>
    intro pool next reached ran
    cases ran
    exact reached
  | cons move moves ih =>
    intro pool next reached ran
    obtain ⟨middle, stepped, ran⟩ := Option.bind_eq_some_iff.mp ran
    exact ih (reached.step stepped) ran

/-- A sequence of steps may be cut into two. -/
theorem run_append (pool : Pool) (moves more : List Move) :
    pool.run (moves ++ more) = (pool.run moves).bind fun next => next.run more := by
  induction moves generalizing pool with
  | nil => rfl
  | cons move moves ih => simp only [List.cons_append, Pool.run, ih, Option.bind_assoc]

/-- The pools reached are those that the runs from a fresh pool end in. -/
theorem reached_iff_run {capacity : Nat} {pool : Pool} :
    Reached capacity pool ↔ ∃ moves, (ofCapacity capacity).run moves = some pool := by
  constructor
  · intro reached
    induction reached with
    | fresh => exact ⟨[], rfl⟩
    | @step pool next move before stepped ih =>
      obtain ⟨moves, ran⟩ := ih
      refine ⟨moves ++ [move], ?_⟩
      rw [run_append, ran]
      simp [Pool.run, stepped]
  · rintro ⟨moves, ran⟩
    exact Reached.fresh.run ran

/-- Two submissions: the first is started, aborted and answered, and gives up no slot yet. -/
def contest : List Move :=
  [.submit ⟨"{}", "a", ⟨"t"⟩, .fat, false, none, none⟩,
    .submit ⟨"{}", "b", ⟨"t"⟩, .fat, false, none, none⟩, .look 0, .spawn 0, .look 1, .look 0,
    .launch 0, .abort 0, .abandon 0]

end PageBuild.Pool
