import PageBuild.Pool.Basic

/-!
# Steps of a pool

What one thread does between two moments at which another may come in. A pool moves by any
sequence of these steps; `Pool.step` refuses those that no thread is ready for. The order of the
steps of one thread is fixed: a job that ended gives up its slot before the queue is searched,
and its submitter is answered after that.
-/
namespace PageBuild.Pool

/-- One step of one thread. Threads are named by their place in the lists of the pool. -/
inductive Move where
  /-- A job is submitted. -/
  | submit (job : Job)
  /-- A scheduler looks for a free slot and a waiting job. -/
  | look (scheduler : Nat)
  /-- A scheduler makes the thread of the job that it holds. -/
  | spawn (scheduler : Nat)
  /-- A scheduler that found nothing more to start gives its answer and is done. -/
  | leave (scheduler : Nat)
  /-- The worker of a job is started. -/
  | launch (task : Nat)
  /-- The worker of a job ends. -/
  | finish (task : Nat) (outcome : Worker.Outcome)
  /-- The thread of a job is aborted. -/
  | abort (task : Nat)
  /-- A thread that was aborted gives up the reply, by which the submitter learns of it. -/
  | abandon (task : Nat)
  /-- The thread of a job gives up the slot. -/
  | release (task : Nat)
  deriving DecidableEq, Repr

/-- Put a job into the queue, or refuse it. -/
def submit (pool : Pool) (job : Job) : Pool :=
  let numbered : Pool := { pool with submissions := pool.submissions + 1 }
  match job.validate with
  | .error failure => numbered.record (.refused pool.submissions failure)
  | .ok () =>
    let ticket : Ticket := ⟨pool.submissions, job⟩
    record
      { numbered with
        queue := pool.queue ++ [ticket],
        schedulers := pool.schedulers ++ [⟨.looking, none⟩] }
      (.accepted ticket)

/-- Set how far a scheduler is. -/
def setSearch (pool : Pool) (index : Nat) (scheduler : Scheduler) (search : Search) : Pool :=
  { pool with schedulers := pool.schedulers.set index { scheduler with search } }

/-- Take a slot and a waiting job, if there are both. -/
def look (pool : Pool) (index : Nat) (scheduler : Scheduler) : Pool :=
  if pool.capacity ≤ pool.running then pool.setSearch index scheduler .over
  else
    match pool.queue with
    | [] => pool.setSearch index scheduler .over
    | ticket :: queue =>
      record
        (setSearch { pool with queue, running := pool.running + 1 } index scheduler
          (.holding ticket))
        (.admitted ticket)

/-- Make the thread of a job, and look for more. -/
def spawn (pool : Pool) (index : Nat) (scheduler : Scheduler) (ticket : Ticket) : Pool :=
  setSearch { pool with tasks := pool.tasks ++ [⟨ticket, .waiting⟩] } index scheduler .looking

/-- Answer what is to be answered, and be done. -/
def leave (pool : Pool) (index : Nat) (scheduler : Scheduler) : Pool :=
  let rest : Pool := { pool with schedulers := pool.schedulers.eraseIdx index }
  match scheduler.reply with
  | none => rest
  | some reply => rest.record (.settled reply.number reply.verdict)

/-- Set how far a job is. -/
def setStage (pool : Pool) (index : Nat) (task : Task) (stage : Stage) : Pool :=
  { pool with tasks := pool.tasks.set index { task with stage } }

/-- Give up the slot of a job, and search the queue with an answer still to be given. -/
def release (pool : Pool) (index : Nat) (task : Task) (reply : Option Reply) : Pool :=
  record
    { pool with
      running := pool.running - 1,
      tasks := pool.tasks.eraseIdx index,
      schedulers := pool.schedulers ++ [⟨.looking, reply⟩] }
    (.released task.ticket)

/-- What a scheduler does in one step, when it is ready for that step. -/
def scheduleStep (pool : Pool) (index : Nat) (scheduler : Scheduler) (move : Move) :
    Option Pool :=
  match move, scheduler.search with
  | .look _, .looking => some (pool.look index scheduler)
  | .spawn _, .holding ticket => some (pool.spawn index scheduler ticket)
  | .leave _, .over => some (pool.leave index scheduler)
  | _, _ => none

/-- What the thread of a job does in one step, when it is ready for that step. -/
def taskStep (pool : Pool) (index : Nat) (task : Task) (move : Move) : Option Pool :=
  match move, task.stage with
  | .launch _, .waiting =>
    some ((pool.setStage index task .running).record (.launched task.ticket))
  | .finish _ outcome, .running =>
    some ((pool.setStage index task (.ended outcome)).record
      (.ended task.ticket (.reported outcome)))
  | .abort _, .running =>
    some ((pool.setStage index task (.unwinding false)).record (.ended task.ticket .aborted))
  | .abandon _, .unwinding false =>
    some ((pool.setStage index task (.unwinding true)).record
      (.settled task.ticket.number Ending.aborted.verdict))
  | .release _, .ended outcome =>
    some (pool.release index task (some ⟨task.ticket.number, outcome.verdict⟩))
  | .release _, .unwinding true => some (pool.release index task none)
  | _, _ => none

/-- The pool after one step, or nothing when no thread is ready for it. -/
def step (pool : Pool) (move : Move) : Option Pool :=
  match move with
  | .submit job => some (pool.submit job)
  | .look index | .spawn index | .leave index =>
    pool.schedulers[index]?.bind fun scheduler => pool.scheduleStep index scheduler move
  | .launch index | .finish index _ | .abort index | .abandon index | .release index =>
    pool.tasks[index]?.bind fun task => pool.taskStep index task move

/-- The pool after a sequence of steps, or nothing when one of them is refused. -/
def run (pool : Pool) : List Move → Option Pool
  | [] => some pool
  | move :: moves => (pool.step move).bind fun next => next.run moves

end PageBuild.Pool
