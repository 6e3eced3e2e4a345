import PageBuild.Build.Job
import PageBuild.Worker.Outcome

/-!
# Pools

A pool runs at most as many jobs at once as it has slots; the others wait in the order of their
submission. It is shared by any number of threads, so its state says how far each of them is:
some go over the queue to start what there is room for, and some carry a job that has a slot.
What has happened is kept as a list of events.
-/
namespace PageBuild

/-- A submission that was accepted. -/
structure Ticket where
  /-- The number of the submission. -/
  number : Nat
  job : Job
  deriving DecidableEq, Repr

/-- How the run of a job ended. -/
inductive Ending where
  /-- Its worker ended. -/
  | reported (outcome : Worker.Outcome)
  /-- The thread that ran the job was aborted. -/
  | aborted
  deriving DecidableEq, Repr

/-- What the submitter of a job is told about its ending. -/
def Ending.verdict : Ending → Except Failure BuildResult
  | reported outcome => outcome.verdict
  | aborted => .error (.workerCrashed none)

namespace Pool

/-- How far a job is that holds a slot. -/
inductive Stage where
  /-- Its thread was made. -/
  | waiting
  /-- Its worker runs. -/
  | running
  /-- Its worker ended. -/
  | ended (outcome : Worker.Outcome)
  /-- Its thread was aborted; the reply is given up first and the slot next. -/
  | unwinding (replied : Bool)
  deriving DecidableEq, Repr

/-- A job that holds a slot. -/
structure Task where
  ticket : Ticket
  stage : Stage
  deriving DecidableEq, Repr

/-- An answer that is still to be given to a submitter. -/
structure Reply where
  /-- The number of the submission. -/
  number : Nat
  verdict : Except Failure BuildResult
  deriving Repr

/-- How far a thread is that starts waiting jobs. -/
inductive Search where
  /-- It is about to look for a free slot and a waiting job. -/
  | looking
  /-- It took a job and a slot for it, and is about to make the job's thread. -/
  | holding (ticket : Ticket)
  /-- It found nothing more to start. -/
  | over
  deriving DecidableEq, Repr

/-- A thread that starts waiting jobs, after it put one into the queue or gave up a slot. -/
structure Scheduler where
  search : Search
  /-- What it answers once it found nothing more to start. -/
  reply : Option Reply
  deriving Repr

/-- What happens in a pool. -/
inductive Event where
  /-- A submission was refused. -/
  | refused (number : Nat) (failure : Failure)
  /-- A submission joined the queue. -/
  | accepted (ticket : Ticket)
  /-- A waiting job was given a slot. -/
  | admitted (ticket : Ticket)
  /-- The worker of a job was started. -/
  | launched (ticket : Ticket)
  /-- The run of a job ended. -/
  | ended (ticket : Ticket) (ending : Ending)
  /-- The slot of a job was given up. -/
  | released (ticket : Ticket)
  /-- A submitter was answered. -/
  | settled (number : Nat) (verdict : Except Failure BuildResult)
  deriving Repr

end Pool

/-- The state of a pool and of all threads that use it. -/
structure Pool where
  /-- The number of slots. -/
  capacity : Nat
  /-- The jobs that wait, in order. -/
  queue : List Ticket
  /-- The count of the slots that are taken. -/
  running : Nat
  schedulers : List Pool.Scheduler
  /-- The jobs that hold a slot, in the order in which their threads were made. -/
  tasks : List Pool.Task
  /-- The number of submissions so far. -/
  submissions : Nat
  /-- What has happened, in order. -/
  events : List Pool.Event
  deriving Repr

namespace Pool

/-- The number of slots of a pool that is not told how many it has. -/
def defaultCapacity : Nat := 10

/-- A pool that nothing was submitted to. It has one slot at least. -/
def ofCapacity (capacity : Nat) : Pool := ⟨max capacity 1, [], 0, [], [], 0, []⟩

/-- The load of a pool. -/
structure Health where
  running : Nat
  queued : Nat
  capacity : Nat
  deriving DecidableEq, Repr

/-- The load of a pool, which looking at does not change. -/
def health (pool : Pool) : Health := ⟨pool.running, pool.queue.length, pool.capacity⟩

/-- A pool in which one more thing has happened. -/
def record (pool : Pool) (event : Event) : Pool :=
  { pool with events := pool.events ++ [event] }

end Pool

end PageBuild
