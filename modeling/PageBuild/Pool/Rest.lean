import PageBuild.Pool.Step

/-!
# Pools at rest

A pool is at rest when no thread has anything to do until a worker ends or a job is submitted.
`Pool.rest` takes the steps that lead there, schedulers first and then jobs in the order of their
threads. Which jobs abort as their worker is started is a parameter.
-/
namespace PageBuild.Pool

/-- The step that a scheduler is ready for. -/
def Scheduler.nextMove (scheduler : Scheduler) (index : Nat) : Move :=
  match scheduler.search with
  | .looking => .look index
  | .holding _ => .spawn index
  | .over => .leave index

/-- The step that the thread of a job is ready for, unless it waits for its worker. -/
def Task.nextMove? (aborts : Job → Bool) (task : Task) (index : Nat) : Option Move :=
  match task.stage with
  | .waiting => some (.launch index)
  | .running => if aborts task.ticket.job then some (.abort index) else none
  | .ended _ => some (.release index)
  | .unwinding false => some (.abandon index)
  | .unwinding true => some (.release index)

/-- The next step of a pool that is not at rest. -/
def nextMove? (aborts : Job → Bool) (pool : Pool) : Option Move :=
  match pool.schedulers with
  | scheduler :: _ => some (scheduler.nextMove 0)
  | [] => pool.tasks.zipIdx.findSome? fun (task, index) => task.nextMove? aborts index

/-- Take at most so many steps towards rest. -/
def restWithin (aborts : Job → Bool) : Nat → Pool → Pool
  | 0, pool => pool
  | steps + 1, pool =>
    match (pool.nextMove? aborts).bind pool.step with
    | none => pool
    | some next => restWithin aborts steps next

/-- More steps than a pool takes before it is at rest: a waiting job takes one look, its thread
seven more steps, and the look that finds nothing is followed by leaving. -/
def restBound (pool : Pool) : Nat :=
  10 * (pool.queue.length + pool.tasks.length + pool.schedulers.length) + 1

/-- The pool at rest. -/
def rest (aborts : Job → Bool) (pool : Pool) : Pool :=
  restWithin aborts pool.restBound pool

/-- The place of the running job that a submission became, if it runs. -/
def runningTask? (pool : Pool) (number : Nat) : Option Nat :=
  pool.tasks.findIdx? fun task => task.ticket.number == number && task.stage == .running

/-- Report how the worker of a job ended, when it runs. -/
def finish? (pool : Pool) (number : Nat) (ending : Ending) : Option Pool :=
  (pool.runningTask? number).bind fun index =>
    pool.step
      (match ending with
        | .reported outcome => .finish index outcome
        | .aborted => .abort index)

/-- The submissions whose worker was started, in order. -/
def launches (pool : Pool) : List Ticket :=
  pool.events.filterMap fun
    | .launched ticket => some ticket
    | _ => none

/-- What submitters were told, in order. -/
def answers (pool : Pool) : List Reply :=
  pool.events.filterMap fun
    | .settled number verdict => some ⟨number, verdict⟩
    | .refused number failure => some ⟨number, .error failure⟩
    | _ => none

end PageBuild.Pool
