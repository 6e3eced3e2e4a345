import PageBuild.Pool.Rest
import PageBuild.Worker.Course

/-!
# Serving a pool

The jobs of a pool are run one after the other, in the order in which they were given slots, until
none is left. A job whose worker does not end keeps its slot.
-/
namespace PageBuild.Pool

variable {σ : Type}

/-- Runs one job, over a state that the workers share. -/
abbrev Launcher (σ : Type) := Job → σ → Option Worker.Outcome × σ

/-- Serve at most so many jobs of a pool. -/
def serveWithin (launch : Launcher σ) : Nat → Pool → σ → Pool × σ
  | 0, pool, state => (pool, state)
  | jobs + 1, pool, state =>
    match pool.tasks.find? fun task => task.stage == .running with
    | none => (pool, state)
    | some task =>
      match launch task.ticket.job state with
      | (none, after) => (pool, after)
      | (some outcome, after) =>
        match pool.finish? task.ticket.number (.reported outcome) with
        | none => (pool, after)
        | some next => serveWithin launch jobs (next.rest fun _ => false) after

/-- Run all jobs of a pool. -/
def serve (launch : Launcher σ) (pool : Pool) (state : σ) : Pool × σ :=
  serveWithin launch (pool.queue.length + pool.tasks.length) (pool.rest fun _ => false) state

/-- Submit jobs to a fresh pool and run them: the answers in the order of submission. -/
def runAll (launch : Launcher σ) (capacity : Nat) (jobs : List Job) (state : σ) : Pool × σ :=
  serve launch (jobs.foldl submit (ofCapacity capacity)) state

/-- Runs jobs in worker processes, with settings and a limit of time for each. -/
def processLauncher (start : Worker.Starter σ) (path : Path) (settings : Settings)
    (limit : Option Duration) : Launcher σ :=
  fun job => Worker.launch start path limit (.of job settings)

end PageBuild.Pool
