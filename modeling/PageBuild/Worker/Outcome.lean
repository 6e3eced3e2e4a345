import PageBuild.Build.Result
import PageBuild.Failure

/-!
# Outcomes

How a worker's run of one job ended, and what that means for who waits for the job.
-/
namespace PageBuild.Worker

/-- The end of one isolated run. -/
inductive Outcome where
  /-- The worker sent a result, perhaps of a build that failed. -/
  | completed (result : BuildResult)
  /-- The worker sent an error, or could not be run at all. -/
  | failed (message : String)
  /-- The worker exited without a closing message; a signal leaves no status. -/
  | exited (status : Option Int)
  deriving DecidableEq, Repr

/-- What the submitter of a job is told. -/
def Outcome.verdict : Outcome → Except Failure BuildResult
  | completed result => .ok result
  | failed message => .error (.workerFailed message)
  | exited status => .error (.workerCrashed status)

end PageBuild.Worker
