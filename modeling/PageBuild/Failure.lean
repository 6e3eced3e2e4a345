import PageBuild.Files.Cause
import PageBuild.Json.Fault

/-!
# Failures

What can go wrong in a build, by kind. `Failure.message` words a failure; `Failure.hint?` is the
advice that the command line adds to some kinds.
-/
namespace PageBuild

/-- What went wrong, with the details that its kind shows. -/
inductive Failure where
  /-- The schema is incomplete. -/
  | validation (reason : String)
  /-- The schema is not a JSON text of a schema. -/
  | parse (reason : String)
  /-- A job lacks something or names something unknown. -/
  | invalidJob (reason : String)
  /-- A template file cannot be filled. -/
  | template (path reason : String)
  /-- The bundler failed or did not start. -/
  | externalTool (reason : String)
  /-- The bundler left no entry page. -/
  | artifact (path : String)
  /-- Uploading failed. -/
  | publish (reason : String)
  /-- A file operation failed. -/
  | io (cause : IoCause)
  /-- A JSON text was refused. -/
  | json (reason : String)
  /-- A message cannot be encoded or decoded. -/
  | serialization (reason : String)
  /-- The exchange with a worker failed. -/
  | ipc (reason : String)
  /-- A worker reported a failure. -/
  | workerFailed (reason : String)
  /-- A worker exited without an answer. -/
  | workerCrashed (status : Option Int)
  /-- Time ran out. -/
  | timeout (reason : String)
  deriving DecidableEq, Repr

namespace Failure

/-- The words for a failure. -/
def message : Failure → String
  | validation reason => "invalid schema: " ++ reason
  | parse reason => "parse error: " ++ reason
  | invalidJob reason => "invalid job: " ++ reason
  | template path reason => "template error in " ++ path ++ ": " ++ reason
  | externalTool reason => "external build failed: " ++ reason
  | artifact path => "artifact missing: " ++ path
  | publish reason => "publish failed: " ++ reason
  | io cause => "IO error: " ++ cause.message
  | json reason => "JSON error: " ++ reason
  | serialization reason => "serialization error: " ++ reason
  | ipc reason => "IPC error: " ++ reason
  | workerFailed reason => "build worker failed: " ++ reason
  | workerCrashed none => "build worker exited unexpectedly"
  | workerCrashed (some status) =>
    "build worker exited unexpectedly (status " ++ toString status ++ ")"
  | timeout reason => "timed out: " ++ reason

/-- What to do about a failure, for the kinds where that is known. -/
def hint? : Failure → Option String
  | validation _ => some "every page needs a treeId that matches a componentsTree id with children"
  | parse _ => some "check that the schema file is valid JSON"
  | invalidJob _ => some "pass both --build-id and --template"
  | externalTool _ | artifact _ =>
    some "inspect the build log; the bundler output is captured there"
  | ipc _ | workerCrashed _ => some "set LOOM_WORKER_PATH or make sure loom-worker is on PATH"
  | timeout _ => some "raise LOOM_BUILD_TIMEOUT_SECS if the build is expected to be slow"
  | _ => none

/-- The words for a failure, with the hint on a line of its own. -/
def withHint (failure : Failure) : String :=
  match failure.hint? with
  | some hint => failure.message ++ "\n  hint: " ++ hint
  | none => failure.message

/-- The failure of a schema text that is not read. -/
def ofSchemaFault (fault : Json.Fault) : Failure :=
  parse ("schema is not valid JSON: " ++ fault.message)

/-- The failure of any other JSON text that is not read. -/
def ofJsonFault (fault : Json.Fault) : Failure := json fault.message

/-- The failure of an environment name that is none of the targets. -/
def unknownEnvironment (name : String) : Failure :=
  invalidJob ("unknown environment '" ++ name ++ "' (expected fat, uat, pre or pro)")

end Failure

end PageBuild
