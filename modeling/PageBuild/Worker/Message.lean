import PageBuild.Build.Request
import PageBuild.Build.Result
import PageBuild.Text.Shown

/-!
# Worker messages

What is sent to a worker and what it answers. A build is answered by the bundler's process group,
once the bundler runs, and by one closing message: its result or an error.
-/
namespace PageBuild.Worker

/-- What a worker is asked to do. -/
inductive Command where
  /-- Run one build. -/
  | build (request : BuildRequest)
  /-- Stop. -/
  | shutdown
  /-- Say that it is there. -/
  | ping
  deriving DecidableEq, Repr

/-- What a worker answers. -/
inductive Response where
  /-- The build ran. -/
  | finished (result : BuildResult)
  /-- The bundler runs in a process group. -/
  | bundling (group : UInt32)
  /-- The build was refused. -/
  | error (message : String)
  /-- The worker is there. -/
  | pong
  deriving DecidableEq, Repr

namespace Response

/-- Whether a response closes a build. -/
def isClosing : Response → Bool
  | finished _ => true
  | error _ => true
  | _ => false

/-- A response as messages show it. -/
def shown : Response → String
  | finished result =>
    "Finished \x7b url: " ++ Text.inQuotes result.url ++ ", log_url: " ++
      Text.inQuotes result.logUrl ++ ", build_id: " ++ Text.inQuotes result.buildId ++
      ", message: " ++ Text.inQuotes result.message ++ ", build_time: " ++
      toString result.buildTime.toNat ++ ", success: " ++ toString result.success ++ " \x7d"
  | bundling group => "Bundling \x7b pgid: " ++ toString group.toNat ++ " \x7d"
  | error message => "Error \x7b message: " ++ Text.inQuotes message ++ " \x7d"
  | pong => "Pong"

end Response

end PageBuild.Worker
