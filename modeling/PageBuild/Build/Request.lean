import PageBuild.Build.Job
import PageBuild.Build.Settings

/-!
# Build requests

A job with the settings to run it, as a worker receives it: the target by its name, the time limit
in whole seconds of at least one, and the number of uploads in 32 bits.
-/
namespace PageBuild

/-- A job and its settings in the form sent to a worker. -/
structure BuildRequest where
  schemaText : String
  buildId : String
  template : String
  environment : String
  isPreview : Bool
  publishTo : Option String
  stagingRoot : Option String
  buildCommand : String
  timeoutSeconds : Option UInt64
  publicBaseUrl : Option String
  keyPrefix : String
  uploadParallelism : UInt32
  deriving DecidableEq, Repr

namespace BuildRequest

/-- The request of a job and its settings. -/
def of (job : Job) (settings : Settings) : BuildRequest where
  schemaText := job.schemaText
  buildId := job.buildId
  template := job.template.text
  environment := job.environment.name
  isPreview := job.isPreview
  publishTo := job.publishTo.map (·.text)
  stagingRoot := job.stagingRoot.map (·.text)
  buildCommand := settings.buildCommand
  timeoutSeconds := settings.timeout.map fun limit => max limit.seconds 1
  publicBaseUrl := settings.publicBaseUrl
  keyPrefix := settings.keyPrefix
  uploadParallelism := settings.uploadParallelism.toUInt32

/-- The settings of a request. -/
def settings (request : BuildRequest) : Settings where
  buildCommand := request.buildCommand
  timeout := request.timeoutSeconds.map .ofSeconds
  publicBaseUrl := request.publicBaseUrl
  keyPrefix := request.keyPrefix
  uploadParallelism := request.uploadParallelism.toUInt64

/-- The job of a request in a target. -/
def job (request : BuildRequest) (environment : Environment) : Job where
  schemaText := request.schemaText
  buildId := request.buildId
  template := ⟨request.template⟩
  environment
  isPreview := request.isPreview
  publishTo := request.publishTo.map Path.mk
  stagingRoot := request.stagingRoot.map Path.mk

/-- The job and the settings of a request, unless its target is unknown. -/
def parts (request : BuildRequest) : Except Failure (Job × Settings) :=
  match Environment.ofName? request.environment with
  | some environment => .ok (request.job environment, request.settings)
  | none => .error (.unknownEnvironment request.environment)

end BuildRequest

end PageBuild
