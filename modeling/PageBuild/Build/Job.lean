import PageBuild.Failure
import PageBuild.Files.Path
import PageBuild.Schema.Read
import PageBuild.Text.Basic

/-!
# Build jobs

One unit of work: a schema to compile against a template and to bundle. The build id names the
staging directory and the log, so it is a plain name.
-/
namespace PageBuild

/-- A build as it is submitted. -/
structure Job where
  /-- The JSON text of the schema. -/
  schemaText : String
  /-- The identity of the build. -/
  buildId : String
  /-- The directory that the build starts from. -/
  template : Path
  environment : Environment
  isPreview : Bool
  /-- The root of a store to publish to. -/
  publishTo : Option Path
  /-- The directory that holds staging directories and logs. -/
  stagingRoot : Option Path
  deriving DecidableEq, Repr

/-- Why a job is refused. -/
inductive JobFlaw where
  | noBuildId
  | buildId (id : String)
  | noTemplate
  deriving DecidableEq, Repr

/-- The words for a flaw. -/
def JobFlaw.message : JobFlaw → String
  | noBuildId => "buildId is required"
  | buildId id => "buildId '" ++ id ++ "' must be a plain name"
  | noTemplate => "templatePath is required"

namespace Job

/-- The first flaw of a job. -/
def flaw? (job : Job) : Option JobFlaw :=
  if Text.isAllBlank job.buildId then some .noBuildId
  else if !Text.isPlainName job.buildId then some (.buildId job.buildId)
  else if job.template.text = "" then some .noTemplate
  else none

/-- A job is accepted when it has no flaw. -/
def validate (job : Job) : Except Failure Unit :=
  match job.flaw? with
  | some flaw => .error (.invalidJob flaw.message)
  | none => .ok ()

/-- The schema of a job. -/
def parseSchema (job : Job) : Except Failure Schema :=
  match Schema.ofText job.schemaText with
  | .ok schema => .ok schema
  | .error fault => .error (.ofSchemaFault fault)

end Job

end PageBuild
