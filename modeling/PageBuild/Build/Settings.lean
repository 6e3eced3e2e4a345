import PageBuild.Build.Time
import PageBuild.Text.Basic

/-!
# Build settings

How a build is run: the command that bundles the staged tree, its time limit and where artifacts
are published. Variables of the environment override the defaults unless they are blank; a time
limit of zero is none, and one that is no number is ignored.
-/
namespace PageBuild

/-- The command that bundles a staged tree. -/
def defaultBuildCommand : String := "npm install && npm run build"

/-- The first segment of published keys. -/
def defaultKeyPrefix : String := "ls"

/-- How many uploads run at once. -/
def defaultUploadParallelism : UInt64 := 4

/-- How a build is run. -/
structure Settings where
  buildCommand : String
  /-- The time after which the bundler is killed. -/
  timeout : Option Duration
  /-- Where published artifacts are served from, when it is not the store that knows. -/
  publicBaseUrl : Option String
  keyPrefix : String
  uploadParallelism : UInt64
  deriving DecidableEq, Repr

namespace Settings

/-- The settings when nothing is said. -/
def default : Settings :=
  ⟨defaultBuildCommand, none, none, defaultKeyPrefix, defaultUploadParallelism⟩

instance : Inhabited Settings := ⟨default⟩

/-- A variable that is set to more than white space. -/
def filled? (variable_ : Option String) : Option String :=
  variable_.filter fun value => !Text.isAllBlank value

/-- A time limit in seconds; zero is none. -/
def timeout? (seconds : String) : Option Duration :=
  match Text.unsigned? UInt64.size (Text.trimmed seconds.toList) with
  | some 0 => none
  | some seconds => some (.ofSeconds seconds.toUInt64)
  | none => none

/-- The defaults with the variables of an environment. -/
def ofEnvironment (valueOf : String → Option String) : Settings :=
  { default with
    buildCommand := (filled? (valueOf "LOOM_BUILD_COMMAND")).getD defaultBuildCommand
    timeout := (valueOf "LOOM_BUILD_TIMEOUT_SECS").bind timeout?
    publicBaseUrl := filled? (valueOf "LOOM_PUBLIC_BASE_URL") }

end Settings

end PageBuild
