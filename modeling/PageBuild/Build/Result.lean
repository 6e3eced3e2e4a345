import PageBuild.Json.Record
import PageBuild.Json.Write

/-!
# Build results

What came of a build that ran. A failed build has no URL and a message that says why.
-/
namespace PageBuild

/-- The outcome of one build. -/
structure BuildResult where
  /-- Where the published entry page is served. -/
  url : String
  /-- Where the published log is served. -/
  logUrl : String
  buildId : String
  message : String
  /-- The milliseconds that the build took. -/
  buildTime : UInt64
  success : Bool
  deriving DecidableEq, Repr

namespace BuildResult

/-- The message of a build that succeeded without publishing. -/
def succeeded : String := "build succeeded"

/-- The message of a build that succeeded and was published. -/
def published : String := "build published"

/-- A result of a build with no more than its identity. -/
def ofBuild (buildId : String) : BuildResult := ⟨"", "", buildId, "", 0, false⟩

/-- A result as JSON. -/
def toJson (result : BuildResult) : Json :=
  .object
    [("url", .string result.url), ("logUrl", .string result.logUrl),
      ("buildId", .string result.buildId), ("message", .string result.message),
      ("buildTime", .number (.integer result.buildTime.toNat (by
        have := result.buildTime.toNat_lt
        omega))),
      ("success", .bool result.success)]

/-- The form of a result. -/
def form : Json.Form BuildResult where
  title := "BuildResult"
  blank := ofBuild ""
  fields :=
    [.needed "url" Json.text fun r url => { r with url },
      .needed "logUrl" Json.text fun r logUrl => { r with logUrl },
      .needed "buildId" Json.text fun r buildId => { r with buildId },
      .needed "message" Json.text fun r message => { r with message },
      .needed "buildTime" Json.unsigned fun r time => { r with buildTime := time.toUInt64 },
      .free "success" Json.boolean fun r success => { r with success }]

end BuildResult

end PageBuild
