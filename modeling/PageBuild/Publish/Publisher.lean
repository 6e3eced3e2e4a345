import PageBuild.Schema.Basic
import PageBuild.Text.Basic

/-!
# Published keys

Every file of a build is published twice: pinned to its version, and as the latest one. Both keys
come from the path of the file below the output directory, and so does the URL of the entry page.
The release target has no segment of its own in keys.
-/
namespace PageBuild

/-- Where and under which keys artifacts are published. -/
structure Publisher where
  /-- The URL that keys are appended to, without a slash at its end. -/
  baseUrl : String
  /-- The first segment of keys. -/
  keyPrefix : String
  /-- How many uploads run at once at most; zero sets no limit. -/
  parallelism : UInt64
  deriving DecidableEq, Repr

namespace Publisher

/-- A text without the slashes at its end. -/
def withoutSlashes (text : String) : String :=
  String.ofList (text.toList.reverse.dropWhile (· == '/')).reverse

/-- A publisher of a base URL, which may end in slashes. -/
def of (baseUrl keyPrefix : String) (parallelism : UInt64) : Publisher :=
  ⟨withoutSlashes baseUrl, keyPrefix, max parallelism 1⟩

/-- The segments with the first one that is the version replaced. -/
def latestSegments (version : String) : List String → List String
  | [] => []
  | segment :: rest =>
    if segment = version then "latest" :: rest else segment :: latestSegments version rest

/-- A path below the output directory without the segment of the release target. -/
def keyPath (environment : Environment) (relative : String) : String :=
  match environment with
  | .pro =>
    match relative.toList with
    | 'p' :: 'r' :: 'o' :: '/' :: rest => String.ofList rest
    | _ => relative
  | _ => relative

/-- A key of a project. -/
def projectKey (publisher : Publisher) (app : AppInfo) (path : String) : String :=
  "/" ++ publisher.keyPrefix ++ "/" ++ app.project ++ "/" ++ path

/-- The pinned and the latest key of a path below the output directory. -/
def artifactKeys (publisher : Publisher) (app : AppInfo) (environment : Environment)
    (relative : String) : String × String :=
  let path := keyPath environment relative
  (publisher.projectKey app path,
    publisher.projectKey app
      (Text.join '/' (latestSegments app.version (Text.split '/' path))))

/-- The URL of the latest entry page. -/
def entryUrl (publisher : Publisher) (app : AppInfo) (environment : Environment) : String :=
  let directory :=
    match environment with
    | .pro => ""
    | other => "/" ++ other.name
  publisher.baseUrl ++ "/" ++ publisher.keyPrefix ++ "/" ++ app.project ++ directory ++
    "/latest/index.html"

end Publisher

end PageBuild
