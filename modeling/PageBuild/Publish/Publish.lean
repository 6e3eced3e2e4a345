import PageBuild.Publish.Publisher
import PageBuild.Publish.Uploads

/-!
# Publishing

The output of a build is published whole or not at all as far as its caller is told: a URL is
given only when every file was put under both of its keys. A log is published when that works,
and a template only under a version that has no objects yet.
-/
namespace PageBuild

/-- The first segment of the keys of templates. -/
def templatePrefix : String := "lowcode-templates"

namespace Publisher

variable {σ : Type}

/-- The files below a directory. -/
def listFiles (directory : Path) : HostM σ (List Path) := do
  let found ← HostM.onFiles (FileM.look (·.listFiles directory))
  return found.map (·.path)

/-- The keys of a file of an output directory: the pinned one, then the latest one. -/
def distKeys (publisher : Publisher) (app : AppInfo) (environment : Environment)
    (dist file : Path) : List String :=
  let (pinned, latest) :=
    publisher.artifactKeys app environment (Path.relativeKey dist file)
  [pinned, latest]

/-- Publish an output directory, and give the URL of its entry page. -/
def publishDist (publisher : Publisher) (store : Store σ) (policy : Uploads.Policy) (dist : Path)
    (app : AppInfo) (environment : Environment) : HostM σ String := do
  if app.project = "" ∨ app.version = "" then
    throw (.publish "meta.project_name and meta.appVersion are required")
  let files ← listFiles dist
  HostM.info ("Publishing " ++ toString files.length ++ " files from " ++ dist.text)
  Uploads.run store policy publisher.parallelism.toNat
    (files.map fun file => (file, publisher.distKeys app environment dist file))
  return publisher.entryUrl app environment

/-- The key of a log. -/
def logKey (publisher : Publisher) (app : AppInfo) (environment : Environment) (now : Moment) :
    String :=
  publisher.projectKey app
    ("build-" ++ environment.name ++ "-" ++ app.version ++ "-" ++ toString now.milliseconds ++
      ".log")

/-- Publish a log, and give its URL; the empty one when there is no log or it cannot be
published. -/
def uploadLog (publisher : Publisher) (store : Store σ) (log : Path) (app : AppInfo)
    (environment : Environment) : HostM σ String := do
  if !(← get).files.pathExists log then
    HostM.narrate .warning ("Build log not found: " ++ log.text)
    return ""
  let key := publisher.logKey app environment (← get).now
  match ← HostM.attempt (store.put key log log.cacheControl) with
  | .ok () => return publisher.baseUrl ++ key
  | .error failure =>
    HostM.narrate .warning ("Build log upload failed: " ++ failure.message)
    return ""

/-- The key below which a version of a template is published. -/
def templateKey (name version : String) : String :=
  templatePrefix ++ "/" ++ name ++ "/" ++ version

/-- Whether a store has objects below a key; when it cannot say, it is taken to have none. -/
def hasObjects (store : Store σ) (key : String) : HostM σ Bool := do
  match ← HostM.attempt (store.list (key ++ "/") 1) with
  | .ok objects => return !objects.isEmpty
  | .error failure =>
    HostM.narrate .warning ("Could not list " ++ key ++ ": " ++ failure.message)
    return false

/-- Publish a version of a template, and give its URL. A version that is there already is not
replaced. -/
def publishTemplate (publisher : Publisher) (store : Store σ) (policy : Uploads.Policy)
    (name version : String) (directory : Path) : HostM σ String := do
  let key := templateKey name version
  if ← hasObjects store key then throw (.publish (key ++ " already exists"))
  let files ← listFiles directory
  Uploads.run store policy publisher.parallelism.toNat
    (files.map fun file => (file, [key ++ "/" ++ Path.relativeKey directory file]))
  return publisher.baseUrl ++ "/" ++ key

end Publisher

end PageBuild
