import PageBuild.CommandLine.Request
import PageBuild.CommandLine.Terminal
import PageBuild.Pool.Service

/-!
# Building from the command line

One job for each schema goes to a pool of workers, and the results are printed as they come. The
command fails when one of the builds does.
-/
namespace PageBuild.CommandLine

/-- The settings of builds: those of the environment, with a time limit that is given. -/
def buildSettings (surroundings : Surroundings) (request : BuildsRequest) : Settings :=
  let settings := Settings.ofEnvironment surroundings.valueOf
  { settings with timeout := request.buildTimeout <|> settings.timeout }

/-- The file of the worker. -/
def workerFile (surroundings : Surroundings) (request : BuildsRequest) : CommandM Path := do
  match request.worker with
  | some path => return path
  | none =>
    let places : Worker.Whereabouts :=
      ⟨(surroundings.valueOf Worker.pathVariable).map Path.mk, surroundings.beside,
        surroundings.searchPath, surroundings.canRun⟩
    match Worker.find places (← CommandM.host).files with
    | .ok path => return path
    | .error failure => throw (.failed failure)

/-- A path from the root. -/
def fromRoot (surroundings : Surroundings) (path : Path) : CommandM Path :=
  if path.text = "" then throw .emptyPath else return path.absolute surroundings.here

/-- The id of a build: the name of its schema, and a text that makes it unique. -/
def buildIdOf (surroundings : Surroundings) (schema : Path) (index : Nat) : String :=
  schema.fileStem?.getD "build" ++ "-" ++ surroundings.suffix index

/-- Read a schema and make its job. -/
def queueJob (surroundings : Surroundings) (request : BuildsRequest) (template : Path)
    (publishTo : Option Path) (schema : Path) (index : Nat) : CommandM Job := do
  let schemaText ← CommandM.onFiles (FileM.look (·.readText schema))
  let buildId := buildIdOf surroundings schema index
  if !request.asJson then
    CommandM.say (styled .dim "Queued" ++ " " ++ schema.text ++ " as " ++ buildId)
  return ⟨schemaText, buildId, template, request.environment, request.isPreview, publishTo,
    request.stagingRoot⟩

/-- Print the result of a build as JSON, and say whether it succeeded. -/
def printJson (result : BuildResult) : CommandM Bool := do
  CommandM.say result.toJson.render
  return result.success

/-- Print why a build failed. -/
def printFailed (name message : String) : CommandM Bool := do
  CommandM.say (styled .red "✗" ++ " " ++ name)
  CommandM.sayError (styled .red "    Error:" ++ " " ++ message)
  return false

/-- Print the result of a build, and say whether it succeeded. -/
def printResult (name : String) (result : BuildResult) : CommandM Bool := do
  if result.success then
    CommandM.say
      (styled .green "✓" ++ " " ++ name ++ " " ++
        styled .dim ("(" ++ toString result.buildTime.toNat ++ "ms)"))
    if result.url ≠ "" then CommandM.say ("    " ++ result.url)
    return true
  else
    let failed ← printFailed name result.message
    if result.logUrl ≠ "" then CommandM.sayError ("    log: " ++ result.logUrl)
    return failed

/-- Print what became of a job, and say whether it succeeded. -/
def printAnswer (asJson : Bool) (name : String) :
    Except Failure BuildResult → CommandM Bool
  | .ok result => if asJson then printJson result else printResult name result
  | .error failure => printFailed name failure.withHint

/-- A span of milliseconds in seconds with two places. -/
def secondsText (milliseconds : Nat) : String :=
  let hundredths := (milliseconds + 5) / 10
  toString (hundredths / 100) ++ "." ++ Moment.padded 2 (hundredths % 100)

/-- Print how many builds there were. -/
def printTotal (total failed milliseconds : Nat) : CommandM Unit := do
  let style := if failed = 0 then Style.green else Style.yellow
  CommandM.say
    ("\n" ++ styled style "Completed" ++ " " ++ toString total ++ " builds in " ++
      secondsText milliseconds ++ "s (" ++ toString failed ++ " failed)")

/-- Run jobs in a pool of workers. -/
def runJobs (surroundings : Surroundings) (request : BuildsRequest) (worker : Path)
    (jobs : List Job) : CommandM (List Pool.Reply) := do
  let (terminal, host) ← get
  let launcher := Pool.processLauncher surroundings.starter worker
    (buildSettings surroundings request) request.workerTimeout
  let (pool, after) := Pool.runAll launcher request.parallelism jobs host
  set (terminal, after)
  return pool.answers

/-- Build schemas. -/
def builds (surroundings : Surroundings) (request : BuildsRequest) : CommandM Unit := do
  let started := (← CommandM.host).now.milliseconds
  let worker ← workerFile surroundings request
  let template ← fromRoot surroundings request.template
  let publishTo ← request.publish.mapM (fromRoot surroundings)
  let jobs ← request.schemas.zipIdx.mapM fun (schema, index) =>
    queueJob surroundings request template publishTo schema index
  let answers ← runJobs surroundings request worker jobs
  let successes ← answers.mapM fun reply =>
    printAnswer request.asJson ((request.schemas[reply.number]?.map (·.text)).getD "")
      reply.verdict
  let failed := successes.count false
  let total := request.schemas.length
  if !request.asJson then
    printTotal total failed ((← CommandM.host).now.milliseconds - started)
  if failed ≠ 0 then throw (.builds failed total)

end PageBuild.CommandLine
