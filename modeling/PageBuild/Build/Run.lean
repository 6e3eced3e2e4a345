import PageBuild.Build.Bundler
import PageBuild.Build.Compile
import PageBuild.Build.Job
import PageBuild.Build.Result
import PageBuild.Build.Settings
import PageBuild.Build.Staging
import PageBuild.Publish.Publish

/-!
# Builds

A build stages its template, compiles the schema into it, bundles the tree and verifies the entry
page; then it publishes the output when there is a store for it. Everything is narrated into the
log of the job, which is opened first. A step that fails ends the build with a result that says
why; only a job that should not have been submitted is a failure of the build itself. With a
store the log is published too, and the staged tree and the log are removed whatever happened;
without one both are left. A build has no result at all if the clock cannot show when the limit of its
bundler runs out: it crashes once the bundler was started.
-/
namespace PageBuild

/-- What a build works with. -/
structure Tools where
  /-- How templates are filled. -/
  fill : Filler
  /-- What commands do. -/
  runner : Runner
  /-- In which order uploads proceed. -/
  order : Uploads.Policy

namespace Build

variable {σ : Type}

/-- Open the log of a job, empty, and narrate into it from now on. -/
def openLog (path : Path) : HostM σ Unit := do
  HostM.onFiles (FileM.ensureParent path)
  HostM.onFiles (FileM.change (·.writeFile path .empty))
  let (location, _) ← HostM.onFiles (FileM.look (·.locate path))
  modify fun host => { host with log := some location }

/-- Close the log. -/
def closeLog : HostM σ Unit := modify fun host => { host with log := none }

/-- The command that bundles a staged tree. -/
def bundlerCall (settings : Settings) (staging : Staging) (job : Job) (log : Location) :
    CommandCall :=
  ⟨settings.buildCommand, staging.buildDir, job.environment, log, settings.timeout⟩

/-- Check that the entry page was made. -/
def verify (staging : Staging) (job : Job) (schema : Schema) : HostM σ Unit := do
  let entry := staging.distEntry job.environment schema.app.version
  match (← get).files.stat entry with
  | .ok (.file content) =>
    HostM.info ("Verified " ++ entry.text ++ " (" ++ toString content.size ++ " bytes)")
  | _ => throw (.artifact entry.text)

/-- Stage, compile and bundle. -/
def bundle (tools : Tools) (settings : Settings) (job : Job) (schema : Schema)
    (staging : Staging) : HostM σ Unit := do
  let copied ← HostM.onFiles (staging.stage job.template)
  HostM.info ("Staged " ++ toString copied ++ " files into " ++ staging.buildDir.text)
  let compiled ←
    Compile.run tools.fill schema staging.buildDir job.environment job.isPreview
  HostM.info
    ("Compiled " ++ toString compiled.pageFiles.length ++ " page modules and " ++
      toString compiled.scaffoldFiles.length ++ " scaffold files")
  HostM.info ("Running " ++ Bundler.shownCommand settings.buildCommand)
  Bundler.run tools.runner (bundlerCall settings staging job ((← get).log.getD []))

/-- Stage, compile, bundle and verify. -/
def execute (tools : Tools) (settings : Settings) (job : Job) (schema : Schema)
    (staging : Staging) : HostM σ Unit := do
  bundle tools settings job schema staging
  verify staging job schema

/-- The publisher of a store under settings. -/
def publisherOf (settings : Settings) (store : Store σ) : Publisher :=
  Publisher.of ((settings.publicBaseUrl <|> store.baseUrl).getD "") settings.keyPrefix
    settings.uploadParallelism

/-- Publish the output of a build that worked out, and give its result. -/
def publish (tools : Tools) (settings : Settings) (job : Job) (schema : Schema)
    (staging : Staging) (store : Store σ) : HostM σ BuildResult := do
  let result := BuildResult.ofBuild job.buildId
  match ←
    HostM.attempt
      ((publisherOf settings store).publishDist store tools.order staging.distDir schema.app
        job.environment) with
  | .ok url =>
    HostM.info ("Published " ++ url)
    return { result with url, message := BuildResult.published, success := true }
  | .error failure =>
    HostM.narrate .warning ("Publishing failed: " ++ failure.message)
    return { result with
      message := "build succeeded but publishing failed: " ++ failure.message }

/-- The result of a build whose steps ended in some way. -/
def conclude (tools : Tools) (settings : Settings) (job : Job) (schema : Schema)
    (staging : Staging) (store : Option (Store σ)) (outcome : Except Failure Unit) :
    HostM σ BuildResult := do
  let result := BuildResult.ofBuild job.buildId
  match outcome, store with
  | .ok (), some store => publish tools settings job schema staging store
  | .ok (), none =>
    HostM.info ("Publishing not requested; output kept in " ++ staging.buildDir.text)
    return { result with message := BuildResult.succeeded, success := true }
  | .error failure, _ =>
    HostM.narrate .error ("Build failed: " ++ failure.message)
    return { result with message := failure.message }

/-- Publish the log of a build, close it and remove what the build left. -/
def finish (settings : Settings) (job : Job) (schema : Schema) (staging : Staging)
    (store : Store σ) (result : BuildResult) : HostM σ BuildResult := do
  let logUrl ←
    (publisherOf settings store).uploadLog store staging.logPath schema.app job.environment
  closeLog
  let _ ← HostM.attempt (HostM.onFiles staging.clean)
  return { result with logUrl }

/-- Run a job whose schema was read, with its log open. -/
def narratedRun (tools : Tools) (settings : Settings) (job : Job) (schema : Schema)
    (staging : Staging) (store : Option (Store σ)) : HostM σ BuildResult := do
  HostM.info
    ("Build " ++ job.buildId ++ " started (env: " ++ job.environment.name ++ ", template: " ++
      job.template.text ++ ")")
  let started := (← get).now.milliseconds
  let outcome ← HostM.attempt (execute tools settings job schema staging)
  let concluded ← conclude tools settings job schema staging store outcome
  let lasted := (← get).now.milliseconds - started
  let result := { concluded with buildTime := lasted.toUInt64 }
  HostM.info
    ("Build " ++ job.buildId ++ " finished in " ++ toString result.buildTime.toNat ++ "ms")
  match store with
  | some store => finish settings job schema staging store result
  | none =>
    closeLog
    return result

/-- Run a job, and publish its output when there is a store. The bundler is waited for to its end. -/
def run (tools : Tools) (settings : Settings) (job : Job) (store : Option (Store σ)) :
    HostM σ BuildResult := do
  match job.validate with
  | .error failure => throw failure
  | .ok () =>
    match job.parseSchema with
    | .error failure => throw failure
    | .ok schema =>
      let staging := Staging.ofBuild job.template job.buildId job.stagingRoot
      match ← HostM.attempt (openLog staging.logPath) with
      | .error failure =>
        return { BuildResult.ofBuild job.buildId with message := failure.message }
      | .ok () => narratedRun tools settings job schema staging store

/-- Run a job, and publish its output to the local store that the job names, if it does. -/
def runLocal (tools : Tools) (settings : Settings) (job : Job) : HostM σ BuildResult :=
  run tools settings job (job.publishTo.map fun root => LocalStore.toStore ⟨root⟩)

/-- Run a job as far as its bundler, which runs to its end. -/
def runToBundler (tools : Tools) (settings : Settings) (job : Job) : HostM σ Unit := do
  match job.validate with
  | .error failure => throw failure
  | .ok () =>
    match job.parseSchema with
    | .error failure => throw failure
    | .ok schema =>
      let staging := Staging.ofBuild job.template job.buildId job.stagingRoot
      openLog staging.logPath
      HostM.info
        ("Build " ++ job.buildId ++ " started (env: " ++ job.environment.name ++ ", template: " ++
          job.template.text ++ ")")
      bundle tools settings job schema staging

/-! ## Crashes -/

/-- The host after a build that crashes: the bundler was started, and the clock cannot show when its
limit runs out. The bundler runs on, and the log is not written to any more. -/
def crash? (tools : Tools) (settings : Settings) (job : Job) (host : Host σ) : Option (Host σ) :=
  let after := ((runToBundler tools settings job).run host).2
  if host.bundlers.length < after.bundlers.length &&
      !Bundler.hasDeadline host.uptime settings.timeout then
    some { after with log := none }
  else none

/-- What a build comes to, which is nothing if it crashes, and the host then. -/
def ending (tools : Tools) (settings : Settings) (job : Job) (store : Option (Store σ))
    (host : Host σ) : Option (Except Failure BuildResult) × Host σ :=
  match crash? tools settings job host with
  | some after => (none, after)
  | none => Prod.map some id ((run tools settings job store).run host)

end Build

end PageBuild
