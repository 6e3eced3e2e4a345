import PageBuild.CommandLine.Builds

/-!
# The command line

The words of a command line are read as a request, which is then done. The exit status is zero
when that works out, one when it does not, and two when the words are no request.
-/
namespace PageBuild.CommandLine

/-! ## Compiling

A schema is compiled into a directory, which may start as a copy of a template; what was written
is listed. -/

/-- The name of a mode. -/
def modeName : Mode → String
  | .standard => "Standard"
  | .simple => "Simple"

/-- Make the directory that a schema is compiled into. -/
def prepare (request : CompileRequest) : CommandM Unit := do
  match request.template with
  | some template =>
    let copied ← CommandM.onHost (HostM.onFiles (FileM.copyTree template request.out))
    CommandM.say
      (styled .dim "Staged" ++ " " ++ toString copied ++ " files from " ++ template.text)
  | none => CommandM.onFiles (FileM.ensureDirectory request.out)

/-- Compile a schema. -/
def compile (surroundings : Surroundings) (request : CompileRequest) : CommandM Unit := do
  let text ← CommandM.onFiles (FileM.look (·.readText request.schema))
  match Schema.ofText text with
  | .error fault => throw (.failed (.ofSchemaFault fault))
  | .ok schema =>
    prepare request
    let compiled ← CommandM.onHost
      (Compile.run surroundings.tools.fill schema request.out request.environment
        request.isPreview)
    CommandM.say
      (styled .green "Compiled" ++ " " ++ request.schema.text ++ " (" ++
        modeName compiled.mode ++ " mode)")
    (compiled.pageFiles ++ compiled.scaffoldFiles).forM fun file =>
      CommandM.say ("  " ++ ((file.relativeTo? request.out).getD file).text)

/-! ## Publishing a template

A template directory is published into a local store under a name and a version. -/

/-- Publish a template. -/
def publishTemplate (surroundings : Surroundings) (request : PublishRequest) :
    CommandM Unit := do
  if !(← CommandM.host).files.isDirectory request.template then
    throw (.noTemplate request.template)
  let settings := Settings.ofEnvironment surroundings.valueOf
  let store : Store Unit := LocalStore.toStore ⟨request.store⟩
  let url ← CommandM.onHost
    ((Build.publisherOf settings store).publishTemplate store surroundings.tools.order
      request.name request.version request.template)
  CommandM.say (styled .green "Published" ++ " " ++ url)

/-! ## Requests -/

/-- The name of the program. -/
def programName : String := "loom"

/-- The version of the program. -/
def programVersion : String := "0.1.0"

/-- How the command line is used. -/
def usage : String :=
  "Compile page schemas into bundled web applications\n\n" ++
  "Usage: " ++ programName ++ " [-v] <COMMAND>\n\n" ++
  "Commands:\n" ++
  "  compile SCHEMA --out DIR [--template DIR] [--env ENV] [--preview]\n" ++
  "  build SCHEMA... --template DIR [--env ENV] [--preview] [--publish DIR]\n" ++
  "        [--staging-root DIR] [--parallelism N] [--worker FILE]\n" ++
  "        [--build-timeout SECONDS] [--worker-timeout SECONDS] [--json]\n" ++
  "  publish-template DIR --namespace NAME --version VERSION --store DIR"

/-- Do what is asked for. -/
def perform (surroundings : Surroundings) : Request → CommandM Unit
  | .compile request => compile surroundings request
  | .builds request => builds surroundings request
  | .publish request => publishTemplate surroundings request
  | .help => CommandM.say usage
  | .version => CommandM.say (programName ++ " " ++ programVersion)

/-- The exit status of a command line, what it prints and the host after it. -/
def run (surroundings : Surroundings) (words : List String) (host : Host Unit) :
    Nat × Terminal × Host Unit :=
  match Request.ofWords words with
  | .error misuse => (2, ⟨"", "error: " ++ misuse.message ++ "\n"⟩, host)
  | .ok request =>
    match (perform surroundings request).run (⟨"", ""⟩, host) with
    | (.ok (), terminal, after) => (0, terminal, after)
    | (.error complaint, terminal, after) =>
      (1, { terminal with err := terminal.err ++ "Error: " ++ complaint.message ++ "\n" }, after)

end PageBuild.CommandLine
