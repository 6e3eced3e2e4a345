import PageBuild.Build.Time
import PageBuild.CommandLine.Arguments
import PageBuild.Files.Path
import PageBuild.Pool.Basic
import PageBuild.Schema.Basic
import PageBuild.Text.Basic

/-!
# Requests

What the command line can be asked for: to compile one schema, to build several, or to publish a
template. A request is read from the words of the command line; paths are not empty.
-/
namespace PageBuild.CommandLine

/-- Compile a schema into a directory. -/
structure CompileRequest where
  schema : Path
  /-- The directory that is written. -/
  out : Path
  /-- The directory that the output starts from. -/
  template : Option Path
  environment : Environment
  isPreview : Bool
  deriving DecidableEq, Repr

/-- Build schemas, each in a worker. -/
structure BuildsRequest where
  schemas : List Path
  template : Path
  environment : Environment
  isPreview : Bool
  publish : Option Path
  stagingRoot : Option Path
  /-- How many builds run at once. -/
  parallelism : Nat
  /-- The file of the worker. -/
  worker : Option Path
  buildTimeout : Option Duration
  workerTimeout : Option Duration
  /-- Whether each result is printed as JSON, and nothing else. -/
  asJson : Bool
  deriving DecidableEq, Repr

/-- Publish a template into a store. -/
structure PublishRequest where
  template : Path
  name : String
  version : String
  store : Path
  deriving DecidableEq, Repr

/-- What is asked for. -/
inductive Request where
  | compile (request : CompileRequest)
  | builds (request : BuildsRequest)
  | publish (request : PublishRequest)
  /-- How to use the command line. -/
  | help
  | version
  deriving DecidableEq, Repr

namespace Request

/-- The option that every command takes: to narrate more. -/
def verbose : OptionSpec := ⟨"verbose", some 'v', false⟩

/-- The option that asks how a command is used. -/
def helpOption : OptionSpec := ⟨"help", some 'h', false⟩

/-- The options before a command. -/
def commonOptions : List OptionSpec :=
  [verbose, helpOption, ⟨"version", some 'V', false⟩]

/-- The options of compiling. -/
def compileOptions : List OptionSpec :=
  [⟨"out", some 'o', true⟩, ⟨"template", some 't', true⟩, ⟨"env", none, true⟩,
    ⟨"preview", none, false⟩, verbose, helpOption]

/-- The options of building. -/
def buildOptions : List OptionSpec :=
  [⟨"template", some 't', true⟩, ⟨"env", none, true⟩, ⟨"preview", none, false⟩,
    ⟨"publish", none, true⟩, ⟨"staging-root", none, true⟩, ⟨"parallelism", some 'j', true⟩,
    ⟨"worker", none, true⟩, ⟨"build-timeout", none, true⟩, ⟨"worker-timeout", none, true⟩,
    ⟨"json", none, false⟩, verbose, helpOption]

/-- The options of publishing a template. -/
def publishOptions : List OptionSpec :=
  [⟨"namespace", none, true⟩, ⟨"version", none, true⟩, ⟨"store", none, true⟩, verbose,
    helpOption]

/-- A path that is not empty. -/
def path (name value : String) : Except Misuse Path :=
  if value = "" then .error (.badValue name value) else .ok ⟨value⟩

/-- A number of 64 bits. -/
def number (name value : String) : Except Misuse Nat :=
  match Text.unsigned? UInt64.size value.toList with
  | some number => .ok number
  | none => .error (.badValue name value)

/-- A target. -/
def environment (name value : String) : Except Misuse Environment :=
  match Environment.ofName? value with
  | some environment => .ok environment
  | none => .error (.badValue name value)

/-- A number of seconds. -/
def seconds (name value : String) : Except Misuse Duration :=
  (number name value).map fun seconds => .ofSeconds seconds.toUInt64

/-- The value of an option that need not be given. -/
def optional {α : Type} (arguments : Arguments) (name : String)
    (read : String → String → Except Misuse α) : Except Misuse (Option α) :=
  match arguments.value? name with
  | none => .ok none
  | some value => (read name value).map some

/-- The value of an option that has to be given. -/
def needed {α : Type} (arguments : Arguments) (name : String)
    (read : String → String → Except Misuse α) : Except Misuse α :=
  match arguments.value? name with
  | none => .error (.missing name)
  | some value => read name value

/-- The only operand. -/
def operand (arguments : Arguments) (name : String) : Except Misuse Path :=
  match arguments.operands with
  | [] => .error (.missing name)
  | [word] => path name word
  | _ :: word :: _ => .error (.unwantedOperand word)

/-- A request to compile. -/
def ofCompile (arguments : Arguments) : Except Misuse Request := do
  return .compile
    { schema := ← operand arguments "schema"
      out := ← needed arguments "out" path
      template := ← optional arguments "template" path
      environment := (← optional arguments "env" environment).getD .fat
      isPreview := arguments.has "preview" }

/-- A request to build. -/
def ofBuilds (arguments : Arguments) : Except Misuse Request := do
  if arguments.operands.isEmpty then throw (.missing "schemas")
  return .builds
    { schemas := ← arguments.operands.mapM (path "schemas")
      template := ← needed arguments "template" path
      environment := (← optional arguments "env" environment).getD .fat
      isPreview := arguments.has "preview"
      publish := ← optional arguments "publish" path
      stagingRoot := ← optional arguments "staging-root" path
      parallelism := (← optional arguments "parallelism" number).getD Pool.defaultCapacity
      worker := ← optional arguments "worker" path
      buildTimeout := ← optional arguments "build-timeout" seconds
      workerTimeout := ← optional arguments "worker-timeout" seconds
      asJson := arguments.has "json" }

/-- A request to publish a template. -/
def ofPublish (arguments : Arguments) : Except Misuse Request := do
  return .publish
    { template := ← operand arguments "template"
      name := ← needed arguments "namespace" fun _ value => .ok value
      version := ← needed arguments "version" fun _ value => .ok value
      store := ← needed arguments "store" path }

/-- The request of a command with its words. -/
def ofCommand (specs : List OptionSpec) (read : Arguments → Except Misuse Request)
    (words : List String) : Except Misuse Request := do
  let arguments ← Arguments.sort specs words none .empty
  if arguments.has "help" then return .help
  read arguments

/-- The options before the command, the command and the words after it. -/
def splitCommand : List String → List String × Option (String × List String)
  | [] => ([], none)
  | word :: words =>
    match Arguments.Word.ofText word with
    | .plain => ([], some (word, words))
    | _ =>
      let (options, command) := splitCommand words
      (word :: options, command)

/-- The request of the words of a command line. -/
def ofWords (words : List String) : Except Misuse Request := do
  let (options, command) := splitCommand words
  let arguments ← Arguments.sort commonOptions options none .empty
  if arguments.has "help" then return .help
  if arguments.has "version" then return .version
  match command with
  | none => throw .noCommand
  | some (name, words) =>
    if options.contains "--" then throw (.unwantedOperand name)
    else if name = "compile" then ofCommand compileOptions ofCompile words
    else if name = "build" then ofCommand buildOptions ofBuilds words
    else if name = "publish-template" then ofCommand publishOptions ofPublish words
    else if name = "help" then return .help
    else throw (.unknownCommand name)

end Request

end PageBuild.CommandLine
