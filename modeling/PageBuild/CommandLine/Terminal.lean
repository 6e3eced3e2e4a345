import PageBuild.Build.Run
import PageBuild.Worker.Location
import PageBuild.Worker.Program

/-!
# Terminals

What a command prints, to its output and to its errors, while it changes the host. A command that
cannot go on ends with a complaint, which is its last line of errors.
-/
namespace PageBuild.CommandLine

/-- What was printed. -/
structure Terminal where
  out : String
  err : String
  deriving DecidableEq, Repr

/-- Why a command cannot go on. -/
inductive Complaint where
  /-- A step of a build failed. -/
  | failed (failure : Failure)
  /-- A file given to the command cannot be used. -/
  | file (cause : IoCause)
  /-- The template to publish is no directory. -/
  | noTemplate (path : Path)
  | emptyPath
  /-- Some of the builds failed. -/
  | builds (count total : Nat)
  deriving DecidableEq, Repr

/-- The words for a complaint. -/
def Complaint.message : Complaint → String
  | failed reason => reason.withHint
  | file cause => cause.message
  | noTemplate path => "template directory " ++ path.text ++ " does not exist"
  | emptyPath => "cannot make an empty path absolute"
  | builds count total =>
    toString count ++ " of " ++ toString total ++ " builds failed"

/-- What a command runs in, beside the host. -/
structure Surroundings where
  valueOf : String → Option String
  tools : Tools
  /-- The path of the current directory. -/
  here : Path
  /-- The directory of the program. -/
  beside : Option Path
  /-- The directories of the search path. -/
  searchPath : List Path
  /-- Whether a file can be run. -/
  canRun : Path → Bool
  /-- How workers are started. -/
  starter : Worker.Starter (Host Unit)
  /-- The text that makes the id of a build unique. -/
  suffix : Nat → String

/-- A command: it prints, changes the host and may end with a complaint. -/
abbrev CommandM := ExceptT Complaint (StateM (Terminal × Host Unit))

/-- The commands of text styles. -/
inductive Style where
  | dim
  | red
  | green
  | yellow
  deriving DecidableEq, Repr

/-- The number of a style in a command to a terminal. -/
def Style.code : Style → String
  | dim => "2"
  | red => "31"
  | green => "32"
  | yellow => "33"

/-- A text in a style. -/
def styled (style : Style) (text : String) : String :=
  "\x1b[" ++ style.code ++ "m" ++ text ++ "\x1b[0m"

namespace CommandM

/-- Print a line. -/
def say (line : String) : CommandM Unit :=
  modify fun (terminal, host) => ({ terminal with out := terminal.out ++ line ++ "\n" }, host)

/-- Print a line of errors. -/
def sayError (line : String) : CommandM Unit :=
  modify fun (terminal, host) => ({ terminal with err := terminal.err ++ line ++ "\n" }, host)

/-- The host. -/
def host : CommandM (Host Unit) := return (← get).2

/-- Change the host, and say why that is not possible. -/
def onHost {α : Type} (action : HostM Unit α) : CommandM α := do
  let (terminal, host) ← get
  let (result, after) := action.run host
  set (terminal, after)
  match result with
  | .ok value => return value
  | .error failure => throw (.failed failure)

/-- Change the files, and say why a file cannot be used. -/
def onFiles {α : Type} (action : FileM α) : CommandM α := do
  let (terminal, host) ← get
  let (result, files) := action.run host.files
  set (terminal, { host with files })
  match result with
  | .ok value => return value
  | .error cause => throw (.file cause)

end CommandM

end PageBuild.CommandLine
