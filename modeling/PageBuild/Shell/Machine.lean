import PageBuild.Build.Bundler
import PageBuild.Shell.Script

/-!
# Running scripts

A script changes the files step by step. It has a time of its own, which only waiting takes up:
when it runs past a deadline it is stopped there and then. Streams lead to files, to nowhere, or
into the pipe to the next command.
-/
namespace PageBuild.Shell

/-- A running shell. -/
structure Machine where
  files : Files
  bindings : List (String × String)
  /-- The name of the shell in messages. -/
  name : String
  /-- The process of the shell, which leads its group. -/
  process : Nat
  /-- How the last command ended. -/
  status : UInt8
  /-- The milliseconds since the start. -/
  time : Nat
  /-- The time up to which the shell may run. -/
  deadline : Option Nat
  /-- The time at which the last job in the background ends. -/
  jobsEnd : Nat
  /-- What was written into the current pipe. -/
  piped : ByteArray
  /-- Whether a command that fails ends the shell. -/
  isStrict : Bool
  /-- What is done on a signal instead of ending; zero stands for the end of the script. -/
  traps : List (Nat × String)
  /-- What is to be done before the next command. -/
  pending : List String
  /-- The line of the command that runs. -/
  line : Nat

/-- Why a shell ends before its script. -/
inductive Halt where
  | exited (status : UInt8)
  | signalled (signal : UInt8)
  | outOfTime
  deriving DecidableEq, Repr

/-- A step of a shell. -/
abbrev ShellM := ExceptT Halt (StateM Machine)

/-- Where a stream leads. -/
inductive Sink where
  | file (location : Location)
  | nowhere
  | pipe
  deriving DecidableEq, Repr

/-- The streams of a command. -/
structure Streams where
  input : ByteArray
  output : Sink
  errors : Sink

/-- The file that takes everything and holds nothing. -/
def nowherePath : String := "/dev/null"

/-- Write bytes to where a stream leads. -/
def emit (sink : Sink) (content : ByteArray) : ShellM Unit :=
  modify fun machine =>
    match sink with
    | .file location => { machine with files := machine.files.append location content }
    | .nowhere => machine
    | .pipe => { machine with piped := machine.piped ++ content }

/-- Write text to the output. -/
def say (streams : Streams) (text : String) : ShellM Unit := emit streams.output text.toUTF8

/-- Say in the name of the shell what went wrong with the command that runs. -/
def report (streams : Streams) (text : String) : ShellM Unit := do
  let machine ← get
  emit streams.errors
    (machine.name ++ ": " ++ toString machine.line ++ ": " ++ text ++ "\n").toUTF8

/-- Say what went wrong, and fail. -/
def complain (streams : Streams) (text : String) : ShellM UInt8 := do
  emit streams.errors (text ++ "\n").toUTF8
  return 1

/-- A change of the files, or its cause of failure. -/
def try_ {α : Type} (action : FileM α) : ShellM (Except IoCause α) := do
  let (result, files) := action.run (← get).files
  modify fun machine => { machine with files }
  return result

/-- The words of a cause without the number of the error. -/
def reason (cause : IoCause) : String :=
  match cause.message.splitOn " (os error" with
  | first :: _ => first
  | [] => ""

/-- The words for why a file of a redirection cannot be used; a missing one is told as the shell
does. -/
def openReason (missing : String) : IoCause → String
  | .noEntry | .notDirectory => missing
  | cause => reason cause

/-- Let time pass. -/
def passTo (time : Nat) : ShellM Unit := do
  modify fun machine => { machine with time := max machine.time time }
  let machine ← get
  match machine.deadline with
  | some deadline => if deadline < machine.time then throw .outOfTime
  | none => return ()

/-- Runs the text of another script within a shell. -/
abbrev Nested := String → Streams → ShellM UInt8

/-- Run something in a shell of its own: what it sets is forgotten, and when it exits the shell
goes on. -/
def inOwnShell (action : ShellM UInt8) : ShellM UInt8 := do
  let machine ← get
  let (result, after) := action.run machine
  let restored : Machine :=
    { machine with
      files := { after.files with here := machine.files.here }
      time := after.time, jobsEnd := after.jobsEnd, piped := after.piped }
  match result with
  | .ok status | .error (.exited status) =>
    set { restored with status }
    return status
  | .error halt =>
    set restored
    throw halt

/-- The words for a signal that ends a process; of some, nothing is said. -/
def signalWords : List (Nat × String) :=
  [(1, "Hangup"), (3, "Quit"), (6, "Aborted"), (8, "Floating point exception"), (9, "Killed"),
    (10, "User defined signal 1"), (11, "Segmentation fault"), (12, "User defined signal 2"),
    (14, "Alarm clock"), (15, "Terminated")]

/-- Run something in a shell process of its own: a signal that ends it leaves this one running. -/
def inOwnProcess (name : String) (streams : Streams) (action : ShellM UInt8) : ShellM UInt8 := do
  let machine ← get
  let inner : Machine :=
    { machine with
      name, process := machine.process + 1, isStrict := false, traps := [], line := 1 }
  let (result, after) := (inOwnShell action).run inner
  set { machine with
    files := after.files, time := after.time, jobsEnd := after.jobsEnd, piped := after.piped }
  match result with
  | .ok status | .error (.exited status) => return status
  | .error (.signalled signal) =>
    emit streams.errors ((signalWords.lookup signal.toNat).elim "" (· ++ "\n")).toUTF8
    return 128 + signal
  | .error .outOfTime => throw .outOfTime

/-- What something writes, which it does in a shell of its own. -/
def writtenBy (action : ShellM UInt8) : ShellM ByteArray := do
  let outer := (← get).piped
  modify fun machine => { machine with piped := .empty }
  let _ ← inOwnShell action
  let written := (← get).piped
  modify fun machine => { machine with piped := outer }
  return written

/-- The value of a variable. -/
def valueOf (machine : Machine) (name : String) : String :=
  if name = "$" then toString machine.process
  else if name = "?" then toString machine.status.toNat
  else if name = "#" then "0"
  else if name = "0" then machine.name
  else (machine.bindings.lookup name).getD ""

/-- A part of a word: text of its own, or a value that was put in. -/
structure Filling where
  content : String
  quoted : Bool
  isValue : Bool

/-- A text without the ends of lines at its end. -/
def withoutLineEnds (text : String) : String :=
  String.ofList (text.toList.reverse.dropWhile (· = '\n')).reverse

/-- The parts of a word with their values put in. -/
def filled (nested : Nested) (streams : Streams) (word : Word) : ShellM (List Filling) :=
  word.mapM fun part => do
    match part with
    | .text content quoted => return ⟨content, quoted, false⟩
    | .variable name instead quoted =>
      let value := valueOf (← get) name
      return ⟨if value = "" then instead else value, quoted, true⟩
    | .output script quoted =>
      let written ← writtenBy (nested script { streams with output := .pipe })
      return ⟨withoutLineEnds ((String.fromUTF8? written).getD ""), quoted, true⟩

/-- A word as one text. -/
def textOf (nested : Nested) (streams : Streams) (word : Word) : ShellM String := do
  return String.join ((← filled nested streams word).map (·.content))

/-- A text with the characters that are quoted marked. -/
abbrev Marked := List (Char × Bool)

/-- A marked text without its marks. -/
def plainText (marked : Marked) : String := String.ofList (marked.map (·.1))

/-- The text of a word with its quoted characters marked. -/
def markedText (fillings : List Filling) : Marked :=
  fillings.flatMap fun part => part.content.toList.map fun c => (c, part.quoted)

/-- The fields of a word before file names are put in: the white space of values outside quotes
divides them, and a word of nothing outside quotes has none. -/
def markedFields (fillings : List Filling) : List Marked :=
  let addText (fields : List Marked × Option Marked) (text : String) (quoted : Bool) :=
    (fields.1, some (fields.2.getD [] ++ text.toList.map fun c => (c, quoted)))
  let divide (fields : List Marked × Option Marked) : List Marked × Option Marked :=
    (fields.1 ++ fields.2.toList, none)
  let (whole, last) := fillings.foldl
    (fun fields part =>
      if part.quoted then addText fields part.content true
      else if part.isValue then
        part.content.toList.foldl
          (fun fields c =>
            if c = ' ' ∨ c = '\t' ∨ c = '\n' then divide fields
            else addText fields (String.singleton c) false)
          fields
      else if part.content = "" then fields
      else addText fields part.content false)
    (([] : List Marked), (none : Option Marked))
  whole ++ last.toList

/-- Whether a marked text stands for file names. -/
def isGlob (marked : Marked) : Bool :=
  marked.any fun (c, quoted) => !quoted && (c == '*' || c == '?')

/-- Whether a name is one of those that a marked text stands for. -/
def globMatches : Marked → List Char → Bool
  | [], name => name.isEmpty
  | ('*', false) :: pattern, name =>
    (List.range (name.length + 1)).any fun skipped => globMatches pattern (name.drop skipped)
  | ('?', false) :: pattern, _ :: name => globMatches pattern name
  | (c, _) :: pattern, d :: name => c == d && globMatches pattern name
  | _ :: _, [] => false

/-- The names in a directory that a marked text stands for; those that begin with a dot only when
it does. -/
def namesOf (files : Files) (directory : String) (marked : Marked) : List String :=
  if isGlob marked then
    (files.children ⟨directory⟩).filter fun name =>
      globMatches marked name.toList &&
        (name.toList.head? != some '.' || (marked.head?.map (·.1)) == some '.')
  else [plainText marked]

/-- The paths that marked pieces stand for, after the path of those before them. -/
def pathsOf (files : Files) : Option String → List Marked → List String
  | before, [] => before.toList.filter fun path => files.pathExists ⟨path⟩
  | before, piece :: pieces =>
    let directory := before.elim "." fun path => if path = "" then "/" else path
    (namesOf files directory piece).flatMap fun name =>
      pathsOf files (some (before.elim name fun path => path ++ "/" ++ name)) pieces

/-- The pieces of a marked text between slashes. -/
def piecesOf : Marked → List Marked
  | [] => [[]]
  | (c, quoted) :: rest =>
    if c = '/' then [] :: piecesOf rest
    else
      match piecesOf rest with
      | piece :: pieces => ((c, quoted) :: piece) :: pieces
      | [] => [[(c, quoted)]]

/-- The fields of a word. One that stands for file names is replaced by them, if there are any. -/
def fieldsOf (nested : Nested) (streams : Streams) (word : Word) : ShellM (List String) := do
  let fillings ← filled nested streams word
  let files := (← get).files
  return (markedFields fillings).flatMap fun marked =>
    if isGlob marked then
      match pathsOf files none (piecesOf marked) with
      | [] => [plainText marked]
      | paths => paths
    else [plainText marked]

/-- The fields of words. -/
def allFields (nested : Nested) (streams : Streams) (words : List Word) : ShellM (List String) := do
  return (← words.mapM (fieldsOf nested streams)).flatten

/-- Set a variable. -/
def setVariable (name value : String) : ShellM Unit :=
  modify fun machine =>
    { machine with
      bindings := (name, value) :: machine.bindings.filter fun item => item.1 ≠ name }

/-- The sink of a file that a redirection names. -/
def openSink (target : String) (keep : Bool) : ShellM (Except IoCause Sink) := do
  if target = nowherePath then return .ok .nowhere
  let files := (← get).files
  if keep ∧ files.isFile ⟨target⟩ then
    return (files.locate ⟨target⟩).map fun (location, _) => .file location
  match ← try_ (FileM.change (·.writeFile ⟨target⟩ .empty)) with
  | .error cause => return .error cause
  | .ok () => return ((← get).files.locate ⟨target⟩).map fun (location, _) => .file location

/-- The streams with one of them changed. -/
def Streams.set (streams : Streams) (stream : Nat) (sink : Sink) : Streams :=
  if stream = 1 then { streams with output := sink }
  else if stream = 2 then { streams with errors := sink }
  else streams

/-- Where a stream leads. -/
def Streams.sink (streams : Streams) (stream : Nat) : Sink :=
  if stream = 2 then streams.errors else streams.output

/-- The words for a file of a redirection that cannot be made. -/
def createFault (path : String) (cause : IoCause) : String :=
  "cannot create " ++ path ++ ": " ++ openReason "Directory nonexistent" cause

/-- The words for a file of a redirection that cannot be read. -/
def openFault (path : String) (cause : IoCause) : String :=
  "cannot open " ++ path ++ ": " ++ openReason "No such file" cause

/-- The streams after redirections, or why one of them fails. -/
def redirected (nested : Nested) (streams : Streams) :
    List Redirect → ShellM (Except String Streams)
  | [] => return .ok streams
  | .same stream other :: rest =>
    redirected nested (streams.set stream (streams.sink other)) rest
  | .read source :: rest => do
    let path ← textOf nested streams source
    if path = nowherePath then redirected nested { streams with input := .empty } rest
    else
      match (← get).files.readFile ⟨path⟩ with
      | .ok input => redirected nested { streams with input } rest
      | .error cause => return .error (openFault path cause)
  | .write stream target :: rest => do
    let path ← textOf nested streams target
    match ← openSink path false with
    | .ok sink => redirected nested (streams.set stream sink) rest
    | .error cause => return .error (createFault path cause)
  | .append stream target :: rest => do
    let path ← textOf nested streams target
    match ← openSink path true with
    | .ok sink => redirected nested (streams.set stream sink) rest
    | .error cause => return .error (createFault path cause)

end PageBuild.Shell
