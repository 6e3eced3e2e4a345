import PageBuild.Shell.Builtin

/-!
# The shell as a runner

A script runs line by line in a directory, with its output and its errors in one file, up to a
line with a misplaced token. The commands of a pipe and of a group run in shells of their own:
what they set is forgotten, and when they exit the script goes on. Scripts that stand in a script
as text are run by the same means, up to a depth. A limit of time is checked for every tenth of a
second.
-/
namespace PageBuild.Shell

/-- Note how a command ended. -/
def ended (status : UInt8) : ShellM UInt8 := do
  modify fun machine => { machine with status }
  return status

/-- Whether a name leads to a file instead of a command of the search path. -/
def isPathName (name : String) : Bool := name.toList.contains '/'

/-- Say that a name is no command, and how it ends. -/
def notFound (streams : Streams) (before name : String) : ShellM UInt8 := do
  if isPathName name ∧ (← get).files.pathExists ⟨name⟩ then
    report streams (before ++ name ++ ": Permission denied")
    return 126
  else
    report streams (before ++ name ++ ": not found")
    return 127

/-- Run the text of a file in the shell. -/
def source (nested : Nested) (streams : Streams) (path : String) : ShellM UInt8 := do
  match (← get).files.readFile ⟨path⟩, isPathName path with
  | .ok content, true => nested ((String.fromUTF8? content).getD "") streams
  | .error _, true =>
    report streams (".: cannot open " ++ path ++ ": No such file")
    throw (.exited 2)
  | _, false =>
    report streams (".: " ++ path ++ ": not found")
    throw (.exited 2)

/-- Run a command by its name; `exec` runs one in place of the shell. -/
def call (nested : Nested) (words : List String) (streams : Streams) : ShellM UInt8 := do
  match words with
  | [] => return 0
  | ["exec"] => return 0
  | "eval" :: texts => nested (" ".intercalate texts) streams
  | "." :: path :: _ => source nested streams path
  | "sh" :: "-c" :: text :: names =>
    inOwnProcess (names.headD "sh") streams (nested text streams)
  | "exec" :: "sh" :: "-c" :: text :: _ => throw (.exited (← nested text streams))
  | "sh" :: path :: _ =>
    match (← get).files.readFile ⟨path⟩ with
    | .ok content =>
      inOwnProcess path streams (nested ((String.fromUTF8? content).getD "") streams)
    | .error _ =>
      emit streams.errors ("sh: 0: cannot open " ++ path ++ ": No such file\n").toUTF8
      return 2
  | "exec" :: name :: args =>
    match utilities.lookup name with
    | some utility => throw (.exited (← utility args streams))
    | none => throw (.exited (← notFound streams "exec: " name))
  | name :: args =>
    match utilities.lookup name with
    | some utility => utility args streams
    | none => notFound streams "" name

/-- Do what is pending. -/
def settle (nested : Nested) (streams : Streams) : ShellM Unit := do
  let pending := (← get).pending
  modify fun machine => { machine with pending := [] }
  pending.forM fun action => do let _ ← nested action streams

/-- Whether what a script writes is put into a word. -/
def hasOutput (word : Word) : Bool :=
  word.any fun part =>
    match part with
    | .output _ _ => true
    | _ => false

/-- Run a simple command. The variables that are set before it are forgotten after it; without
words they stay, and its status is that of the last script whose output was put in. -/
def runSimple (nested : Nested) (command : SimpleCommand) (streams : Streams) : ShellM UInt8 := do
  let words ← allFields nested streams command.words
  match ← redirected nested streams command.redirects with
  | .error message =>
    report streams message
    if words.head?.any vitalNames.contains then throw (.exited 2) else ended 2
  | .ok inner =>
    let machine ← get
    command.assignments.forM fun (name, value) => do
      setVariable name (← textOf nested streams value)
    if words.isEmpty then
      let isPutIn := (command.words ++ command.assignments.map (·.2)).any hasOutput
      let last := (← get).status
      ended (if isPutIn then last else 0)
    else
      let status ← call nested words inner
      if !command.assignments.isEmpty then
        modify fun after => { after with bindings := machine.bindings }
      settle nested streams
      ended status

/-- Run something in the background: it takes up none of the time of the shell. -/
def inBackground (action : ShellM UInt8) : ShellM UInt8 := do
  let machine ← get
  let (_, after) := action.run machine
  set { machine with
    files := { after.files with here := machine.files.here }
    jobsEnd := max machine.jobsEnd after.time, piped := after.piped }
  ended 0

/-- End a strict shell with a command that failed where nothing looks at its status. -/
def checked (isLooked : Bool) (action : ShellM UInt8) : ShellM UInt8 := do
  let status ← action
  if (← get).isStrict ∧ !isLooked ∧ status ≠ 0 then throw (.exited status)
  return status

/-- Do something with the streams after redirections, or say why they are not possible. -/
def withRedirects (nested : Nested) (streams : Streams) (redirects : List Redirect)
    (action : Streams → ShellM UInt8) : ShellM UInt8 := do
  match ← redirected nested streams redirects with
  | .error message =>
    report streams message
    ended 2
  | .ok inner => action inner

/-- How often a loop goes round before it counts as one that never ends. -/
def maxRounds : Nat := 100000

/-- Go round a loop while its condition holds. A loop that never ends takes up all the time there
is. -/
def rounds (goesOn : ShellM Bool) (body : ShellM UInt8) : Nat → UInt8 → ShellM UInt8
  | 0, _ => throw .outOfTime
  | fuel + 1, status => do
    if ← goesOn then rounds goesOn body fuel (← body) else ended status

/-- Run a script. Whether its status is looked at by what it is part of is known. -/
def run (nested : Nested) (streams : Streams) (isLooked : Bool) : Script → ShellM UInt8
  | .nothing => return (← get).status
  | .simple command line => checked isLooked do
    modify fun machine => { machine with line }
    runSimple nested command streams
  | .pipe first second => checked isLooked do
    let input ← writtenBy (run nested { streams with output := .pipe } isLooked first)
    inOwnShell (run nested { streams with input } isLooked second)
  | .both first second => do
    let status ← run nested streams true first
    if status = 0 then run nested streams isLooked second else return status
  | .either first second => do
    let status ← run nested streams true first
    if status = 0 then return status else run nested streams isLooked second
  | .sequence first second => do
    let _ ← run nested streams isLooked first
    run nested streams isLooked second
  | .background job => inBackground (run nested { streams with input := .empty } isLooked job)
  | .negated script => do
    let status ← run nested streams true script
    ended (if status = 0 then 1 else 0)
  | .group body redirects =>
    checked isLooked
      (withRedirects nested streams redirects fun inner =>
        inOwnShell (run nested inner isLooked body))
  | .block body redirects =>
    withRedirects nested streams redirects fun inner => run nested inner isLooked body
  | .branch condition success failure => do
    let status ← run nested streams true condition
    if status = 0 then run nested streams isLooked success
    else run nested streams isLooked failure
  | .each name words body => do
    let fields ← allFields nested streams words
    fields.foldlM
      (fun _ value => do
        setVariable name value
        run nested streams isLooked body)
      0
  | .choice word patterns first second => do
    let text := (← textOf nested streams word).toList
    let isMatch ← patterns.anyM fun pattern => do
      return globMatches (markedText (← filled nested streams pattern)) text
    if isMatch then run nested streams isLooked first else run nested streams isLooked second
  | .loop untilSuccess condition body =>
    rounds
      (do return ((← run nested streams true condition) = 0) != untilSuccess)
      (run nested streams isLooked body) maxRounds 0

/-- Run the lines of a script, up to the first misplaced token. -/
def runLines (nested : Nested) (streams : Streams) (lines : List Script)
    (fault : Option Misplaced) : ShellM UInt8 := do
  let status ← lines.foldlM (fun _ script => run nested streams false script) 0
  match fault with
  | none => return status
  | some fault =>
    modify fun machine => { machine with line := fault.lexeme.line }
    report streams fault.message
    throw (.exited 2)

/-- Run the text of a script, in which others are nested up to a depth. -/
def runText : Nat → Nested
  | 0 => fun _ streams => do
    report streams "Maximum function recursion depth (1000) reached"
    throw (.exited 2)
  | depth + 1 => fun text streams =>
    runLines (runText depth) streams (Script.ofText text).1 (Script.ofText text).2

/-- How deep scripts nest. -/
def maxNesting : Nat := 1000

/-- Run the text of a script and then what is to be done at its end. -/
def runWhole (text : String) (streams : Streams) : ShellM UInt8 := do
  let status ← tryCatch (runText maxNesting text streams) fun halt =>
    match halt with
    | .exited status => return status
    | halt => throw halt
  match (← get).traps.lookup 0 with
  | some action =>
    let _ ← runText maxNesting action streams
    return status
  | none => return status

/-- The first tenth of a second at or after a limit. -/
def lastCheck (limit : Duration) : Nat :=
  let milliseconds := limit.seconds.toNat * 1000 + (limit.nanoseconds + 999999) / 1000000
  (milliseconds + 99) / 100 * 100

/-- How a shell ended. -/
def ending : Except Halt UInt8 → CommandEnd
  | .ok status => .exited status
  | .error (.exited status) => .exited status
  | .error (.signalled signal) => .signalled signal
  | .error .outOfTime => .timedOut

/-- The shell as what runs commands, with the variables of its surroundings and the process
group it is given. -/
def runner (exported : List (String × String)) (group : UInt32) : Runner := fun request files =>
  if request.command.toList.contains '\x00' then
    (.notStarted (.other "nul byte found in provided data"), files)
  else
    match files.stat request.directory, files.locate request.directory with
    | .error cause, _ => (.notStarted cause, files)
    | _, .error cause => (.notStarted cause, files)
    | .ok (.file _), _ => (.notStarted .notDirectory, files)
    | .ok .directory, .ok (here, _) =>
      let machine : Machine :=
        { files := { files with here }
          bindings := ("APP_ENV", request.environment.name) :: exported
          name := "sh", process := group.toNat, status := 0, time := 0
          deadline := request.limit.map lastCheck
          jobsEnd := 0, piped := .empty
          isStrict := false, traps := [], pending := [], line := 1 }
      let streams : Streams := ⟨.empty, .file request.output, .file request.output⟩
      let (result, after) := (runWhole request.command streams).run machine
      (.started group (ending result) after.time, { after.files with here := files.here })

end PageBuild.Shell
