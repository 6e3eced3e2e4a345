import PageBuild.Shell.Filter
import PageBuild.Text.Basic

/-!
# Built-in commands

The commands of the shell itself: what they change is the shell, or nothing but its output. The
table of all commands by their names is here.
-/
namespace PageBuild.Shell

/-- The byte that a letter after a backslash stands for. -/
def escapeOf? (c : Char) : Option UInt8 :=
  match c with
  | 'n' => some 10
  | 't' => some 9
  | 'r' => some 13
  | 'a' => some 7
  | 'b' => some 8
  | 'f' => some 12
  | 'v' => some 11
  | '\\' => some 92
  | _ => none

/-- The byte of up to three octal digits, and the rest. -/
def octal (source : List Char) : UInt8 × List Char :=
  let isOctal (c : Char) : Bool := '0' ≤ c && c ≤ '7'
  let digits := (source.take 3).takeWhile isOctal
  ((digits.foldl (fun value c => value * 8 + (c.toNat - '0'.toNat)) 0).toUInt8,
    source.drop digits.length)

/-- The bytes of a character. -/
def bytesOfChar (c : Char) : ByteArray := (String.singleton c).toUTF8

/-- The bytes of what a backslash stands before, and the rest: in the arguments of `echo` a zero
begins octal digits, and in a format any octal digit does. -/
def escaped (inFormat : Bool) (source : List Char) : ByteArray × List Char :=
  match source with
  | [] => (bytesOfChar '\\', [])
  | c :: rest =>
    match escapeOf? c with
    | some byte => (⟨#[byte]⟩, rest)
    | none =>
      if inFormat ∧ '0' ≤ c ∧ c ≤ '7' then
        let (byte, rest) := octal source
        (⟨#[byte]⟩, rest)
      else if c = '0' then
        let (byte, rest) := octal rest
        (⟨#[byte]⟩, rest)
      else (bytesOfChar '\\' ++ bytesOfChar c, rest)

/-- The bytes of a text with its escapes replaced, and whether nothing has ended it early. -/
def unescaped : Nat → List Char → ByteArray × Bool
  | 0, _ => (.empty, true)
  | _ + 1, [] => (.empty, true)
  | _ + 1, '\\' :: 'c' :: _ => (.empty, false)
  | fuel + 1, '\\' :: rest =>
    let (bytes, rest) := escaped false rest
    let (others, goesOn) := unescaped fuel rest
    (bytes ++ others, goesOn)
  | fuel + 1, c :: rest =>
    let (others, goesOn) := unescaped fuel rest
    (bytesOfChar c ++ others, goesOn)

/-- Writes its arguments with spaces between them. -/
def echo : Utility := fun args streams => do
  let (args, ending) :=
    match args with
    | "-n" :: rest => (rest, "")
    | _ => (args, "\n")
  let text := (" ".intercalate args).toList
  let (bytes, goesOn) := unescaped (text.length + 1) text
  emit streams.output (if goesOn then bytes ++ ending.toUTF8 else bytes)
  return 0

/-- A text filled up to a width on its left, or on its right. -/
def padded (onRight : Bool) (fill : Char) (width : Nat) (text : String) : String :=
  let gap := String.ofList (List.replicate (width - text.length) fill)
  if onRight then text ++ gap else gap ++ text

/-- A directive of a format after its percent sign: the padding of a value, what kind of value it
is, and the rest. -/
def directive (source : List Char) : (String → String) × Char × List Char :=
  let flags := source.takeWhile fun c => c = '-' ∨ c = '0'
  let rest := source.drop flags.length
  let width := (Text.digitsValue? (rest.takeWhile Char.isDigit)).getD 0
  let fill := if flags.contains '0' ∧ !flags.contains '-' then '0' else ' '
  match rest.dropWhile Char.isDigit with
  | kind :: rest => (padded (flags.contains '-') fill width, kind, rest)
  | [] => (id, '%', [])

/-- The bytes of a format with its directives replaced by arguments, and the arguments that are
left. -/
def formatted : Nat → List Char → List String → ByteArray × List String
  | 0, _, args => (.empty, args)
  | _ + 1, [], args => (.empty, args)
  | fuel + 1, c :: rest, args =>
    if c = '\\' then
      let (bytes, rest) := escaped true rest
      let (others, args) := formatted fuel rest args
      (bytes ++ others, args)
    else if c = '%' then
      let (pad, kind, rest) := directive rest
      if kind = '%' then
        let (others, args) := formatted fuel rest args
        (bytesOfChar '%' ++ others, args)
      else
        let value := args.headD (if kind = 'd' then "0" else "")
        let bytes :=
          if kind = 'b' then (unescaped (value.length + 1) value.toList).1 else (pad value).toUTF8
        let (others, args) := formatted fuel rest args.tail
        (bytes ++ others, args)
    else
      let (others, args) := formatted fuel rest args
      (bytesOfChar c ++ others, args)

/-- A format applied until no argument is left. -/
def formatAll (format : List Char) : Nat → List String → ByteArray
  | 0, _ => .empty
  | fuel + 1, args =>
    let (bytes, left) := formatted (format.length + 1) format args
    if left.isEmpty ∨ args.length ≤ left.length then bytes
    else bytes ++ formatAll format fuel left

/-- Writes its arguments in a format. -/
def printf : Utility := fun args streams => do
  match args with
  | [] =>
    report streams "printf: usage: printf format [arg ...]"
    return 2
  | format :: args =>
    emit streams.output (formatAll format.toList (args.length + 1) args)
    return 0

/-- Changes the current directory. -/
def cd : Utility := fun args streams => do
  let path := args.headD "/"
  let files := (← get).files
  match files.isDirectory ⟨path⟩, files.locate ⟨path⟩ with
  | true, .ok (here, _) =>
    modify fun machine => { machine with files := { machine.files with here } }
    return 0
  | _, _ =>
    report streams ("cd: can't cd to " ++ path)
    return 2

/-- Writes the current directory. -/
def pwd : Utility := fun _ streams => do
  say streams ("/" ++ "/".intercalate (← get).files.here ++ "\n")
  return 0

/-- The milliseconds of a time with a fraction and a unit. -/
def durationOf? (text : String) : Option Nat :=
  let whole := text.toList.takeWhile Char.isDigit
  let rest := text.toList.dropWhile Char.isDigit
  let (fraction, unit) :=
    match rest with
    | '.' :: rest => (rest.takeWhile Char.isDigit, rest.dropWhile Char.isDigit)
    | _ => ([], rest)
  let thousandths := (fraction ++ ['0', '0', '0']).take 3
  match Text.digitsValue? (whole ++ thousandths) with
  | none => none
  | some milliseconds =>
    if whole.isEmpty ∧ fraction.isEmpty then none
    else if unit = [] ∨ unit = ['s'] then some milliseconds
    else if unit = ['m'] then some (60 * milliseconds)
    else if unit = ['h'] then some (3600 * milliseconds)
    else none

/-- Lets time pass. -/
def sleep : Utility := fun args streams => do
  match args.mapM durationOf? with
  | none => complain streams "sleep: invalid time interval"
  | some [] => complain streams "sleep: missing operand"
  | some durations =>
    passTo (durations.foldl (· + ·) (← get).time)
    return 0

/-- Lets time pass until the jobs in the background have ended. -/
def wait : Utility := fun _ _ => do
  passTo (← get).jobsEnd
  return 0

/-- The number of a signal, by its number or its name. -/
def signalOf? (text : String) : Option Nat :=
  match text.toNat? with
  | some signal => some signal
  | none =>
    (Bundler.signalNames.find? fun (_, name) => name = text ∨ name = "SIG" ++ text).map (·.1)

/-- The signals that do not end a process. -/
def harmless : List Nat := [0, 17, 18, 23, 28]

/-- What is said of a call of `kill` without targets. -/
def killUsage : String :=
  "kill: Usage: kill [-s sigspec | -signum | -sigspec] [pid | job]... or\nkill -l [exitstatus]"

/-- Sends a signal to the shell itself or its group. -/
def kill : Utility := fun args streams => do
  let (signal, targets) : Option Nat × List String :=
    match args with
    | "-s" :: name :: rest => (signalOf? name, rest)
    | first :: rest =>
      match first.toList with
      | '-' :: name => (signalOf? (String.ofList name), rest)
      | _ => (some 15, args)
    | [] => (some 15, [])
  let own := toString (← get).process
  match signal, targets with
  | none, _ =>
    report streams ("kill: Illegal option " ++ ((args.headD "").take 2).toString)
    return 2
  | some _, [] =>
    report streams killUsage
    return 2
  | some signal, targets =>
    match targets.find? fun target => target.toInt?.isNone with
    | some target =>
      report streams ("kill: Illegal number: " ++ target)
      return 2
    | none =>
      if targets.any fun target => target = own ∨ target = "0" ∨ target = "-" ++ own then
        match (← get).traps.lookup signal with
        | some action =>
          modify fun machine => { machine with pending := machine.pending ++ [action] }
          return 0
        | none => if harmless.contains signal then return 0 else throw (.signalled signal.toUInt8)
      else
        report streams "kill: No such process\n"
        return 1

/-- Ends the shell. -/
def exit_ : Utility := fun args streams => do
  match args with
  | [] => throw (.exited (← get).status)
  | status :: _ =>
    match status.toNat? with
    | some status => throw (.exited status.toUInt8)
    | none =>
      report streams ("exit: Illegal number: " ++ status)
      throw (.exited 2)

/-- Sets variables. -/
def export_ : Utility := fun args _ => do
  args.forM fun arg =>
    match arg.splitOn "=" with
    | name :: value :: rest => setVariable name ("=".intercalate (value :: rest))
    | _ => pure ()
  return 0

/-- Forgets variables. -/
def unset : Utility := fun args _ => do
  modify fun machine =>
    { machine with bindings := machine.bindings.filter fun item => !args.contains item.1 }
  return 0

/-- Makes the shell strict, or not. -/
def set_ : Utility := fun args _ => do
  args.forM fun arg =>
    match arg.toList with
    | '-' :: letters =>
      if letters.contains 'e' then modify fun machine => { machine with isStrict := true }
      else pure ()
    | '+' :: letters =>
      if letters.contains 'e' then modify fun machine => { machine with isStrict := false }
      else pure ()
    | _ => pure ()
  return 0

/-- The signal of a trap, zero for the end of the script. The one that always ends a process has
none. -/
def trapped? (name : String) : Option Nat :=
  if name = "EXIT" then some 0 else (signalOf? name).filter (· ≠ 9)

/-- Says what is done on signals, or gives them back their effect. -/
def trap : Utility := fun args _ => do
  match args with
  | action :: names =>
    let signals := names.filterMap trapped?
    let added := if action = "-" then [] else signals.map (·, action)
    modify fun machine =>
      { machine with
        traps := machine.traps.filter (fun trap => !signals.contains trap.1) ++ added }
    return 0
  | [] => return 0

/-- Writes the variables, or one of them. -/
def printenv : Utility := fun args streams => do
  let bindings := (← get).bindings
  match args with
  | [] =>
    say streams (String.join (bindings.map fun (name, value) => name ++ "=" ++ value ++ "\n"))
    return 0
  | name :: _ =>
    match bindings.lookup name with
    | some value =>
      say streams (value ++ "\n")
      return 0
    | none => return 1

/-- The lines of the natural numbers between two. -/
def numberLines (first last : Nat) : String :=
  String.join ((List.range (last + 1 - first)).map fun n => toString (first + n) ++ "\n")

/-- Writes the natural numbers between two, or up to one. -/
def seq : Utility := fun args streams => do
  match args.mapM String.toNat? with
  | some [last] =>
    say streams (numberLines 1 last)
    return 0
  | some [first, last] =>
    say streams (numberLines first last)
    return 0
  | _ => complain streams "seq: missing operand"

/-- The commands by their names. -/
def utilities : List (String × Utility) :=
  [("true", fun _ _ => return 0), (":", fun _ _ => return 0), ("false", fun _ _ => return 1),
    ("echo", echo), ("printf", printf), ("cat", cat), ("mkdir", mkdir), ("cp", cp), ("rm", rm),
    ("mv", mv), ("touch", touch), ("cd", cd), ("pwd", pwd), ("test", test), ("[", bracketed),
    ("sed", sed), ("head", head), ("tail", tail), ("wc", wc), ("grep", grep), ("tee", tee),
    ("sort", sort), ("tr", tr),
    ("sleep", sleep), ("wait", wait), ("kill", kill), ("exit", exit_), ("return", exit_),
    ("export", export_), ("unset", unset), ("set", set_), ("trap", trap), ("ls", ls),
    ("rmdir", rmdir), ("basename", basename), ("dirname", dirname), ("printenv", printenv),
    ("env", printenv), ("seq", seq), ("umask", fun _ _ => return 0)]

/-- The commands whose redirections must not fail, or else the shell ends. -/
def vitalNames : List String :=
  [":", ".", "eval", "exec", "exit", "export", "return", "set", "trap", "unset"]

end PageBuild.Shell
