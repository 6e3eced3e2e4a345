import PageBuild.Shell.Machine

/-!
# Utilities

The commands that scripts can call on. Each takes its arguments and its streams, changes the
shell or its files, and gives the status it ends with. Those that make, copy, move and remove
files, and those that tell of them, stand here.
-/
namespace PageBuild.Shell

/-- A command that scripts can call on. -/
abbrev Utility := List String → Streams → ShellM UInt8

/-- Whether an argument holds options. -/
def isOption (arg : String) : Bool :=
  match arg.toList with
  | '-' :: _ :: _ => true
  | _ => false

/-- Whether one of the options of a command is given by a letter. -/
def hasOption (args : List String) (letter : Char) : Bool :=
  (args.filter isOption).any fun arg => arg.toList.contains letter

/-- The arguments that are no options. -/
def operands (args : List String) : List String := args.filter fun arg => !isOption arg

/-- The status of a command with several operands: failure when one fails. -/
def overall {α : Type} (items : List α) (action : α → ShellM UInt8) : ShellM UInt8 :=
  items.foldlM (fun status item => do return max status (← action item)) 0

/-- The bytes of a file, or of the input. -/
def contentOf (streams : Streams) (path : String) : ShellM (Except IoCause ByteArray) := do
  if path = "-" then return .ok streams.input
  if path = nowherePath then return .ok .empty
  return (← get).files.readFile ⟨path⟩

/-- Writes files one after the other. -/
def cat : Utility := fun args streams => do
  let paths := if (operands args).isEmpty then ["-"] else operands args
  overall paths fun path => do
    match ← contentOf streams path with
    | .ok content =>
      emit streams.output content
      return 0
    | .error cause => complain streams ("cat: " ++ path ++ ": " ++ reason cause)

/-- The path that keeps a directory from being made: the file that it is to be in, when the
directories on the way are made too. -/
def blockedAt (files : Files) (path : String) (deep : Bool) : String :=
  let names := path.splitOn "/"
  let way := (List.range names.length).map fun count => "/".intercalate (names.take count)
  if deep then (way.find? fun path => files.isFile ⟨path⟩).getD path else path

/-- Makes directories. -/
def mkdir : Utility := fun args streams =>
  overall (operands args) fun path => do
    let action : FileM Unit :=
      if hasOption args 'p' then FileM.ensureDirectory ⟨path⟩
      else FileM.change (·.makeDirectory ⟨path⟩)
    match ← try_ action with
    | .ok () => return 0
    | .error cause =>
      let blocked := blockedAt (← get).files path (hasOption args 'p')
      complain streams ("mkdir: cannot create directory '" ++ blocked ++ "': " ++ reason cause)

/-- Copies what was found on a walk to below a path. -/
def copyWalked (target : Path) (walked : List Files.Walked) : FileM Unit :=
  walked.forM fun item => do
    let place := item.names.foldl (fun path name => path.join ⟨name⟩) target
    match item.entry with
    | .directory => FileM.ensureDirectory place
    | .file content => FileM.change (·.writeFile place content)

/-- Where an operand is copied to. -/
def copyTarget (files : Files) (source target : String) : Path :=
  if files.isDirectory ⟨target⟩ then
    match Path.fileName? ⟨source⟩ with
    | some name => Path.join ⟨target⟩ ⟨name⟩
    | none => ⟨target⟩
  else ⟨target⟩

/-- Copies one operand. -/
def copyOne (utility : String) (streams : Streams) (deep : Bool) (source target : String) :
    ShellM UInt8 := do
  let files := (← get).files
  match files.stat ⟨source⟩ with
  | .error cause =>
    complain streams (utility ++ ": cannot stat '" ++ source ++ "': " ++ reason cause)
  | .ok .directory =>
    if !deep then
      complain streams ("cp: -r not specified; omitting directory '" ++ source ++ "'")
    else if target = nowherePath ∨ files.isFile ⟨target⟩ then
      complain streams
        ("cp: cannot overwrite non-directory '" ++ target ++ "' with directory '" ++ source ++ "'")
    else
      let place := copyTarget files source target
      match files.walk ⟨source⟩, files.locate place with
      | .ok walked, .ok (location, _) =>
        let start := (files.locate ⟨source⟩).toOption.map (·.1)
        let kept := walked.filter fun item =>
          match start with
          | some start => !location.isPrefixOf (start ++ item.names) || location = start
          | none => true
        match ← try_ (copyWalked place kept) with
        | .ok () => return 0
        | .error cause => complain streams (utility ++ ": '" ++ target ++ "': " ++ reason cause)
      | _, _ =>
        complain streams
          ("cp: cannot create directory '" ++ target ++ "': No such file or directory")
  | .ok (.file content) =>
    if target = nowherePath then return 0
    match ← try_ (FileM.change (·.writeFile (copyTarget files source target) content)) with
    | .ok () => return 0
    | .error cause =>
      complain streams ("cp: cannot create regular file '" ++ target ++ "': " ++ reason cause)

/-- Copies files, and directories when asked to. -/
def cp : Utility := fun args streams => do
  let deep := hasOption args 'r' || hasOption args 'R' || hasOption args 'a'
  match (operands args).reverse with
  | target :: source :: others => do
    if !others.isEmpty ∧ !(← get).files.isDirectory ⟨target⟩ then
      complain streams ("cp: target '" ++ target ++ "' is not a directory")
    else overall (source :: others).reverse fun source => copyOne "cp" streams deep source target
  | _ => complain streams "cp: missing file operand"

/-- Removes files, and directories when asked to. -/
def rm : Utility := fun args streams =>
  overall (operands args) fun path => do
    let files := (← get).files
    let action : FileM Unit :=
      if files.isDirectory ⟨path⟩ ∧ (hasOption args 'r' ∨ hasOption args 'R') then
        FileM.change (·.removeTree ⟨path⟩)
      else FileM.change (·.removeFile ⟨path⟩)
    match ← try_ action with
    | .ok () => return 0
    | .error cause =>
      if cause = .noEntry ∧ hasOption args 'f' then return 0
      else complain streams ("rm: cannot remove '" ++ path ++ "': " ++ reason cause)

/-- Moves files and directories. -/
def mv : Utility := fun args streams => do
  match operands args with
  | [source, target] =>
    let place := copyTarget (← get).files source target
    let status ← copyOne "mv" streams true source target
    if status ≠ 0 ∨ place.text = source then return status
    else rm ["-rf", source] streams
  | _ => complain streams "mv: missing file operand"

/-- Makes files that do not exist. -/
def touch : Utility := fun args streams =>
  overall (operands args) fun path => do
    if (← get).files.pathExists ⟨path⟩ then return 0
    match ← try_ (FileM.change (·.writeFile ⟨path⟩ .empty)) with
    | .ok () => return 0
    | .error cause => complain streams ("touch: cannot touch '" ++ path ++ "': " ++ reason cause)

/-- The comparisons of numbers that conditions can ask for. -/
def comparisons : List (String × (Int → Int → Bool)) :=
  [("-eq", fun a b => a == b), ("-ne", fun a b => a != b), ("-lt", fun a b => decide (a < b)),
    ("-le", fun a b => decide (a ≤ b)), ("-gt", fun a b => decide (b < a)),
    ("-ge", fun a b => decide (b ≤ a))]

/-- Whether a condition holds, when it is one. -/
def condition? (files : Files) : List String → Option Bool
  | [] => some false
  | [text] => some (text ≠ "")
  | ["!", text] => some (text = "")
  | ["-n", text] => some (text ≠ "")
  | ["-z", text] => some (text = "")
  | ["-e", path] => some (files.pathExists ⟨path⟩)
  | ["-f", path] => some (files.isFile ⟨path⟩)
  | ["-d", path] => some (files.isDirectory ⟨path⟩)
  | ["-r", path] => some (files.pathExists ⟨path⟩)
  | ["-s", path] => some ((files.readFile ⟨path⟩).toOption.any fun content => content.size ≠ 0)
  | [first, "=", second] => some (first = second)
  | [first, "!=", second] => some (first ≠ second)
  | [first, operator, second] =>
    match comparisons.lookup operator, first.toInt?, second.toInt? with
    | some compare, some first, some second => some (compare first second)
    | _, _, _ => if first = "!" then (condition? files [operator, second]).map (!·) else none
  | "!" :: rest => (condition? files rest).map (!·)
  | _ => none

/-- Tests a condition. -/
def test : Utility := fun args _ => do
  match condition? (← get).files args with
  | some true => return 0
  | some false => return 1
  | none => return 2

/-- Tests a condition that a bracket closes. -/
def bracketed : Utility := fun args streams => do
  if args.getLast? = some "]" then test args.dropLast streams
  else
    report streams "[: missing ]"
    return 2

/-- Writes the last component of a path. -/
def basename : Utility := fun args streams => do
  match args with
  | [] => complain streams "basename: missing operand"
  | path :: _ =>
    say streams ((Path.fileName? ⟨path⟩).getD path ++ "\n")
    return 0

/-- Writes a path without its last component. -/
def dirname : Utility := fun args streams => do
  match args with
  | [] => complain streams "dirname: missing operand"
  | path :: _ =>
    let parent := ((Path.parent? ⟨path⟩).map Path.text).getD path
    say streams ((if parent = "" then "." else parent) ++ "\n")
    return 0

/-- Writes the names in directories, those that begin with a dot left out. -/
def ls : Utility := fun args streams => do
  let paths := if (operands args).isEmpty then ["."] else operands args
  overall paths fun path => do
    let files := (← get).files
    match files.stat ⟨path⟩ with
    | .error cause =>
      let _ ← complain streams ("ls: cannot access '" ++ path ++ "': " ++ reason cause)
      return 2
    | .ok (.file _) =>
      say streams (path ++ "\n")
      return 0
    | .ok .directory =>
      let names := (files.children ⟨path⟩).filter fun name => name.toList.head? ≠ some '.'
      say streams (String.join (names.map (· ++ "\n")))
      return 0

/-- Removes empty directories. -/
def rmdir : Utility := fun args streams =>
  overall (operands args) fun path => do
    let files := (← get).files
    let cause? : Option IoCause :=
      match files.stat ⟨path⟩ with
      | .error cause => some cause
      | .ok (.file _) => some .notDirectory
      | .ok .directory => if (files.children ⟨path⟩).isEmpty then none else some .notEmpty
    match cause? with
    | some cause => complain streams ("rmdir: failed to remove '" ++ path ++ "': " ++ reason cause)
    | none =>
      let _ ← try_ (FileM.change (·.removeTree ⟨path⟩))
      return 0

end PageBuild.Shell
