import PageBuild.Distinct
import PageBuild.Shell.Pattern
import PageBuild.Shell.Utility
import PageBuild.Text.Basic

/-!
# Filters

The utilities that read files, or their input, and write parts of them: their first or last
lines, the lines with a match, the lines with matches replaced, or their counts.
-/
namespace PageBuild.Shell

/-- The parts of a text between delimiters that no backslash stands before. -/
def delimited (delimiter : Char) : List Char → List (List Char)
  | [] => [[]]
  | '\\' :: c :: rest =>
    match delimited delimiter rest with
    | part :: parts =>
      (if c = delimiter then c :: part else '\\' :: c :: part) :: parts
    | [] => [['\\', c]]
  | c :: rest =>
    if c = delimiter then [] :: delimited delimiter rest
    else
      match delimited delimiter rest with
      | part :: parts => (c :: part) :: parts
      | [] => [[c]]

/-- A substitution: the pattern, what replaces it, and whether everywhere. -/
def substitution? (script : String) : Option (Pattern × List Char × Bool) :=
  match script.toList with
  | 's' :: delimiter :: rest =>
    match delimited delimiter rest with
    | [pattern, by_, flags] => some (.ofText pattern, by_, flags.contains 'g')
    | _ => none
  | _ => none

/-- Substitutes in the lines of its input. -/
def sed : Utility := fun args streams => do
  match args with
  | script :: paths =>
    match substitution? script with
    | none => complain streams ("sed: -e expression #1, char 1: unknown command: " ++ script)
    | some (pattern, by_, all) =>
      overall (if paths.isEmpty then ["-"] else paths) fun path => do
        match ← contentOf streams path with
        | .error cause => complain streams ("sed: can't read " ++ path ++ ": " ++ reason cause)
        | .ok content =>
          let lines := ((String.fromUTF8? content).getD "").splitOn "\n"
          let changed := lines.map fun line =>
            String.ofList (pattern.replace by_ all (line.length + 1) line.toList)
          say streams ("\n".intercalate changed)
          return 0
  | [] => complain streams "sed: no script"

/-- Writes its input, and keeps it in files. -/
def tee : Utility := fun args streams => do
  emit streams.output streams.input
  overall (operands args) fun path => do
    match ← try_ (FileM.change (·.writeFile ⟨path⟩ streams.input)) with
    | .ok () => return 0
    | .error cause => complain streams ("tee: " ++ path ++ ": " ++ reason cause)

/-- The lines of a text, each with its end. -/
def linesOf : List Char → List (List Char)
  | [] => []
  | c :: rest =>
    if c = '\n' then [c] :: linesOf rest
    else
      match linesOf rest with
      | line :: lines => (c :: line) :: lines
      | [] => [[c]]

/-- The bytes of lines. -/
def bytesOf (lines : List (List Char)) : ByteArray := (String.ofList lines.flatten).toUTF8

/-- Bytes as text. -/
def textOfBytes (content : ByteArray) : List Char :=
  ((String.fromUTF8? content).getD "").toList

/-- Do something with the bytes of files, or of the input. What is said of a file that cannot be
read begins with its name in the words of the utility. -/
def eachContent (streams : Streams) (paths : List String) (named : String → String)
    (action : String → ByteArray → ShellM UInt8) : ShellM UInt8 :=
  overall (if paths.isEmpty then ["-"] else paths) fun path => do
    match ← contentOf streams path with
    | .ok content => action path content
    | .error cause => complain streams (named path ++ ": " ++ reason cause)

/-- How much of its files a utility takes: lines, or bytes. -/
structure Amount where
  count : Nat
  isBytes : Bool

/-- The amount that options ask for, and the arguments that are no options. -/
def amount (usual : Amount) : List String → Amount × List String
  | "-n" :: count :: rest => amount ⟨count.toNat?.getD usual.count, false⟩ rest
  | "-c" :: count :: rest => amount ⟨count.toNat?.getD usual.count, true⟩ rest
  | arg :: rest =>
    match arg.toList with
    | '-' :: 'n' :: digits =>
      amount ⟨(String.ofList digits).toNat?.getD usual.count, false⟩ rest
    | '-' :: 'c' :: digits => amount ⟨(String.ofList digits).toNat?.getD usual.count, true⟩ rest
    | '-' :: d :: digits =>
      amount ⟨(String.ofList (d :: digits)).toNat?.getD usual.count, usual.isBytes⟩ rest
    | _ =>
      let (found, paths) := amount usual rest
      (found, arg :: paths)
  | [] => (usual, [])

/-- Writes the first lines or bytes of its files. -/
def head : Utility := fun args streams => do
  let (wanted, paths) := amount ⟨10, false⟩ args
  let named (path : String) := "head: cannot open '" ++ path ++ "' for reading"
  eachContent streams paths named fun _ content => do
    emit streams.output
      (if wanted.isBytes then content.extract 0 wanted.count
        else bytesOf ((linesOf (textOfBytes content)).take wanted.count))
    return 0

/-- Writes the last lines or bytes of its files. -/
def tail : Utility := fun args streams => do
  let (wanted, paths) := amount ⟨10, false⟩ args
  let named (path : String) := "tail: cannot open '" ++ path ++ "' for reading"
  eachContent streams paths named fun _ content => do
    let lines := linesOf (textOfBytes content)
    emit streams.output
      (if wanted.isBytes then content.extract (content.size - wanted.count) content.size
        else bytesOf (lines.drop (lines.length - wanted.count)))
    return 0

/-- How many runs of characters that are no blanks a text has. -/
def wordCount (text : List Char) : Nat :=
  (text.foldl
    (fun (count, inside) c =>
      if Text.isBlank c then (count, false) else (if inside then count else count + 1, true))
    (0, false)).1

/-- Counts the lines, words or bytes of its files. -/
def wc : Utility := fun args streams =>
  eachContent streams (operands args) ("wc: " ++ ·) fun path content => do
    let text := textOfBytes content
    let count :=
      if hasOption args 'l' then text.count '\n'
      else if hasOption args 'w' then wordCount text
      else if hasOption args 'm' then text.length
      else content.size
    say streams (toString count ++ (if path = "-" then "" else " " ++ path) ++ "\n")
    return 0

/-- Writes the lines of its files with a match, or those without one. -/
def grep : Utility := fun args streams => do
  match operands args with
  | [] => complain streams "Usage: grep [OPTION]... PATTERNS [FILE]..."
  | pattern :: paths =>
    let pattern := Pattern.ofText pattern.toList
    let isFound (line : List Char) : Bool :=
      (pattern.find? (line.filter (· ≠ '\n'))).isSome != hasOption args 'v'
    let statuses ← (if paths.isEmpty then ["-"] else paths).mapM fun path => do
      match ← contentOf streams path with
      | .error cause =>
        let _ ← complain streams ("grep: " ++ path ++ ": " ++ reason cause)
        return (2 : UInt8)
      | .ok content =>
        let found := (linesOf (textOfBytes content)).filter isFound
        if hasOption args 'c' then say streams (toString found.length ++ "\n")
        else if !hasOption args 'q' then
          found.forM fun line => do
            say streams ((if paths.length ≤ 1 then "" else path ++ ":") ++
              String.ofList (line.filter (· ≠ '\n')) ++ "\n")
        return if found.isEmpty then 1 else 0
    return if statuses.contains 2 then 2 else if statuses.contains 0 then 0 else 1

/-- Writes the lines of its files in the order of their characters. -/
def sort : Utility := fun args streams => do
  let paths := if (operands args).isEmpty then ["-"] else operands args
  let contents ← paths.mapM (contentOf streams)
  let text := contents.flatMap fun content => textOfBytes (content.toOption.getD .empty)
  let lines := (linesOf text).map fun line => String.ofList (line.filter (· ≠ '\n'))
  let sorted := lines.mergeSort fun a b => decide (a ≤ b)
  let unique := if hasOption args 'u' then distinct sorted else sorted
  let ordered := if hasOption args 'r' then unique.reverse else unique
  say streams (String.join (ordered.map (· ++ "\n")))
  return if contents.all fun content => content.toBool then 0 else 2

/-- The characters of a set, in which a hyphen stands for those between two. -/
def characterSet : List Char → List Char
  | first :: '-' :: last :: rest =>
    (List.range (last.toNat + 1 - first.toNat)).map (fun n => Char.ofNat (first.toNat + n)) ++
      characterSet rest
  | c :: rest => c :: characterSet rest
  | [] => []

/-- Writes its input with the characters of one set exchanged for those of another, or without
them. -/
def tr : Utility := fun args streams => do
  let text := textOfBytes streams.input
  match args with
  | ["-d", removed] =>
    let removed := characterSet removed.toList
    say streams (String.ofList (text.filter fun c => !removed.contains c))
    return 0
  | [taken, given] =>
    let taken := characterSet taken.toList
    let given := characterSet given.toList
    say streams (String.ofList (text.map fun c =>
      match taken.idxOf? c with
      | some index => given.getD index (given.getLast?.getD c)
      | none => c))
    return 0
  | _ => complain streams "tr: missing operand"

end PageBuild.Shell
