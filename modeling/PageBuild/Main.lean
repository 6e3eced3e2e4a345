import PageBuild.CommandLine.Run
import PageBuild.Shell.Run
import PageBuild.Template.Fill
import PageBuild.Worker.Session

/-!
# The program

Runs a command line on the files of the machine. The files below the current directory, and those
at other places that the words name, are read first; what the command changed of them is written
at the end. The program is its own worker, so a file beside it stands for the worker.
-/
namespace PageBuild.Program

/-- The location of an absolute path. -/
def locationOf (path : String) : Location := (Text.split '/' path).filter fun name => name ≠ ""

/-- The path of a location. -/
def pathOf (location : Location) : String := "/" ++ Text.join '/' location

/-- The places that words may name outside a directory: each word, and what follows an equals sign
in it, as a path from there. -/
def placesOf (here : Path) (words : List String) : List Location :=
  let texts := words.flatMap fun word => [word, Text.join '=' ((Text.split '=' word).drop 1)]
  let places := texts.map fun text =>
    (locationOf (Path.absolute ⟨text⟩ here).text).foldl
      (fun names name => if name = ".." then names.dropLast else names ++ [name]) []
  let outside := places.filter fun place => !(locationOf here.text).isPrefixOf place
  locationOf here.text :: outside.filter fun place => place ≠ []

/-- Read what stands at a location. What cannot be read is left out. -/
partial def load (location : Location) (files : Files) : IO Files := do
  try
    let entries ← (← IO.FS.realPath (pathOf location)).readDir
    let mut loaded := files.plantDirectories [] location
    for entry in entries do
      loaded ← load (location ++ [entry.fileName]) loaded
    return loaded
  catch _ =>
    try
      let content ← IO.FS.readBinFile (pathOf location)
      return (files.plantDirectories [] location.dropLast).insert location (.file content)
    catch _ => return files

/-- Write what was changed. -/
def save (before after : FileTree) : IO Unit := do
  for (location, entry) in after.entries do
    match entry, before.find? location with
    | .directory, some .directory => pure ()
    | .directory, _ => IO.FS.createDirAll (pathOf location)
    | .file content, some (.file old) =>
      if content != old then IO.FS.writeBinFile (pathOf location) content
    | .file content, _ => IO.FS.writeBinFile (pathOf location) content
  for (location, entry) in before.entries.reverse do
    if (after.find? location).isNone then
      match entry with
      | .file _ => IO.FS.removeFile (pathOf location)
      | .directory => IO.FS.removeDir (pathOf location)

/-- The time, which a file that has just been made has. -/
def now : IO Moment :=
  IO.FS.withTempFile fun _ path => do
    let made := (← path.metadata).modified
    return ⟨made.sec.toNat * 1000 + made.nsec.toNat / 1000000⟩

/-- Eight digits to base 16, at random. -/
def randomSuffix : IO String := do
  let bytes ← IO.getRandomBytes 4
  let digits := bytes.toList.flatMap fun byte => [byte.toNat / 16, byte.toNat % 16]
  return String.ofList (digits.map Nat.digitChar)

/-- The variables that a command line and the scripts that it runs may ask for. -/
def variableNames : List String :=
  ["LOOM_BUILD_COMMAND", "LOOM_BUILD_TIMEOUT_SECS", "LOOM_PUBLIC_BASE_URL",
    Worker.pathVariable, "HOME", "PATH", "USER"]

/-- The variables that are set. -/
def variablesSet : IO (List (String × String)) := do
  let found ← variableNames.mapM fun name => return (name, ← IO.getEnv name)
  return found.filterMap fun (name, value) => value.map (name, ·)

/-- Run a command line. -/
def run (words : List String) : IO UInt32 := do
  let here : Path := ⟨(← IO.currentDir).toString⟩
  let program : Path := ⟨(← IO.appPath).toString⟩
  let worker := (program.parent?.getD ⟨"/"⟩).join ⟨Worker.fileName⟩
  let exported ← variablesSet
  let mut found : Files := ⟨FileTree.empty, locationOf here.text⟩
  for place in placesOf here words do
    found ← load place found
  let files := found.plant [] worker.text ByteArray.empty
  let suffixes ← words.mapM fun _ => randomSuffix
  let tools : Tools := ⟨Template.fill, Shell.runner exported 2, .inOrder⟩
  let surroundings : CommandLine.Surroundings :=
    { valueOf := fun name => List.lookup name exported
      tools
      here
      beside := worker.parent?
      searchPath := []
      canRun := fun _ => false
      starter := Worker.Session.mortalStarter tools worker
      suffix := fun index => suffixes.getD index "00000000" }
  let (status, terminal, host) :=
    CommandLine.run surroundings words ⟨files, none, ← now, ← IO.monoMsNow, [], ()⟩
  save files.tree host.files.tree
  IO.print terminal.out
  IO.eprint terminal.err
  return status.toUInt32

end PageBuild.Program

/-- Run the command line of the program. -/
def main (words : List String) : IO UInt32 := PageBuild.Program.run words
