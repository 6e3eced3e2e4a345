import PageBuild.Failure
import PageBuild.Files.Access

/-!
# Finding the worker

The file of the worker is the one that is named, where something stands; else the one beside the
program that looks for it; else the first on the search path that can be run.
-/
namespace PageBuild.Worker

/-- The name of the file of the worker. -/
def fileName : String := "loom-worker"

/-- The variable that names the file of the worker. -/
def pathVariable : String := "LOOM_WORKER_PATH"

/-- Where to look for the file of the worker. -/
structure Whereabouts where
  /-- The file that is named. -/
  named : Option Path
  /-- The directory of the program that looks for it. -/
  beside : Option Path
  /-- The directories of the search path. -/
  searchPath : List Path
  /-- Whether a file can be run. -/
  canRun : Path → Bool

/-- No file of a worker was found. -/
def notFound : Failure :=
  .ipc ("Could not find " ++ fileName ++ ". Set " ++ pathVariable ++ " or ensure it's in PATH.")

/-- The files that may be the worker, in the order in which they are looked at. -/
def Whereabouts.candidates (places : Whereabouts) (files : Files) : List Path :=
  places.named.toList.filter files.pathExists ++
    (places.beside.toList.map (·.join ⟨fileName⟩)).filter files.pathExists ++
    (places.searchPath.map (·.join ⟨fileName⟩)).filter fun path =>
      files.isFile path && places.canRun path

/-- Find the file of the worker. -/
def find (places : Whereabouts) (files : Files) : Except Failure Path :=
  match (places.candidates files).head? with
  | some path => .ok path
  | none => .error notFound

end PageBuild.Worker
