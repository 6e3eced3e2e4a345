import PageBuild.Build.Scaffold
import PageBuild.Page.Plan
import PageBuild.Page.ValidCheck

/-!
# Compiling into a tree

A schema is compiled into a staged template tree: a module for each page where the tree has a
directory for them, the scaffold files filled, and the validity check. Nothing is written before
the whole plan has been made.
-/
namespace PageBuild

/-- Where the validity check is written, below the staged tree. -/
def validCheckPath : Path := ⟨"src/page-valid-check.js"⟩

/-- The directory that asks for a module of each page. -/
def pagesDirectory : Path := ⟨"src/pages"⟩

/-- What a compilation wrote. -/
structure Compiled where
  mode : Mode
  pageFiles : List Path
  scaffoldFiles : List Path
  deriving DecidableEq, Repr

namespace Compile

variable {σ : Type}

/-- How a staged tree takes the generated code. -/
def mode (files : Files) (root : Path) : Mode :=
  if files.isDirectory (root.join pagesDirectory) then .standard else .simple

/-- What is said about a mode. -/
def modeText : Mode → String
  | .standard => "Standard mode: one module per page"
  | .simple => "Simple mode: single document from the first page"

/-- Write the module of a page. -/
def writePage (directory : Path) (page : String × PageSource) : HostM σ Path := do
  let path := directory.join ⟨page.1 ++ ".js"⟩
  HostM.onFiles (FileM.change (·.writeFile path page.2.toModule.toUTF8))
  HostM.info ("Generated " ++ path.text)
  return path

/-- Write the modules of the pages that a plan has in its mode. -/
def writePages (plan : Plan) (root : Path) : HostM σ (List Path) := do
  match plan.mode with
  | .simple => return []
  | .standard =>
    let directory := root.join pagesDirectory
    HostM.onFiles (FileM.ensureDirectory directory)
    plan.pages.mapM (writePage directory)

/-- Write the validity check. -/
def writeCheck (root : Path) : HostM σ Unit := do
  let path := root.join validCheckPath
  HostM.onFiles (FileM.ensureParent path)
  HostM.onFiles (FileM.change (·.writeFile path validCheck.toUTF8))

/-- Write a plan into a staged tree. -/
def write (fill : Filler) (plan : Plan) (root : Path) : HostM σ Compiled := do
  let pageFiles ← writePages plan root
  let scaffoldFiles ← Scaffold.fillTree fill plan.context.toJson root
  writeCheck root
  return ⟨plan.mode, pageFiles, scaffoldFiles⟩

/-- Compile a schema into a staged tree. -/
def run (fill : Filler) (schema : Schema) (root : Path) (environment : Environment)
    (isPreview : Bool) : HostM σ Compiled := do
  let mode := mode (← get).files root
  HostM.info (modeText mode)
  match Plan.ofSchema schema mode environment isPreview with
  | .error flaw => throw (.validation flaw.message)
  | .ok plan => write fill plan root

end Compile

end PageBuild
