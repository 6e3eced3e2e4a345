import PageBuild.Files.Access
import PageBuild.Schema.Basic

/-!
# Staging

Every build works in a directory of its own, named by the build id under a staging root that
builds share, and keeps its log beside it. Without a staging root of its own a build uses the one
next to its template.
-/
namespace PageBuild

/-- The name of the staging root next to a template. -/
def stagingRootName : String := ".temp"

/-- The places of one build. -/
structure Staging where
  /-- The directory that builds share. -/
  root : Path
  /-- The directory that the build works in. -/
  buildDir : Path
  /-- The log of the build. -/
  logPath : Path
  deriving DecidableEq, Repr

namespace Staging

/-- The staging root of a template. -/
def defaultRoot (template : Path) : Path :=
  (template.parent?.getD ⟨"."⟩).join ⟨stagingRootName⟩

/-- The places of a build. -/
def ofBuild (template : Path) (buildId : String) (root : Option Path) : Staging :=
  let root := root.getD (defaultRoot template)
  ⟨root, root.join ⟨buildId⟩, root.join ⟨buildId ++ ".log"⟩⟩

/-- The directory that the bundler writes to. -/
def distDir (staging : Staging) : Path := staging.buildDir.join ⟨"dist"⟩

/-- The page that the bundler must leave. -/
def distEntry (staging : Staging) (environment : Environment) (version : String) : Path :=
  ((staging.distDir.join ⟨environment.name⟩).join ⟨version⟩).join ⟨"index.html"⟩

/-- Copy a template into a fresh build directory, and count its files. -/
def stage (staging : Staging) (template : Path) : FileM Nat := do
  if !(← get).isDirectory template then throw (.noTemplate template.text)
  if (← get).pathExists staging.buildDir then FileM.change (·.removeTree staging.buildDir)
  FileM.copyTree template staging.buildDir

/-- Remove the build directory and the log. -/
def clean (staging : Staging) : FileM Unit := do
  if (← get).pathExists staging.buildDir then FileM.change (·.removeTree staging.buildDir)
  if (← get).pathExists staging.logPath then FileM.change (·.removeFile staging.logPath)

end Staging

end PageBuild
