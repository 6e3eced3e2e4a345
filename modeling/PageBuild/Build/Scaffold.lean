import PageBuild.Build.Host
import PageBuild.Json.Value

/-!
# Scaffold files

Files whose extension marks them as templates are filled with the data of the application. Each
is replaced by a file without that extension; all other files stay as they are. How a template
text is filled is a parameter.
-/
namespace PageBuild

/-- How a template text is filled from data, or why it cannot be. -/
abbrev Filler := String → Json → Except String String

/-- The extension of template files. -/
def templateExtension : String := "hbs"

namespace Scaffold

variable {σ : Type}

/-- Whether a file is a template. -/
def isTemplate (path : Path) : Bool := path.extension? = some templateExtension

/-- The template files below a directory, in the order of a depth-first walk. -/
def templates (root : Path) : HostM σ (List Path) := do
  let found ← HostM.onFiles (FileM.look (·.listFiles root))
  return (found.map (·.path)).filter isTemplate

/-- Fill one template file and put the result in its place. -/
def fillFile (fill : Filler) (data : Json) (template : Path) : HostM σ Path := do
  let source ← HostM.onFiles (FileM.look (·.readText template))
  match fill source data with
  | .error reason => throw (.template template.text reason)
  | .ok text =>
    let target := template.withoutExtension
    HostM.onFiles (FileM.change (·.writeFile target text.toUTF8))
    HostM.onFiles (FileM.change (·.removeFile template))
    HostM.info ("Generated " ++ target.text)
    return target

/-- Fill every template file below a directory. -/
def fillTree (fill : Filler) (data : Json) (root : Path) : HostM σ (List Path) := do
  (← templates root).mapM (fillFile fill data)

end Scaffold

end PageBuild
