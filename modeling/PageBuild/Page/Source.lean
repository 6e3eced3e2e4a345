import PageBuild.Component.Import
import PageBuild.Component.Index
import PageBuild.Page.Markup

/-!
# Page sources

The generated source of a page: the import statements of the components it uses, each once in the
order of first use, and its markup. Components are used in the order of the opening tags, a
parent before its children.
-/
namespace PageBuild

mutual
/-- The component names of a node and of all below it, a parent before its children. -/
def Node.componentNames : Node → List String
  | .text _ => []
  | .component ⟨_, name, _, none, _⟩ => [name]
  | .component ⟨_, name, _, some children, _⟩ => name :: componentNamesOf children
termination_by structural node => node

/-- The component names of nodes and of all below them, in order. -/
def componentNamesOf : List Node → List String
  | [] => []
  | node :: rest => node.componentNames ++ componentNamesOf rest
termination_by structural nodes => nodes
end

/-- The generated source of a page. -/
structure PageSource where
  /-- The import statements. -/
  imports : List String
  markup : String
  deriving DecidableEq, Repr

namespace PageSource

/-- The source of a list of nodes. -/
def ofNodes (nodes : List Node) (index : ComponentIndex) : PageSource where
  imports :=
    distinct ((componentNamesOf nodes).filterMap fun name =>
      (index.find? name).map ComponentEntry.importStatement)
  markup := renderNodes nodes

/-- The import statements, one on each line. -/
def importBlock (source : PageSource) : String := "\n".intercalate source.imports

/-- The module of a page: its imports, and a function of the properties that returns the markup
as a template string. -/
def toModule (source : PageSource) : String :=
  source.importBlock ++ "\nexport default (props) => \x7b\n  return `\n" ++ source.markup ++
    "\n`\n\x7d\n"

end PageSource

end PageBuild
