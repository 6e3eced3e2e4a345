import PageBuild.Distinct
import PageBuild.Schema.Basic

/-!
# Import statements

The statement that imports a component, and those for the modules that components need only for
their side effects. Two components may share one statement, so lists of statements keep each of
them once, where it first occurs.
-/
namespace PageBuild

/-- A statement that imports a module for its side effects. -/
def sideEffectStatement (module_ : String) : String := "import '" ++ module_ ++ "'"

/-- The import statement of a component: its binding by name or as the default export, or only
the module when there is no binding. -/
def ComponentEntry.importStatement (entry : ComponentEntry) : String :=
  match entry.exportName with
  | none => sideEffectStatement entry.modulePath
  | some binding =>
    if binding = "" then sideEffectStatement entry.modulePath
    else if entry.destructuring then
      "import \x7b " ++ binding ++ " \x7d from '" ++ entry.modulePath ++ "'"
    else "import " ++ binding ++ " from '" ++ entry.modulePath ++ "'"

/-- The module of a side import of an entry. -/
def ComponentEntry.sideModule (entry : ComponentEntry) (side : SideImport) : String :=
  entry.package ++ side.path.getD ""

/-- The modules that the entries need for their side effects, each once. -/
def sideModules (entries : List ComponentEntry) : List String :=
  distinct (entries.flatMap fun entry => entry.sideImports.map entry.sideModule)

/-- The statements for the modules that the entries need for their side effects. -/
def sideStatements (entries : List ComponentEntry) : List String :=
  (sideModules entries).map sideEffectStatement

end PageBuild
