import PageBuild.Component.Import
import PageBuild.Page.Context
import PageBuild.Page.Source
import PageBuild.Text.Basic

/-!
# Compile plans

A plan holds everything that is generated from a schema, before any of it is written. It is made
only of a schema whose pages and trees fit together; otherwise the first flaw is reported. Page
ids become file names and the version a directory name, so both are plain names.
-/
namespace PageBuild

/-- How a template takes the generated code. -/
inductive Mode where
  /-- One module for each page. -/
  | standard
  /-- A single document from the first page. -/
  | simple
  deriving DecidableEq, Repr

/-- The name of a mode. -/
def Mode.name : Mode → String
  | standard => "Standard"
  | simple => "Simple"

/-- Why a schema has no plan. -/
inductive SchemaFlaw where
  | noPages
  | noTrees
  /-- A page id that is no file name. -/
  | pageId (id : String)
  /-- A version that is no directory name. -/
  | appVersion (version : String)
  /-- A page whose tree does not exist. -/
  | missingTree (page tree : String)
  /-- A page whose tree has no children. -/
  | emptyTree (page tree : String)
  deriving DecidableEq, Repr

/-- The words for a flaw. -/
def SchemaFlaw.message : SchemaFlaw → String
  | noPages => "schema declares no pages"
  | noTrees => "schema declares no componentsTree"
  | pageId id => "page id '" ++ id ++ "' is not a valid file name"
  | appVersion version => "meta.appVersion '" ++ version ++ "' is not a valid directory name"
  | missingTree page tree =>
    "page '" ++ page ++ "' refers to treeId '" ++ tree ++ "' which is not in componentsTree"
  | emptyTree page tree =>
    "componentsTree entry '" ++ tree ++ "' (page '" ++ page ++ "') has no children"

/-- Everything that is generated from a schema. -/
structure Plan where
  mode : Mode
  /-- The page ids with their sources, in order; only the first page of a single document. -/
  pages : List (String × PageSource)
  context : Context
  deriving Repr

namespace Plan

/-- The source of a page, when its tree exists and has children. -/
def pageSource (schema : Schema) (index : ComponentIndex) (page : Page) :
    Except SchemaFlaw (String × PageSource) :=
  match schema.findTree? page.treeId with
  | none => .error (.missingTree page.id page.treeId)
  | some tree =>
    if tree.childList.isEmpty then .error (.emptyTree page.id page.treeId)
    else .ok (page.id, PageSource.ofNodes tree.childList index)

/-- The sources of pages, up to the first one that has none. -/
def pageSources (schema : Schema) (index : ComponentIndex) :
    List Page → Except SchemaFlaw (List (String × PageSource))
  | [] => .ok []
  | page :: rest =>
    match pageSource schema index page with
    | .error flaw => .error flaw
    | .ok source =>
      match pageSources schema index rest with
      | .error flaw => .error flaw
      | .ok sources => .ok (source :: sources)

/-- The pages that a mode generates. -/
def selected (mode : Mode) (pages : List Page) : List Page :=
  match mode with
  | .standard => pages
  | .simple => pages.take 1

/-- The settings of the tree of a page, empty when it has none. -/
def pageConfig (schema : Schema) (page : Page) : Json :=
  ((schema.findTree? page.treeId).bind (·.pageConfig)).getD (.object [])

/-- The context of a schema whose page sources are given. -/
def contextOf (schema : Schema) (mode : Mode) (environment : Environment) (isPreview : Bool)
    (first : Page) (sources : List (String × PageSource)) : Context :=
  let document :=
    match mode with
    | .standard => none
    | .simple => sources.head?
  { app := schema.app
    routes := schema.resolvedRoutes
    environment
    isPreview
    dependencies := (ComponentIndex.ofEntries schema.entries).packages
    sideImports := sideStatements schema.entries
    pageConfig := pageConfig schema first
    importContent := document.map fun (_, source) => source.importBlock
    componentsContent := document.map fun (_, source) => source.markup }

/-- The plan of a schema, or its first flaw. -/
def ofSchema (schema : Schema) (mode : Mode) (environment : Environment) (isPreview : Bool) :
    Except SchemaFlaw Plan :=
  match schema.pages with
  | [] => .error .noPages
  | first :: _ =>
    if schema.trees.isEmpty then .error .noTrees
    else
      match schema.pages.find? fun page => !Text.isPlainName page.id with
      | some page => .error (.pageId page.id)
      | none =>
        if schema.app.version ≠ "" ∧ !Text.isPlainName schema.app.version then
          .error (.appVersion schema.app.version)
        else
          match
            pageSources schema (ComponentIndex.ofEntries schema.entries)
              (selected mode schema.pages) with
          | .error flaw => .error flaw
          | .ok sources =>
            .ok ⟨mode, sources, contextOf schema mode environment isPreview first sources⟩

end Plan

end PageBuild
