import PageBuild.Json.Value

/-!
# Page schemas

A schema describes one application: the components it may use with the packages they come from,
a list of component trees found by id, the pages that each pick a tree, an optional routing table
and the metadata of the application. Members that may be absent are optional, because a schema is
written back with exactly the members it had.
-/
namespace PageBuild

/-- Members of a free JSON object in document order. -/
abbrev Properties := List (String × Json)

/-- A deployment target. -/
inductive Environment where
  | fat
  | uat
  | pre
  | pro
  deriving DecidableEq, Repr

instance : Inhabited Environment := ⟨.fat⟩

namespace Environment

/-- The name of a target, as it stands in settings, paths and keys. -/
def name : Environment → String
  | fat => "fat"
  | uat => "uat"
  | pre => "pre"
  | pro => "pro"

/-- The target of a name. -/
def ofName? (text : String) : Option Environment :=
  if text = "fat" then some fat
  else if text = "uat" then some uat
  else if text = "pre" then some pre
  else if text = "pro" then some pro
  else none

end Environment

/-- A module imported only for its side effects, by its path inside the package. -/
structure SideImport where
  path : Option String
  deriving DecidableEq, Repr, Inhabited

/-- Where a component comes from and how it is imported. -/
structure ComponentEntry where
  /-- The component name that trees refer to. -/
  name : String
  package : String
  version : String
  /-- Import by name rather than as the default export. -/
  destructuring : Bool
  /-- The exported binding; without one the module is imported for its side effects. -/
  exportName : Option String
  /-- The path inside the package. -/
  path : Option String
  /-- Modules that must be imported along with the component. -/
  sideImports : List SideImport
  deriving DecidableEq, Repr, Inhabited

/-- The module that an entry's component is imported from. -/
def ComponentEntry.modulePath (entry : ComponentEntry) : String :=
  entry.package ++ entry.path.getD ""

/-- A component with its properties, over a type of children. -/
structure ComponentOf (ν : Type) where
  /-- The id that pages refer to, on the roots of trees. -/
  id : Option String
  /-- The tag name. -/
  name : String
  properties : Option Properties
  children : Option (List ν)
  /-- Settings of the page, on the roots of trees. -/
  pageConfig : Option Json
  deriving Repr, Inhabited

/-- A node of a component tree: literal text or a component. -/
inductive Node where
  | text (content : String)
  | component (content : ComponentOf Node)
  deriving Repr, Inhabited

/-- A component of a tree. -/
abbrev Component := ComponentOf Node

/-- The children of a component, none when it declares none. -/
def Component.childList (component : Component) : List Node := component.children.getD []

/-- A page and the tree it shows. -/
structure Page where
  id : String
  treeId : String
  deriving DecidableEq, Repr, Inhabited

/-- A URL path and the page it leads to. -/
structure Route where
  path : String
  page : String
  deriving DecidableEq, Repr, Inhabited

/-- A routing table. -/
structure Router where
  routes : Option (List Route)
  deriving DecidableEq, Repr, Inhabited

/-- Metadata of the application. -/
structure AppInfo where
  name : Option String
  /-- The application version, which names the output directory. -/
  version : String
  /-- The project name, the first segment of published keys. -/
  project : String
  /-- All other members, for templates to use. -/
  extra : Properties
  deriving Repr, Inhabited

/-- A page schema. -/
structure Schema where
  version : String
  entries : List ComponentEntry
  trees : List Component
  pages : List Page
  router : Option Router
  app : AppInfo
  deriving Repr, Inhabited

namespace Schema

/-- The first tree with an id. -/
def findTree? (schema : Schema) (id : String) : Option Component :=
  schema.trees.find? (·.id == some id)

/-- The routes of an explicit routing table. -/
def declaredRoutes? (schema : Schema) : Option (List Route) :=
  schema.router.bind (·.routes)

end Schema

end PageBuild
