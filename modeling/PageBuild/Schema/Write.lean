import PageBuild.Json.Write
import PageBuild.Schema.Basic

/-!
# Schemas as JSON

Members are written in declaration order. Absent options are left out, apart from the router, its
routes and the path of a side import, which are written as null.
-/
namespace PageBuild

open Json (string bool array object)

/-- A member that is left out when absent. -/
def optionalMember (key : String) (value : Option Json) : Properties :=
  match value with
  | some value => [(key, value)]
  | none => []

/-- An optional value, null when absent. -/
def orNull (value : Option Json) : Json := value.getD .null

/-- A side import as JSON. -/
def SideImport.toJson (entry : SideImport) : Json :=
  object [("path", orNull (entry.path.map string))]

/-- A component entry as JSON. -/
def ComponentEntry.toJson (entry : ComponentEntry) : Json :=
  object <|
    [("componentName", string entry.name), ("package", string entry.package),
      ("version", string entry.version), ("destructuring", bool entry.destructuring)] ++
    optionalMember "exportName" (entry.exportName.map string) ++
    optionalMember "path" (entry.path.map string) ++
    [("extraImports", array (entry.sideImports.map SideImport.toJson))]

/-- The members of a component, given those of its children. -/
def componentMembers (id : Option String) (name : String) (properties : Option Properties)
    (children : Option (List Json)) (pageConfig : Option Json) : Properties :=
  optionalMember "id" (id.map string) ++ [("componentName", string name)] ++
    optionalMember "props" (properties.map object) ++
    optionalMember "children" (children.map array) ++
    optionalMember "pageConfig" pageConfig

mutual
/-- A node as JSON: text is a string, a component an object. -/
def Node.toJson : Node → Json
  | .text content => string content
  | .component ⟨id, name, properties, none, pageConfig⟩ =>
    object (componentMembers id name properties none pageConfig)
  | .component ⟨id, name, properties, some children, pageConfig⟩ =>
    object (componentMembers id name properties (some (nodesToJson children)) pageConfig)
termination_by structural node => node

/-- Nodes as JSON, in order. -/
def nodesToJson : List Node → List Json
  | [] => []
  | node :: rest => node.toJson :: nodesToJson rest
termination_by structural nodes => nodes
end

/-- A component as JSON. -/
def Component.toJson (component : Component) : Json := (Node.component component).toJson

/-- A page as JSON. -/
def Page.toJson (page : Page) : Json :=
  object [("id", string page.id), ("treeId", string page.treeId)]

/-- A route as JSON. -/
def Route.toJson (route : Route) : Json :=
  object [("path", string route.path), ("page", string route.page)]

/-- A routing table as JSON. -/
def Router.toJson (router : Router) : Json :=
  object [("routes", orNull (router.routes.map fun routes => array (routes.map Route.toJson)))]

/-- Application metadata as JSON: the named members, then all others in document order. -/
def AppInfo.toJson (app : AppInfo) : Json :=
  object <|
    optionalMember "name" (app.name.map string) ++
    [("appVersion", string app.version), ("project_name", string app.project)] ++ app.extra

/-- A schema as JSON. -/
def Schema.toJson (schema : Schema) : Json :=
  object
    [("version", string schema.version),
      ("componentsMap", array (schema.entries.map ComponentEntry.toJson)),
      ("componentsTree", array (schema.trees.map Component.toJson)),
      ("pages", array (schema.pages.map Page.toJson)),
      ("router", orNull (schema.router.map Router.toJson)),
      ("meta", schema.app.toJson)]

/-- The compact JSON text of a schema. -/
def Schema.render (schema : Schema) : String := schema.toJson.render

end PageBuild
