import PageBuild.Component.Index
import PageBuild.Schema.Write

/-!
# Template contexts

The data that every template file of an application is filled with: the application metadata,
the resolved routes, the target, the dependencies and the settings of the first page. In a single
document the imports and the markup of that page are part of it.
-/
namespace PageBuild

/-- A route with the module of its page. -/
structure ResolvedRoute where
  path : String
  page : String
  pagePath : String
  deriving DecidableEq, Repr

namespace ResolvedRoute

/-- The route from a path to a page. -/
def of (path page : String) : ResolvedRoute := ⟨path, page, "./pages/" ++ page⟩

/-- A resolved route as JSON. -/
def toJson (route : ResolvedRoute) : Json :=
  .object
    [("path", .string route.path), ("page", .string route.page),
      ("pagePath", .string route.pagePath)]

end ResolvedRoute

/-- The declared routes, or one from the empty path to the first page. -/
def Schema.resolvedRoutes (schema : Schema) : List ResolvedRoute :=
  match schema.declaredRoutes? with
  | some routes => routes.map fun route => .of route.path route.page
  | none =>
    match schema.pages with
    | [] => []
    | page :: _ => [.of "" page.id]

/-- The data of an application's templates. -/
structure Context where
  app : AppInfo
  routes : List ResolvedRoute
  environment : Environment
  isPreview : Bool
  dependencies : List PackageDependency
  /-- Import statements for side effects. -/
  sideImports : List String
  pageConfig : Json
  /-- The import block of a single document. -/
  importContent : Option String
  /-- The markup of a single document. -/
  componentsContent : Option String
  deriving Repr

/-- A dependency as JSON. -/
def PackageDependency.toJson (dependency : PackageDependency) : Json :=
  .object [("package", .string dependency.package), ("version", .string dependency.version)]

/-- A context as JSON, under the names that templates use. -/
def Context.toJson (context : Context) : Json :=
  .object <|
    [("meta", context.app.toJson), ("routes", .array (context.routes.map ResolvedRoute.toJson)),
      ("APP_ENV", .string context.environment.name), ("isPreview", .bool context.isPreview),
      ("dependencies", .array (context.dependencies.map PackageDependency.toJson)),
      ("extraImports", .array (context.sideImports.map .string)),
      ("pageConfig", context.pageConfig)] ++
    optionalMember "importContent" (context.importContent.map .string) ++
    optionalMember "componentsContent" (context.componentsContent.map .string)

end PageBuild
