import PageBuild.Json.Record
import PageBuild.Schema.Basic

/-!
# Reading schemas

Each part of a schema is a record with its own form. The roots of the trees are records too, so
their faults are exact; a node below a root is read whole first and then matched against the two
kinds of node, so any mismatch inside it is the one fault of a node that is neither.
-/
namespace PageBuild

open Json (Field Form Reader Fault Input)

/-- The form of a side import. -/
def SideImport.form : Form SideImport where
  title := "ExtraImport"
  blank := ⟨none⟩
  fields := [.free "path" (Json.optional Json.text) fun r path => { r with path }]

/-- The form of a component entry. -/
def ComponentEntry.form : Form ComponentEntry where
  title := "ComponentMapEntry"
  blank := ⟨"", "", "", false, none, none, []⟩
  fields :=
    [.free "componentName" Json.text fun r name => { r with name },
      .free "package" Json.text fun r package => { r with package },
      .free "version" Json.text fun r version => { r with version },
      .free "destructuring" Json.boolean fun r destructuring => { r with destructuring },
      .free "exportName" (Json.optional Json.text) fun r exportName => { r with exportName },
      .free "path" (Json.optional Json.text) fun r path => { r with path },
      .free "extraImports" (Json.nullable (Json.sequence SideImport.form.reader))
        fun r sideImports => { r with sideImports }]

/-- A string, when the value is one. -/
def Json.string? : Json → Option String
  | .string value => some value
  | _ => none

/-- An optional string: null is absence. -/
def Json.optionalString? : Json → Option (Option String)
  | .null => some none
  | .string value => some (some value)
  | _ => none

/-- Optional properties: null is absence, and repeated keys are resolved. -/
def Json.properties? : Json → Option (Option Properties)
  | .null => some none
  | .object members => some (some (Json.settledMembers members []))
  | _ => none

/-- Optional settings: null is absence, and repeated keys are resolved. -/
def Json.settings : Json → Option Json
  | .null => none
  | value => some value.settled

mutual
/-- The node that a value describes. -/
def Node.ofJson? : Json → Option Node
  | .string content => some (.text content)
  | .object members => (componentOfMembers? members ⟨none, "", none, none, none⟩ []).map .component
  | .array items => (componentOfItems? 0 items ⟨none, "", none, none, none⟩).map .component
  | _ => none
termination_by structural value => value

/-- The nodes that values describe. -/
def nodesOfJson? : List Json → Option (List Node)
  | [] => some []
  | value :: rest =>
    match Node.ofJson? value, nodesOfJson? rest with
    | some node, some nodes => some (node :: nodes)
    | _, _ => none
termination_by structural values => values

/-- Optional children: null is absence. -/
def childrenOfJson? : Json → Option (Option (List Node))
  | .null => some none
  | .array items => (nodesOfJson? items).map some
  | _ => none
termination_by structural value => value

/-- A component from the members of an object: unknown ones are ignored and known ones stand at
most once. -/
def componentOfMembers? : Properties → Component → List String → Option Component
  | [], component, _ => some component
  | (key, value) :: rest, component, found =>
    if found.contains key then none
    else if key = "id" then
      match value.optionalString? with
      | some id => componentOfMembers? rest { component with id } (key :: found)
      | none => none
    else if key = "componentName" then
      match value.string? with
      | some name => componentOfMembers? rest { component with name } (key :: found)
      | none => none
    else if key = "props" then
      match value.properties? with
      | some properties => componentOfMembers? rest { component with properties } (key :: found)
      | none => none
    else if key = "children" then
      match childrenOfJson? value with
      | some children => componentOfMembers? rest { component with children } (key :: found)
      | none => none
    else if key = "pageConfig" then
      componentOfMembers? rest { component with pageConfig := value.settings } (key :: found)
    else componentOfMembers? rest component found
termination_by structural members => members

/-- A component from an array of its fields in order, at most all of them. -/
def componentOfItems? (index : Nat) : List Json → Component → Option Component
  | [], component => some component
  | value :: rest, component =>
    match index with
    | 0 =>
      match value.optionalString? with
      | some id => componentOfItems? 1 rest { component with id }
      | none => none
    | 1 =>
      match value.string? with
      | some name => componentOfItems? 2 rest { component with name }
      | none => none
    | 2 =>
      match value.properties? with
      | some properties => componentOfItems? 3 rest { component with properties }
      | none => none
    | 3 =>
      match childrenOfJson? value with
      | some children => componentOfItems? 4 rest { component with children }
      | none => none
    | 4 => componentOfItems? 5 rest { component with pageConfig := value.settings }
    | _ => none
termination_by structural items => items
end

/-- Reads a node: whole first, then as text or a component. -/
def Node.reader : Reader Node := fun depth input =>
  match Json.raw depth input with
  | .error fault => .error fault
  | .ok (value, rest) =>
    match Node.ofJson? value with
    | some node => .ok (node, rest)
    | none => .error (.noAlternative "TreeNode")

/-- The form of the root of a tree. -/
def Component.form : Form Component where
  title := "ComponentNode"
  blank := ⟨none, "", none, none, none⟩
  fields :=
    [.free "id" (Json.optional Json.text) fun r id => { r with id },
      .free "componentName" Json.text fun r name => { r with name },
      .free "props" (Json.optional Json.dictionary) fun r properties => { r with properties },
      .free "children" (Json.optional (Json.sequence Node.reader))
        fun r children => { r with children },
      .free "pageConfig" (Json.optional Json.value) fun r pageConfig => { r with pageConfig }]

/-- The form of a page. -/
def Page.form : Form Page where
  title := "Page"
  blank := ⟨"", ""⟩
  fields :=
    [.needed "id" Json.text fun r id => { r with id },
      .needed "treeId" Json.text fun r treeId => { r with treeId }]

/-- The form of a route. -/
def Route.form : Form Route where
  title := "Route"
  blank := ⟨"", ""⟩
  fields :=
    [.free "path" Json.text fun r path => { r with path },
      .needed "page" Json.text fun r page => { r with page }]

/-- The form of a routing table. -/
def Router.form : Form Router where
  title := "Router"
  blank := ⟨none⟩
  fields :=
    [.free "routes" (Json.optional (Json.sequence Route.form.reader))
      fun r routes => { r with routes }]

/-- The fields of application metadata that are not kept as free members. -/
def AppInfo.form : Form AppInfo where
  title := "Meta"
  blank := ⟨none, "", "", []⟩
  fields :=
    [.free "name" (Json.optional Json.text) fun r name => { r with name },
      .free "appVersion" Json.text fun r version => { r with version },
      .free "project_name" Json.text fun r project => { r with project }]

/-- A member of application metadata: a named field, or a free member read whole. -/
def AppInfo.member (depth : Nat) (state : AppInfo × List String) (key : String)
    (input : Input) : Except Fault ((AppInfo × List String) × Input) :=
  match AppInfo.form.fields.find? (·.name == key) with
  | some _ => AppInfo.form.member depth state key input
  | none => do
    let rest ← Json.colon input
    let (value, rest) ← Json.value depth rest
    .ok (({ state.1 with extra := Json.put key value state.1.extra }, state.2), rest)

/-- Reads application metadata, which is always an object. -/
def AppInfo.reader : Reader AppInfo := fun depth input =>
  match Json.skipBlanks input with
  | '\x7b' :: rest =>
    match depth with
    | 0 => .error .tooDeep
    | depth + 1 => do
      let ((app, _), rest) ←
        Json.members (AppInfo.member depth) (rest.length + 1) true (AppInfo.form.blank, []) rest
      .ok (app, rest)
  | input => .error (Json.wrongKind AppInfo.form.expected input)

/-- The form of a schema. -/
def Schema.form : Form Schema where
  title := "Schema"
  blank := ⟨"", [], [], [], none, AppInfo.form.blank⟩
  fields :=
    [.free "version" (Json.nullable Json.text) fun r version => { r with version },
      .free "componentsMap" (Json.nullable (Json.sequence ComponentEntry.form.reader))
        fun r entries => { r with entries },
      .free "componentsTree" (Json.nullable (Json.sequence Component.form.reader))
        fun r trees => { r with trees },
      .free "pages" (Json.nullable (Json.sequence Page.form.reader))
        fun r pages => { r with pages },
      .free "router" (Json.optional Router.form.reader) fun r router => { r with router },
      .free "meta" (Json.nullable AppInfo.reader) fun r app => { r with app }]

/-- The schema of a JSON text. -/
def Schema.ofText (source : String) : Except Fault Schema :=
  Json.ofText Schema.form.reader source

end PageBuild
