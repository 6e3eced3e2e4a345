import PageBuild.Proofs.Json.Accepts
import PageBuild.Schema.Read
import PageBuild.Schema.Write

/-!
# Nodes of trees read back

A component that was read has settled properties and settings and children that are read back
(`Component.Settled`), whichever form its JSON had; then the JSON written of it describes the same
component and is no deeper. By induction on values, that holds of every node that a value describes
(`Node.described_of_ofJson?`), and so the reader of nodes reads back what was written of them.
-/
namespace PageBuild

open Json (object array string depth_array_le depth_object_le)

variable {depth : Nat} {P : Json → Prop} {v : Json} {node : Node} {nodes : List Node}
  {component component' : Component} {key : String} {keys : List String} {rest : Properties}

/-! ## What is written -/

/-- The members of an option that may be left out. -/
theorem forall_optionalMember {value : Option Json} :
    (∀ m ∈ optionalMember key value, P m.2) ↔ ∀ v, value = some v → P v := by
  cases value <;> simp [optionalMember]

/-- The members of a component. -/
theorem forall_componentMembers {id : Option String} {name : String}
    {properties : Option Properties} {children : Option (List Json)} {pageConfig : Option Json} :
    (∀ m ∈ componentMembers id name properties children pageConfig, P m.2) ↔
      (∀ v, id.map string = some v → P v) ∧ P (string name) ∧
        (∀ v, properties.map object = some v → P v) ∧ (∀ v, children.map array = some v → P v) ∧
          ∀ v, pageConfig = some v → P v := by
  simp only [componentMembers, List.forall_mem_append, forall_optionalMember,
    List.forall_mem_singleton, and_assoc]

/-- Nodes are written one after the other. -/
theorem nodesToJson_eq_map : nodesToJson nodes = nodes.map Node.toJson := by
  induction nodes with
  | nil => rfl
  | cons node nodes ih => rw [nodesToJson, ih, List.map_cons]

/-- A component is written as an object of its parts. -/
theorem Component.toJson_eq (component : Component) :
    component.toJson =
      object (componentMembers component.id component.name component.properties
        (component.children.map fun nodes => nodes.map Node.toJson) component.pageConfig) := by
  obtain ⟨id, name, properties, children, pageConfig⟩ := component
  cases children with
  | none => rfl
  | some nodes => simp only [toJson, Node.toJson, nodesToJson_eq_map, Option.map_some]

/-! ## Components described by their JSON -/

/-- Whether the JSON of a node describes the node. -/
def Node.Described (node : Node) : Prop := Node.ofJson? node.toJson = some node

/-- Whether the parts of a component are settled, described by their JSON and no deeper than a number
of levels. -/
structure Component.Settled (depth : Nat) (component : Component) : Prop where
  properties : ∀ ms, component.properties = some ms →
    Json.settledMembers ms [] = ms ∧ (object ms).depth ≤ depth
  children : ∀ nodes, component.children = some nodes →
    (array (nodes.map Node.toJson)).depth ≤ depth ∧ ∀ node ∈ nodes, node.Described
  pageConfig : ∀ v, component.pageConfig = some v → v.settled = v ∧ v ≠ .null ∧ v.depth ≤ depth

/-- Nodes that are described are described together. -/
theorem nodesOfJson?_map (described : ∀ node ∈ nodes, node.Described) :
    nodesOfJson? (nodes.map Node.toJson) = some nodes := by
  induction nodes with
  | nil => rfl
  | cons node nodes ih =>
    obtain ⟨first, others⟩ := List.forall_mem_cons.mp described
    rw [List.map_cons, nodesOfJson?, first, ih others]

/-- Whether members complete a component, after others that had none of some keys. -/
def Completes (keys : List String) (members : Properties) (component component' : Component) : Prop :=
  ∀ found : List String, (∀ key ∈ keys, key ∉ found) →
    componentOfMembers? members component found = some component'

/-- A member that may be left out comes before those that complete a component. -/
theorem Completes.optional {value : Option Json} {next : Component}
    (completes : Completes keys rest next component') (new : key ∉ keys)
    (absent : value = none → next = component)
    (present : ∀ v, value = some v → ∀ found, key ∉ found →
      componentOfMembers? ((key, v) :: rest) component found =
        componentOfMembers? rest next (key :: found)) :
    Completes (key :: keys) (optionalMember key value ++ rest) component component' := by
  intro found fresh
  obtain ⟨unseen, fresh⟩ := List.forall_mem_cons.mp fresh
  cases value with
  | none =>
    rw [← absent rfl]
    exact completes found fresh
  | some v =>
    rw [optionalMember, List.singleton_append, present v rfl found unseen]
    refine completes (key :: found) fun other member => ?_
    rw [List.mem_cons, not_or]
    exact ⟨fun same => new (same ▸ member), fresh other member⟩

/-- An id comes before the members that follow it. -/
theorem Completes.id {id : Option String}
    (completes : Completes keys rest { component with id } component') (new : "id" ∉ keys)
    (blank : component.id = none) :
    Completes ("id" :: keys) (optionalMember "id" (id.map string) ++ rest) component component' := by
  refine completes.optional new (fun absent => ?_) fun v is found unseen => ?_
  · rw [Option.map_eq_none_iff.mp absent, ← blank]
  · obtain ⟨text, rfl, rfl⟩ := Option.map_eq_some_iff.mp is
    simp [componentOfMembers?, Json.optionalString?, unseen]

/-- A name comes before the members that follow it. -/
theorem Completes.name {name : String}
    (completes : Completes keys rest { component with name } component')
    (new : "componentName" ∉ keys) :
    Completes ("componentName" :: keys) ([("componentName", string name)] ++ rest) component
      component' := by
  refine @Completes.optional _ _ _ _ _ (some (string name)) _ completes new nofun
    fun v is found unseen => ?_
  cases is
  simp [componentOfMembers?, Json.string?, unseen]

/-- Settled properties come before the members that follow them. -/
theorem Completes.properties {properties : Option Properties}
    (completes : Completes keys rest { component with properties } component')
    (new : "props" ∉ keys) (blank : component.properties = none)
    (settled : ∀ ms, properties = some ms → Json.settledMembers ms [] = ms) :
    Completes ("props" :: keys) (optionalMember "props" (properties.map object) ++ rest) component
      component' := by
  refine completes.optional new (fun absent => ?_) fun v is found unseen => ?_
  · rw [Option.map_eq_none_iff.mp absent, ← blank]
  · obtain ⟨ms, rfl, rfl⟩ := Option.map_eq_some_iff.mp is
    simp [componentOfMembers?, Json.properties?, unseen, settled ms rfl]

/-- Children that are described come before the members that follow them. -/
theorem Completes.children {children : Option (List Node)}
    (completes : Completes keys rest { component with children } component')
    (new : "children" ∉ keys) (blank : component.children = none)
    (described : ∀ nodes, children = some nodes → ∀ node ∈ nodes, node.Described) :
    Completes ("children" :: keys)
      (optionalMember "children" ((children.map fun nodes => nodes.map Node.toJson).map array) ++
        rest) component component' := by
  refine completes.optional new (fun absent => ?_) fun v is found unseen => ?_
  · rw [Option.map_eq_none_iff.mp (Option.map_eq_none_iff.mp absent), ← blank]
  · obtain ⟨vs, written, rfl⟩ := Option.map_eq_some_iff.mp is
    obtain ⟨nodes, rfl, rfl⟩ := Option.map_eq_some_iff.mp written
    simp [componentOfMembers?, childrenOfJson?, unseen, nodesOfJson?_map (described nodes rfl)]

/-- Settled settings that are not null are described as they are. -/
theorem settings_of_settled (settled : v.settled = v) (filled : v ≠ .null) : v.settings = some v := by
  cases v with
  | null => exact absurd rfl filled
  | _ => exact congrArg some settled

/-- Settled settings complete a component. -/
theorem completes_pageConfig {pageConfig : Option Json} (blank : component.pageConfig = none)
    (settled : ∀ v, pageConfig = some v → v.settled = v ∧ v ≠ .null) :
    Completes ["pageConfig"] (optionalMember "pageConfig" pageConfig) component
      { component with pageConfig } := by
  have last : Completes [] [] { component with pageConfig } { component with pageConfig } :=
    fun _ _ => by rw [componentOfMembers?]
  rw [← List.append_nil (optionalMember _ _)]
  refine last.optional List.not_mem_nil (fun absent => ?_) fun v is found unseen => ?_
  · rw [absent, ← blank]
  · obtain ⟨settled, filled⟩ := settled v is
    simp [componentOfMembers?, unseen, is, settings_of_settled settled filled]

/-- The JSON of a settled component describes it. -/
theorem Component.Settled.described (settled : component.Settled depth) :
    (Node.component component).Described := by
  obtain ⟨id, name, properties, children, pageConfig⟩ := component
  obtain ⟨ofProperties, ofChildren, ofConfig⟩ := settled
  have all : Completes ["id", "componentName", "props", "children", "pageConfig"]
      (componentMembers id name properties
        (children.map fun nodes => nodes.map Node.toJson) pageConfig)
      ⟨none, "", none, none, none⟩ ⟨id, name, properties, children, pageConfig⟩ := by
    simp only [componentMembers, List.append_assoc]
    refine .id (.name (.properties (.children (completes_pageConfig rfl ?_) (by decide) rfl ?_)
      (by decide) rfl ?_) (by decide)) (by decide) rfl
    · exact fun v is => ⟨(ofConfig v is).1, (ofConfig v is).2.1⟩
    · exact fun nodes is => (ofChildren nodes is).2
    · exact fun ms is => (ofProperties ms is).1
  change Node.ofJson? (Component.toJson ⟨id, name, properties, children, pageConfig⟩) = _
  rw [Component.toJson_eq, Node.ofJson?, all [] fun _ _ => List.not_mem_nil]
  rfl

/-- The JSON of a settled component is one level deeper than its parts. -/
theorem Component.Settled.depth_le (settled : component.Settled depth) :
    component.toJson.depth ≤ depth + 1 := by
  rw [component.toJson_eq, depth_object_le]
  refine (@forall_componentMembers (fun v => v.depth ≤ depth) _ _ _ _ _).mpr
    ⟨fun v written => ?_, Nat.zero_le _, fun v written => ?_, fun v written => ?_,
      fun v is => ?_⟩
  · obtain ⟨text, -, rfl⟩ := Option.map_eq_some_iff.mp written
    exact Nat.zero_le _
  · obtain ⟨ms, is, rfl⟩ := Option.map_eq_some_iff.mp written
    exact (settled.properties ms is).2
  · obtain ⟨vs, these, rfl⟩ := Option.map_eq_some_iff.mp written
    obtain ⟨nodes, is, rfl⟩ := Option.map_eq_some_iff.mp these
    exact (settled.children nodes is).1
  · exact (settled.pageConfig v is).2.2

/-! ## Components that were described -/

/-- A component without parts is settled. -/
theorem Component.Settled.blank {id : Option String} {name : String} :
    Component.Settled depth ⟨id, name, none, none, none⟩ := ⟨nofun, nofun, nofun⟩

/-- Whether a value describes children that are described by their JSON and no deeper than a number of
levels, if it describes any. -/
def DescribesChildren (depth : Nat) (v : Json) : Prop :=
  ∀ nodes, childrenOfJson? v = some (some nodes) →
    (array (nodes.map Node.toJson)).depth ≤ depth ∧ ∀ node ∈ nodes, node.Described

/-- Properties that a value describes are settled and no deeper. -/
theorem settled_of_properties? {ms : Properties} (deep : v.depth ≤ depth)
    (described : v.properties? = some (some ms)) :
    Json.settledMembers ms [] = ms ∧ (object ms).depth ≤ depth := by
  cases v with
  | object members =>
    cases described
    exact ⟨Json.settledMembers_settledMembers members, Json.depth_settledMembers_le deep⟩
  | null => cases described
  | _ => cases described

/-- Settings that a value describes are settled, not null and no deeper. -/
theorem settled_of_settings {v' : Json} (deep : v.depth ≤ depth) (described : v.settings = some v') :
    v'.settled = v' ∧ v' ≠ .null ∧ v'.depth ≤ depth := by
  have filled : v ≠ .null := by
    rintro rfl
    cases described
  have same : v' = v.settled := by
    cases v with
    | null => exact absurd rfl filled
    | _ => exact (Option.some.inj described).symm
  subst same
  exact ⟨v.settled_settled, Json.settled_ne_null filled, v.depth_settled_le.trans deep⟩

/-- A component stays settled with another id and name. -/
theorem Component.Settled.withTexts (settled : component.Settled depth) (id : Option String)
    (name : String) : Component.Settled depth { component with id, name } :=
  ⟨settled.properties, settled.children, settled.pageConfig⟩

/-- A component stays settled when it takes the properties that a value describes. -/
theorem Component.Settled.withProperties {properties : Option Properties}
    (settled : component.Settled depth) (deep : v.depth ≤ depth)
    (described : v.properties? = some properties) :
    Component.Settled depth { component with properties } := by
  refine ⟨fun ms is => ?_, settled.children, settled.pageConfig⟩
  cases is
  exact settled_of_properties? deep described

/-- A component stays settled when it takes the children that a value describes. -/
theorem Component.Settled.withChildren {children : Option (List Node)}
    (settled : component.Settled depth) (describes : DescribesChildren depth v)
    (described : childrenOfJson? v = some children) :
    Component.Settled depth { component with children } := by
  refine ⟨settled.properties, fun nodes is => ?_, settled.pageConfig⟩
  cases is
  exact describes nodes described

/-- A component stays settled when it takes the settings that a value describes. -/
theorem Component.Settled.withPageConfig (settled : component.Settled depth)
    (deep : v.depth ≤ depth) :
    Component.Settled depth { component with pageConfig := v.settings } :=
  ⟨settled.properties, settled.children, fun _ is => settled_of_settings deep is⟩

/-- A component of members is settled. -/
theorem settled_of_members {members : Properties} {found : List String}
    (deep : ∀ m ∈ members, m.2.depth ≤ depth)
    (describe : ∀ m ∈ members, DescribesChildren depth m.2) (before : component.Settled depth)
    (described : componentOfMembers? members component found = some component') :
    component'.Settled depth := by
  induction members generalizing component found with
  | nil =>
    rw [componentOfMembers?] at described
    cases described
    exact before
  | cons m members ih =>
    obtain ⟨key, v⟩ := m
    obtain ⟨shallow, deep⟩ := List.forall_mem_cons.mp deep
    obtain ⟨describes, describe⟩ := List.forall_mem_cons.mp describe
    rw [componentOfMembers?] at described
    split at described
    · cases described
    split at described
    · split at described
      · exact ih deep describe (before.withTexts _ _) described
      · cases described
    split at described
    · split at described
      · exact ih deep describe (before.withTexts _ _) described
      · cases described
    split at described
    · split at described
      · rename_i read
        exact ih deep describe (before.withProperties shallow read) described
      · cases described
    split at described
    · split at described
      · rename_i read
        exact ih deep describe (before.withChildren describes read) described
      · cases described
    split at described
    · exact ih deep describe (before.withPageConfig shallow) described
    · exact ih deep describe before described

/-- A component of items is settled. -/
theorem settled_of_items {items : List Json} {index : Nat}
    (deep : ∀ v ∈ items, v.depth ≤ depth) (describe : ∀ v ∈ items, DescribesChildren depth v)
    (before : component.Settled depth)
    (described : componentOfItems? index items component = some component') :
    component'.Settled depth := by
  induction items generalizing component index with
  | nil =>
    rw [componentOfItems?] at described
    cases described
    exact before
  | cons v items ih =>
    obtain ⟨shallow, deep⟩ := List.forall_mem_cons.mp deep
    obtain ⟨describes, describe⟩ := List.forall_mem_cons.mp describe
    rw [componentOfItems?.eq_def] at described
    dsimp only at described
    split at described
    · split at described
      · exact ih deep describe (before.withTexts _ _) described
      · cases described
    · split at described
      · exact ih deep describe (before.withTexts _ _) described
      · cases described
    · split at described
      · rename_i read
        exact ih deep describe (before.withProperties shallow read) described
      · cases described
    · split at described
      · rename_i read
        exact ih deep describe (before.withChildren describes read) described
      · cases described
    · exact ih deep describe (before.withPageConfig shallow) described
    · cases described

/-- Each of several nodes is described by one of several values. -/
theorem exists_of_nodesOfJson? {vs : List Json} (described : nodesOfJson? vs = some nodes) :
    ∀ node ∈ nodes, ∃ v ∈ vs, Node.ofJson? v = some node := by
  induction vs generalizing nodes with
  | nil =>
    cases described
    simp
  | cons v vs ih =>
    rw [nodesOfJson?] at described
    split at described
    · rename_i node others here later
      cases described
      refine List.forall_mem_cons.mpr ⟨⟨v, List.mem_cons_self, here⟩, fun other member => ?_⟩
      obtain ⟨v, among, there⟩ := ih later other member
      exact ⟨v, List.mem_cons_of_mem _ among, there⟩
    · cases described

/-- A node that a value describes is described by its own JSON, which is no deeper than the value, and
so are the children that a value describes. -/
theorem describes (v : Json) :
    (∀ node, Node.ofJson? v = some node → node.Described ∧ node.toJson.depth ≤ v.depth) ∧
      DescribesChildren v.depth v := by
  have component : ∀ {depth : Nat} {found : Option Component} {node : Node},
      (∀ c, found = some c → c.Settled depth) → found.map Node.component = some node →
      node.Described ∧ node.toJson.depth ≤ depth + 1 := by
    intro depth found node settled is
    obtain ⟨c, read, rfl⟩ := Option.map_eq_some_iff.mp is
    exact ⟨(settled c read).described, (settled c read).depth_le⟩
  induction v using Json.induction with
  | null => exact ⟨nofun, nofun⟩
  | bool => exact ⟨nofun, nofun⟩
  | number => exact ⟨nofun, nofun⟩
  | string text =>
    refine ⟨fun node is => ?_, nofun⟩
    cases is
    exact ⟨rfl, Nat.le_refl _⟩
  | array items ih =>
    have deep : ∀ item ∈ items, item.depth ≤ Json.depthOfItems items := by
      rw [← depth_array_le, Json.depth]
    have kept : ∀ item ∈ items, DescribesChildren (Json.depthOfItems items) item :=
      fun item member nodes is =>
        ⟨((ih item member).2 nodes is).1.trans (deep item member), ((ih item member).2 nodes is).2⟩
    constructor
    · intro node is
      rw [Node.ofJson?] at is
      rw [Json.depth]
      exact component (fun c read => settled_of_items deep kept .blank read) is
    · intro nodes is
      rw [childrenOfJson?] at is
      obtain ⟨nodes, read, same⟩ := Option.map_eq_some_iff.mp is
      cases same
      have each : ∀ node ∈ nodes, node.Described ∧ node.toJson.depth ≤ Json.depthOfItems items := by
        intro node member
        obtain ⟨item, among, describes⟩ := exists_of_nodesOfJson? read node member
        obtain ⟨described, shallow⟩ := (ih item among).1 node describes
        exact ⟨described, shallow.trans (deep item among)⟩
      refine ⟨?_, fun node member => (each node member).1⟩
      rw [Json.depth.eq_def (array items), depth_array_le, List.forall_mem_map]
      exact fun node member => (each node member).2
  | object members ih =>
    have deep : ∀ m ∈ members, m.2.depth ≤ Json.depthOfMembers members := by
      rw [← depth_object_le, Json.depth]
    have kept : ∀ m ∈ members, DescribesChildren (Json.depthOfMembers members) m.2 :=
      fun m member nodes is =>
        ⟨((ih m member).2 nodes is).1.trans (deep m member), ((ih m member).2 nodes is).2⟩
    refine ⟨fun node is => ?_, fun nodes is => by cases is⟩
    rw [Node.ofJson?] at is
    rw [Json.depth]
    exact component (fun c read => settled_of_members deep kept .blank read) is

/-! ## Reading nodes back -/

/-- A node that is read is described by its JSON, which is no deeper than the reader allows. -/
theorem Node.described_of_reader {input left : Json.Input}
    (accepted : Node.reader depth input = .ok (node, left)) :
    node.Described ∧ node.toJson.depth ≤ depth := by
  rw [reader] at accepted
  split at accepted
  · cases accepted
  · rename_i v left read
    split at accepted
    · rename_i is
      cases accepted
      obtain ⟨described, shallow⟩ := (describes v).1 node is
      exact ⟨described, shallow.trans (Json.depth_le_of_raw read)⟩
    · cases accepted

/-- A node that its JSON describes is read back. -/
theorem Node.Described.reads (described : node.Described) (shallow : node.toJson.depth ≤ depth)
    (faithful : node.toJson.Exact) : Json.Reads Node.reader depth node.toJson node := by
  intro rest ends
  have read := Json.reads_raw shallow faithful rest ends
  rw [Node.Described] at described
  simp only [reader, read, described]

end PageBuild
