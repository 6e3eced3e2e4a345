import PageBuild.Proofs.Component.Index
import PageBuild.Proofs.Schema.Forest

/-!
# Uses of components

A path leads down a forest: the place of a root, then that of a child, and so on. Paths in
lexicographic order are the order of opening tags, a parent before its children. The component names
of a forest are enumerated in this order (`enumerates_componentNamesOf`), so the imports of a page are
the statements of the components it uses, by the first use of each (`PageSource.imports_by_first_use`).
-/
namespace PageBuild

/-! ## Paths -/

/-- The node that a path leads to from a node. -/
def Node.at? : Node → List Nat → Option Node
  | node, [] => some node
  | node, place :: path => node.children[place]?.bind fun child => child.at? path

/-- The node that a path leads to in a forest. -/
def nodeAt? (nodes : List Node) : List Nat → Option Node
  | [] => none
  | place :: path => nodes[place]?.bind fun node => node.at? path

/-- Whether the component at a path from a node has a name. -/
def Node.NamedAt (node : Node) (path : List Nat) (name : String) : Prop :=
  ∃ content : Component, node.at? path = some (.component content) ∧ content.name = name

/-- Whether the component at a path of a forest has a name. -/
def NamedAt (nodes : List Node) (path : List Nat) (name : String) : Prop :=
  ∃ content : Component, nodeAt? nodes path = some (.component content) ∧ content.name = name

variable {nodes : List Node} {path : List Nat} {name : String}

/-- A path of a forest starts with the place of a root. -/
theorem namedAt_iff :
    NamedAt nodes path name ↔ ∃ place node rest, path = place :: rest ∧ nodes[place]? = some node ∧
      node.NamedAt rest name := by
  cases path with
  | nil => simp [NamedAt, nodeAt?]
  | cons place rest =>
    simp only [NamedAt, nodeAt?, Option.bind_eq_some_iff, List.cons.injEq, Node.NamedAt]
    constructor
    · rintro ⟨content, ⟨node, root, reached⟩, rfl⟩
      exact ⟨place, node, rest, ⟨rfl, rfl⟩, root, content, reached, rfl⟩
    · rintro ⟨_, node, _, ⟨rfl, rfl⟩, root, content, reached, rfl⟩
      exact ⟨content, ⟨node, root, reached⟩, rfl⟩

/-- No component stands at a text or below it. -/
theorem Node.not_namedAt_text {content : String} : ¬(Node.text content).NamedAt path name := by
  rintro ⟨component, reached, -⟩
  cases path <;> simp [Node.at?, Node.children] at reached

/-- A component stands at its own path, and the others below it at paths of its children. -/
theorem Node.namedAt_component {content : Component} :
    (Node.component content).NamedAt path name ↔
      path = [] ∧ name = content.name ∨ PageBuild.NamedAt content.childList path name := by
  cases path with
  | nil => simp [Node.NamedAt, PageBuild.NamedAt, nodeAt?, Node.at?, eq_comm]
  | cons place rest =>
    simp [Node.NamedAt, PageBuild.NamedAt, nodeAt?, Node.at?, Node.children]

/-! ## Component names in order -/

/-- The names of a forest stand in the order of their paths where those of each node do. -/
theorem enumerates_of_nodes
    (each : ∀ node ∈ nodes, Enumerates node.NamedAt node.componentNames) :
    Enumerates (NamedAt nodes) (componentNamesOf nodes) := by
  rw [componentNamesOf_eq_flatMap]
  refine ((Enumerates.getElem? nodes).flatMap List.cons each
    (fun before => List.cons_lt_cons_iff.mpr (.inl before))
    (fun before => List.cons_lt_cons_iff.mpr (.inr ⟨rfl, before⟩))).congr fun path name => ?_
  exact namedAt_iff.symm

/-- The names of a node stand in the order of their paths. -/
theorem Node.enumerates_componentNames (node : Node) :
    Enumerates node.NamedAt node.componentNames := by
  induction node using Node.induction with
  | text content => exact .nil fun _ _ => Node.not_namedAt_text
  | component content ih =>
    rw [Node.componentNames_component, ← List.singleton_append]
    refine ((Enumerates.singleton [] content.name).append (enumerates_of_nodes ih) ?_).congr
      fun path name => Node.namedAt_component.symm
    rintro _ _ other name ⟨rfl, rfl⟩ below
    obtain ⟨place, _, rest, rfl, -⟩ := namedAt_iff.mp below
    exact List.nil_lt_cons place rest

/-- The component names of a forest stand in the order of their paths. -/
theorem enumerates_componentNamesOf (nodes : List Node) :
    Enumerates (NamedAt nodes) (componentNamesOf nodes) :=
  enumerates_of_nodes fun node _ => node.enumerates_componentNames

/-! ## Imports in order -/

namespace PageSource

/-- Whether a statement imports the component at a path of a forest: the component has a name, and the
statement is that of the first entry of this name. -/
def UsedAt (nodes : List Node) (entries : List ComponentEntry) (path : List Nat) (statement : String) :
    Prop :=
  ∃ (content : Component) (entry : ComponentEntry),
    nodeAt? nodes path = some (.component content) ∧ content.name ≠ "" ∧
      (entries.find? fun entry => entry.name = content.name) = some entry ∧
        entry.importStatement = statement

/-- The statement of a name in the index is that of the first entry of the name. -/
theorem map_find?_ofEntries {entries : List ComponentEntry} {statement : String} :
    ((ComponentIndex.ofEntries entries).find? name).map ComponentEntry.importStatement =
        some statement ↔
      name ≠ "" ∧ ∃ entry, (entries.find? fun entry => entry.name = name) = some entry ∧
        entry.importStatement = statement := by
  rw [ComponentIndex.find?_ofEntries, Option.map_eq_some_iff]
  by_cases unnamed : name = ""
  · simp [unnamed, List.find?_eq_some_iff_append]
  · have same : (fun entry : ComponentEntry => decide (entry.name ≠ "" ∧ entry.name = name)) =
        fun entry => decide (entry.name = name) := by
      funext entry
      by_cases hit : entry.name = name <;> simp [hit, unnamed]
    simp only [same, ne_eq, unnamed, not_false_eq_true, true_and]

/-- The imports of a page are the statements of the components that it uses, each once, in the order of
first use. Texts and components without an entry use nothing; what stands below the latter is used. -/
theorem imports_by_first_use (nodes : List Node) (entries : List ComponentEntry) :
    (ofNodes nodes (ComponentIndex.ofEntries entries)).imports.Nodup ∧
    (∀ statement, statement ∈ (ofNodes nodes (ComponentIndex.ofEntries entries)).imports ↔
      ∃ path, UsedAt nodes entries path statement) ∧
    Enumerates (FirstOccurs (UsedAt nodes entries) id)
      (ofNodes nodes (ComponentIndex.ofEntries entries)).imports := by
  have uses : Enumerates (UsedAt nodes entries)
      ((componentNamesOf nodes).filterMap fun name =>
        ((ComponentIndex.ofEntries entries).find? name).map ComponentEntry.importStatement) := by
    refine ((enumerates_componentNamesOf nodes).filterMap _).congr fun path statement => ?_
    simp only [map_find?_ofEntries]
    constructor
    · rintro ⟨_, ⟨content, reached, rfl⟩, named, entry, found, same⟩
      exact ⟨content, entry, reached, named, found, same⟩
    · rintro ⟨content, entry, reached, named, found, same⟩
      exact ⟨_, ⟨content, reached, rfl⟩, named, entry, found, same⟩
  exact ⟨nodup_distinct, fun statement => mem_distinct.trans uses.mem_iff, uses.distinctBy id⟩

end PageSource

end PageBuild
