import PageBuild.Page.Source

/-!
# Forests of nodes

A component holds its children in an optional list inside a record. `Node.induction` is the induction
that a proof about nodes follows: what passes from the children of a component to the component holds
of every node.
-/
namespace PageBuild

/-- The children of a node; a text has none. -/
def Node.children : Node → List Node
  | .text _ => []
  | .component content => Component.childList content

/-- Induction on a node through the children of its components. -/
@[elab_as_elim]
theorem Node.induction {motive : Node → Prop} (text : ∀ content, motive (.text content))
    (component : ∀ content : Component, (∀ child ∈ content.childList, motive child) →
      motive (.component content)) (node : Node) : motive node :=
  @Node.rec motive (fun content => ∀ child ∈ Component.childList content, motive child)
    (fun children => ∀ child ∈ children.getD [], motive child)
    (fun nodes => ∀ node ∈ nodes, motive node)
    text component (fun _ _ _ _ _ held => held) (fun _ member => absurd member List.not_mem_nil)
    (fun _ held => held) (fun _ member => absurd member List.not_mem_nil)
    (fun _ _ first others => List.forall_mem_cons.mpr ⟨first, others⟩) node

/-! ## Component names -/

/-- The names of a forest are those of its nodes, one after the other. -/
theorem componentNamesOf_eq_flatMap (nodes : List Node) :
    componentNamesOf nodes = nodes.flatMap Node.componentNames := by
  induction nodes with
  | nil => rfl
  | cons node rest ih => rw [componentNamesOf, ih, List.flatMap_cons]

/-- The names of a component are its own and those of its children. -/
theorem Node.componentNames_component (content : Component) :
    (Node.component content).componentNames =
      content.name :: componentNamesOf content.childList := by
  obtain ⟨id, name, properties, children, config⟩ := content
  cases children <;> rfl

end PageBuild
