import PageBuild.Page.Markup
import PageBuild.Proofs.Json.Characters
import PageBuild.Proofs.Schema.Forest
import PageBuild.Proofs.Text.Kebab
import PageBuild.Text.Basic

/-!
# Outline of a markup

The tags of a markup are read from left to right, and a stack of the open elements pairs them up. The
markup of a forest holds the tags of its outline, which is the forest of its component names
(`Markup.holds_ofNodes`), and the tags of an outline nest to it (`Markup.Nesting.foldlM_tagsOf`). So
what is read back of a rendered forest is its outline (`Markup.Nesting.outline_renderNodes`).
-/
namespace PageBuild

namespace Markup

/-! ## Tags of a markup -/

/-- A tag. -/
inductive Tag where
  | opening (name : String)
  | closing (name : String)
  deriving DecidableEq, Repr

/-- The tag of a text between angle brackets. It has a name, and that of an opening tag ends at the
first white space. -/
def Tag.ofText? : List Char → Option Tag
  | '/' :: name => if name.isEmpty then none else some (.closing (String.ofList name))
  | text =>
    let name := text.takeWhile fun c => !Text.isBlank c
    if name.isEmpty then none else some (.opening (String.ofList name))

/-- The tags of a markup, after the text of a tag that has begun, last character first. Angle brackets
that do not pair up are refused. -/
def tagsFrom : Option (List Char) → List Char → Option (List Tag)
  | none, [] => some []
  | some _, [] => none
  | none, c :: rest =>
    if c = '<' then tagsFrom (some []) rest
    else if c = '>' then none
    else tagsFrom none rest
  | some text, c :: rest =>
    if c = '<' then none
    else if c = '>' then do
      let tag ← Tag.ofText? text.reverse
      let tags ← tagsFrom none rest
      return tag :: tags
    else tagsFrom (some (c :: text)) rest

/-- Whether a text has no angle brackets. -/
def Unbracketed (text : List Char) : Prop := ∀ c ∈ text, c ≠ '<' ∧ c ≠ '>'

instance (text : List Char) : Decidable (Unbracketed text) :=
  List.decidableBAll (fun c => c ≠ '<' ∧ c ≠ '>') text

/-- Whether a markup holds some tags, whatever follows it. -/
def Holds (markup : List Char) (tags : List Tag) : Prop :=
  ∀ rest, tagsFrom none (markup ++ rest) = (tagsFrom none rest).map (tags ++ ·)

variable {markup markup' text : List Char} {tags tags' : List Tag} {tag : Tag}

/-- A markup followed by another holds the tags of both. -/
theorem Holds.append (front : Holds markup tags) (back : Holds markup' tags') :
    Holds (markup ++ markup') (tags ++ tags') := by
  intro rest
  rw [List.append_assoc, front, back, Option.map_map]
  exact congrArg (Option.map · _) (funext fun later => (List.append_assoc tags tags' later).symm)

/-- A text without angle brackets holds no tags. -/
theorem Unbracketed.holds (plain : Unbracketed text) : Holds text [] := by
  intro rest
  induction text with
  | nil => simp
  | cons c text ih =>
    obtain ⟨⟨unopened, unclosed⟩, others⟩ := List.forall_mem_cons.mp plain
    rw [List.cons_append, tagsFrom, if_neg unopened, if_neg unclosed, ih others]

/-- The text of a tag is read to its end. -/
theorem tagsFrom_inside (plain : Unbracketed text) (read rest : List Char) :
    tagsFrom (some read) (text ++ '>' :: rest) =
      (Tag.ofText? (read.reverse ++ text)).bind fun tag =>
        (tagsFrom none rest).map (tag :: ·) := by
  -- The induction is on what is left of the tag, so what was read of it is general.
  induction text generalizing read with
  | nil =>
    rw [List.nil_append, tagsFrom, if_neg (by decide), if_pos rfl, List.append_nil]
    simp only [Option.bind_eq_bind, Option.pure_def, Option.map_eq_bind, Function.comp_def]
  | cons c text ih =>
    obtain ⟨⟨unopened, unclosed⟩, others⟩ := List.forall_mem_cons.mp plain
    rw [List.cons_append, tagsFrom, if_neg unopened, if_neg unclosed, ih others,
      List.reverse_cons, List.append_assoc, List.singleton_append]

/-- A text between angle brackets is a tag. -/
theorem Unbracketed.holds_tag (plain : Unbracketed text) (names : Tag.ofText? text = some tag) :
    Holds ('<' :: (text ++ ['>'])) [tag] := by
  intro rest
  rw [List.cons_append, List.append_assoc, List.singleton_append, tagsFrom, if_pos rfl,
    tagsFrom_inside plain, List.reverse_nil, List.nil_append, names]
  rfl

/-! ## Texts of a forest -/

mutual
/-- The texts of a node and of all below it: literal texts, component names, and the property keys
and strings of property values. -/
def nodeTexts : Node → List String
  | .text content => [content]
  | .component ⟨_, name, properties, none, _⟩ =>
    name :: Json.stringsOfMembers (properties.getD [])
  | .component ⟨_, name, properties, some children, _⟩ =>
    name :: (Json.stringsOfMembers (properties.getD []) ++ textsOf children)
termination_by structural node => node

/-- The texts of nodes and of all below them. -/
def textsOf : List Node → List String
  | [] => []
  | node :: rest => nodeTexts node ++ textsOf rest
termination_by structural nodes => nodes
end

/-- The texts of nodes are those of each. -/
theorem forall_textsOf {P : String → Prop} {nodes : List Node} :
    (∀ text ∈ textsOf nodes, P text) ↔ ∀ node ∈ nodes, ∀ text ∈ nodeTexts node, P text := by
  induction nodes with
  | nil => simp [textsOf]
  | cons node nodes ih => rw [textsOf, List.forall_mem_append, ih, List.forall_mem_cons]

/-- The texts of a component are its name, those of its properties and those of its children. -/
theorem forall_nodeTexts_component {P : String → Prop} {content : Component} :
    (∀ text ∈ nodeTexts (.component content), P text) ↔
      P content.name ∧
        (∀ text ∈ Json.stringsOfMembers (content.properties.getD []), P text) ∧
          ∀ text ∈ textsOf content.childList, P text := by
  obtain ⟨id, name, properties, children, config⟩ := content
  cases children with
  | none => simp [nodeTexts, textsOf, Component.childList]
  | some children =>
    rw [nodeTexts, List.forall_mem_cons, List.forall_mem_append]
    rfl

/-! ## Text between angle brackets -/

section Unbracketed

variable {key : String} {value : Json} {properties : Properties}

/-- Characters one after the other have no angle brackets where each has none. -/
theorem unbracketed_cons {c : Char} :
    Unbracketed (c :: text) ↔ (c ≠ '<' ∧ c ≠ '>') ∧ Unbracketed text :=
  List.forall_mem_cons

/-- Texts one after the other have no angle brackets where each has none. -/
theorem unbracketed_append {back : List Char} :
    Unbracketed (text ++ back) ↔ Unbracketed text ∧ Unbracketed back :=
  List.forall_mem_append

/-- Texts without angle brackets, joined by others, have none. -/
theorem unbracketed_intercalate {separator : List Char} {pieces : List (List Char)}
    (between : Unbracketed separator) (each : ∀ piece ∈ pieces, Unbracketed piece) :
    Unbracketed (List.intercalate separator pieces) := by
  induction pieces with
  | nil => exact List.forall_mem_nil _
  | cons piece pieces ih =>
    obtain ⟨first, others⟩ := List.forall_mem_cons.mp each
    cases pieces with
    | nil => rwa [List.intercalate_singleton]
    | cons next pieces =>
      rw [List.intercalate_cons_cons]
      exact unbracketed_append.mpr ⟨unbracketed_append.mpr ⟨first, between⟩, ih others⟩

/-- The marks of JSON are no angle brackets. -/
theorem ne_of_isMark (c : Char) (mark : Json.isMark c = true) : c ≠ '<' ∧ c ≠ '>' := by
  constructor <;> rintro rfl <;> exact absurd mark (by decide)

/-- The small letter of a capital stands behind the marks of ASCII. -/
theorem le_toLower {c : Char} (capital : c.isUpper = true) : 97 ≤ c.toLower.toNat := by
  have range := Text.isUpper_iff.mp capital
  rw [Text.toNat_toLower capital]
  omega

/-- A key in kebab case has angle brackets only where the key has. -/
theorem unbracketed_kebabCase (plain : Unbracketed key.toList) :
    Unbracketed (Text.kebabCase key).toList := by
  rw [Text.kebabCase, String.toList_ofList]
  intro d member
  obtain ⟨c, inKey, made⟩ := List.mem_flatMap.mp member
  rw [Text.kebabChar] at made
  split at made
  case isTrue capital =>
    rcases List.mem_cons.mp made with rfl | made
    · decide
    · have behind := List.mem_singleton.mp made ▸ le_toLower capital
      constructor <;> rintro rfl <;> exact absurd behind (by decide)
  case isFalse => exact List.mem_singleton.mp made ▸ plain c inKey

/-- A value has angle brackets only where its strings have. -/
theorem unbracketed_rawValue (plain : ∀ text ∈ value.strings, Unbracketed text.toList) :
    Unbracketed (rawValue value) := by
  cases value with
  | string text => exact plain text (List.mem_singleton_self text)
  | _ => exact Json.forall_write ne_of_isMark plain

/-- A style has angle brackets only where its keys and the strings of its values have. -/
theorem unbracketed_styleValue (plain : ∀ text ∈ value.strings, Unbracketed text.toList) :
    Unbracketed (styleValue value) := by
  cases value with
  | object members =>
    rw [Json.forall_strings_object] at plain
    refine unbracketed_intercalate (by decide) fun piece member => ?_
    obtain ⟨⟨key, value⟩, inside, rfl⟩ := List.mem_map.mp member
    obtain ⟨name, strings⟩ := plain _ inside
    simp only [unbracketed_append, unbracketed_cons]
    exact ⟨unbracketed_kebabCase name, by decide, by decide, unbracketed_rawValue strings⟩
  | _ => exact unbracketed_rawValue plain

/-- An attribute has angle brackets only where its key and the strings of its value have. -/
theorem unbracketed_attributeText (plain : Unbracketed key.toList)
    (strings : ∀ text ∈ value.strings, Unbracketed text.toList) :
    Unbracketed (attributeText key value) := by
  rw [attributeText]
  split
  · simp only [unbracketed_append]
    exact ⟨⟨by decide, unbracketed_styleValue strings⟩, by decide⟩
  · simp only [unbracketed_append, unbracketed_cons]
    exact ⟨unbracketed_kebabCase plain, by decide, by decide, unbracketed_rawValue strings, by decide,
      by decide⟩

/-- Attributes have angle brackets only where the texts of the properties have. -/
theorem unbracketed_attributeList
    (plain : ∀ text ∈ Json.stringsOfMembers properties, Unbracketed text.toList) :
    Unbracketed (attributeList properties) := by
  have each := Json.forall_strings_object.mp plain
  refine unbracketed_intercalate (by decide) fun piece member => ?_
  obtain ⟨⟨key, value⟩, inside, rfl⟩ := List.mem_map.mp member
  obtain ⟨name, strings⟩ := each _ (List.mem_filter.mp inside).1
  exact unbracketed_attributeText name strings

/-- The text of a component has angle brackets only where the texts of the properties have. -/
theorem unbracketed_ownText
    (plain : ∀ text ∈ Json.stringsOfMembers properties, Unbracketed text.toList) :
    Unbracketed (ownText properties) := by
  have each := Json.forall_strings_object.mp plain
  rw [ownText]
  split
  case h_1 value found =>
    obtain ⟨before, after, rfl, -⟩ := List.lookup_eq_some_iff.mp found
    split
    · exact unbracketed_rawValue (each _ (List.mem_append_right _ List.mem_cons_self)).2
    · exact List.forall_mem_nil _
  case h_2 => exact List.forall_mem_nil _

end Unbracketed

/-! ## Tags of a component -/

section Component

variable {name : String} {properties : Properties}

/-- Whether a text may stand as the name of a tag. -/
def IsTagName (name : String) : Prop :=
  name ≠ "" ∧ name.toList.any Text.isBlank = false ∧ name.toList.head? ≠ some '/'

instance (name : String) : Decidable (IsTagName name) :=
  inferInstanceAs (Decidable (_ ∧ _ ∧ _))

/-- A name without white space is followed by nothing or by a space in an opening tag. -/
theorem ofText?_opening (names : IsTagName name) {after : List Char}
    (apart : after.head?.all Text.isBlank = true) :
    Tag.ofText? (name.toList ++ after) = some (.opening name) := by
  obtain ⟨nonempty, unblank, unslashed⟩ := names
  -- The name ends neither early, since it has no white space, nor late.
  have whole : (name.toList ++ after).takeWhile (fun c => !Text.isBlank c) = name.toList := by
    have stops : after.takeWhile (fun c => !Text.isBlank c) = [] := by
      cases after with
      | nil => rfl
      | cons c after => simp_all
    rw [List.takeWhile_append_of_pos (by simpa using unblank), stops, List.append_nil]
  have filled : name.toList.isEmpty = false := by simpa using nonempty
  rw [Tag.ofText?, whole, filled, String.ofList_toList]
  · rfl
  · intro rest slash
    cases start : name.toList with
    | nil => simp [start] at filled
    | cons c others =>
      rw [start] at unslashed slash
      exact unslashed (congrArg some (List.cons.inj slash).1)

/-- The opening tag of a component is a tag of its name. -/
theorem holds_openTag (names : IsTagName name) (plain : Unbracketed name.toList)
    (texts : ∀ text ∈ Json.stringsOfMembers properties, Unbracketed text.toList) :
    Holds (openTag name properties) [.opening name] := by
  have attributes := unbracketed_attributeList texts
  refine Unbracketed.holds_tag ?_ ?_
  · refine unbracketed_append.mpr ⟨plain, ?_⟩
    split
    · exact List.forall_mem_nil _
    · exact unbracketed_cons.mpr ⟨by decide, attributes⟩
  · refine ofText?_opening names ?_
    split
    · rfl
    · simp [Text.isBlank]

/-- The closing tag of a component is a tag of its name. -/
theorem holds_closeTag (nonempty : name ≠ "") (plain : Unbracketed name.toList) :
    Holds (closeTag name) [.closing name] := by
  have filled : name.toList.isEmpty = false := by simpa using nonempty
  have tag : Tag.ofText? ('/' :: name.toList) = some (.closing name) := by
    rw [Tag.ofText?, filled, String.ofList_toList]
    rfl
  exact Unbracketed.holds_tag (unbracketed_cons.mpr ⟨by decide, plain⟩) tag

end Component

/-! ## Outlines -/

/-- An element: its name and the elements inside. -/
inductive Element where
  | mk (name : String) (inside : List Element)
  deriving Repr

mutual
/-- The tags of an element. -/
def tagsOfElement : Element → List Tag
  | ⟨name, inside⟩ => .opening name :: (tagsOf inside ++ [.closing name])
termination_by structural element => element

/-- The tags of elements, in order. -/
def tagsOf : List Element → List Tag
  | [] => []
  | element :: rest => tagsOfElement element ++ tagsOf rest
termination_by structural elements => elements
end

mutual
/-- The outline of a node: a component is an element of its name with the outline of its children
inside, and a text is nothing. -/
def outlineOfNode : Node → List Element
  | .text _ => []
  | .component ⟨_, name, _, none, _⟩ => [⟨name, []⟩]
  | .component ⟨_, name, _, some children, _⟩ => [⟨name, outlineOf children⟩]
termination_by structural node => node

/-- The outline of nodes, in order. -/
def outlineOf : List Node → List Element
  | [] => []
  | node :: rest => outlineOfNode node ++ outlineOf rest
termination_by structural nodes => nodes
end

/-- Induction on an element through the elements inside. -/
@[elab_as_elim]
theorem Element.induction {motive : Element → Prop}
    (mk : ∀ name inside, (∀ element ∈ inside, motive element) → motive ⟨name, inside⟩)
    (element : Element) : motive element :=
  @Element.rec motive (fun inside => ∀ element ∈ inside, motive element) mk
    (fun _ member => absurd member List.not_mem_nil)
    (fun _ _ first others => List.forall_mem_cons.mpr ⟨first, others⟩) element

/-- Elements one after the other have the tags of each. -/
theorem tagsOf_append (front back : List Element) :
    tagsOf (front ++ back) = tagsOf front ++ tagsOf back := by
  induction front with
  | nil => rfl
  | cons element front ih => rw [List.cons_append, tagsOf, tagsOf, ih, List.append_assoc]

/-- The outline of a component is one element. -/
theorem outlineOfNode_component (content : Component) :
    outlineOfNode (.component content) = [⟨content.name, outlineOf content.childList⟩] := by
  obtain ⟨id, name, properties, children, config⟩ := content
  cases children <;> rfl

/-- The markup of a component stands between its tags. -/
theorem ofNode_component (content : Component) :
    ofNode (.component content) =
      openTag content.name (content.properties.getD []) ++ ownText (content.properties.getD []) ++
        ofNodes content.childList ++ closeTag content.name := by
  obtain ⟨id, name, properties, children, config⟩ := content
  cases children with
  | none => rw [ofNode, Component.childList, Option.getD_none, ofNodes, List.append_nil]
  | some children => rfl

/-- Nodes on lines of their own hold the tags of their outline where each does. -/
theorem holds_afterFirst {nodes : List Node}
    (each : ∀ node ∈ nodes, Holds (ofNode node) (tagsOf (outlineOfNode node))) :
    Holds (afterFirst nodes) (tagsOf (outlineOf nodes)) := by
  induction nodes with
  | nil => exact Unbracketed.holds (List.forall_mem_nil _)
  | cons node rest ih =>
    obtain ⟨first, others⟩ := List.forall_mem_cons.mp each
    have line : Holds ['\n'] [] := Unbracketed.holds (by decide)
    rw [outlineOf, tagsOf_append]
    exact line.append (first.append (ih others))

/-- Nodes a line each hold the tags of their outline where each does. -/
theorem holds_of_nodes {nodes : List Node}
    (each : ∀ node ∈ nodes, Holds (ofNode node) (tagsOf (outlineOfNode node))) :
    Holds (ofNodes nodes) (tagsOf (outlineOf nodes)) := by
  cases nodes with
  | nil => exact Unbracketed.holds (List.forall_mem_nil _)
  | cons node rest =>
    obtain ⟨first, others⟩ := List.forall_mem_cons.mp each
    rw [outlineOf, tagsOf_append]
    exact first.append (holds_afterFirst others)

/-- The markup of a node holds the tags of its outline. -/
theorem holds_ofNode (node : Node) (named : ∀ name ∈ node.componentNames, IsTagName name)
    (plain : ∀ text ∈ nodeTexts node, Unbracketed text.toList) :
    Holds (ofNode node) (tagsOf (outlineOfNode node)) := by
  induction node using Node.induction with
  | text content => exact Unbracketed.holds (plain content (List.mem_singleton_self content))
  | component content ih =>
    rw [Node.componentNames_component, List.forall_mem_cons, componentNamesOf_eq_flatMap,
      List.forall_mem_flatMap] at named
    rw [forall_nodeTexts_component, forall_textsOf] at plain
    obtain ⟨name, below⟩ := named
    obtain ⟨plainName, properties, texts⟩ := plain
    have inside : Holds (ofNodes content.childList) (tagsOf (outlineOf content.childList)) :=
      holds_of_nodes fun child member => ih child member (below child member) (texts child member)
    have own := (unbracketed_ownText properties).holds
    have whole := (((holds_openTag name plainName properties).append own).append inside).append
      (holds_closeTag name.1 plainName)
    rw [ofNode_component, outlineOfNode_component, tagsOf, tagsOf, tagsOfElement, List.append_nil]
    simpa using whole

/-- The markup of a forest holds the tags of its outline. -/
theorem holds_ofNodes {nodes : List Node} (named : ∀ name ∈ componentNamesOf nodes, IsTagName name)
    (plain : ∀ text ∈ textsOf nodes, Unbracketed text.toList) :
    Holds (ofNodes nodes) (tagsOf (outlineOf nodes)) := by
  rw [componentNamesOf_eq_flatMap, List.forall_mem_flatMap] at named
  rw [forall_textsOf] at plain
  exact holds_of_nodes fun node member => holds_ofNode node (named node member) (plain node member)

/-! ## Tags paired up -/

/-- What has been read of the elements of a markup. -/
structure Nesting where
  /-- The elements read inside of the innermost open one. -/
  elements : List Element
  /-- The open elements, innermost first, each by its name and the elements before it. -/
  opened : List (String × List Element)
  deriving Repr

namespace Nesting

/-- Take a tag. A closing tag closes the innermost open element and must have its name. -/
def take (nesting : Nesting) : Tag → Option Nesting
  | .opening name => some ⟨[], (name, nesting.elements) :: nesting.opened⟩
  | .closing name =>
    match nesting.opened with
    | [] => none
    | (innermost, before) :: around =>
      if name = innermost then some ⟨before ++ [⟨name, nesting.elements⟩], around⟩ else none

/-- The tags of a markup, taken from left to right. -/
def ofMarkup? (markup : String) : Option Nesting := do
  let tags ← tagsFrom none markup.toList
  tags.foldlM take ⟨[], []⟩

/-- The tags of elements add these elements to what has been read where those of each do. -/
theorem foldlM_of_elements {elements : List Element}
    (each : ∀ element ∈ elements, ∀ nesting : Nesting, (tagsOfElement element).foldlM take nesting =
      some { nesting with elements := nesting.elements ++ [element] }) (nesting : Nesting) :
    (tagsOf elements).foldlM take nesting =
      some { nesting with elements := nesting.elements ++ elements } := by
  induction elements generalizing nesting with
  | nil => simp [tagsOf]
  | cons element rest ih =>
    obtain ⟨first, others⟩ := List.forall_mem_cons.mp each
    rw [tagsOf, List.foldlM_append, first nesting, Option.bind_eq_bind, Option.bind_some, ih others,
      List.append_assoc, List.singleton_append]

/-- The tags of an element add this element to what has been read. -/
theorem foldlM_tagsOfElement (element : Element) (nesting : Nesting) :
    (tagsOfElement element).foldlM take nesting =
      some { nesting with elements := nesting.elements ++ [element] } := by
  induction element using Element.induction generalizing nesting with
  | mk name inside ih =>
    have opened : take nesting (.opening name) =
        some ⟨[], (name, nesting.elements) :: nesting.opened⟩ := rfl
    have closed : take ⟨inside, (name, nesting.elements) :: nesting.opened⟩ (.closing name) =
        some ⟨nesting.elements ++ [⟨name, inside⟩], nesting.opened⟩ := if_pos rfl
    rw [tagsOfElement, List.foldlM_cons, opened, Option.bind_eq_bind, Option.bind_some,
      List.foldlM_append, foldlM_of_elements ih, Option.bind_eq_bind, Option.bind_some,
      List.nil_append, List.foldlM_cons, closed]
    rfl

/-- The tags of elements add these elements to what has been read. -/
theorem foldlM_tagsOf (elements : List Element) (nesting : Nesting) :
    (tagsOf elements).foldlM take nesting =
      some { nesting with elements := nesting.elements ++ elements } :=
  foldlM_of_elements (fun element _ => foldlM_tagsOfElement element) nesting

/-- Where the component names of a forest may stand in tags and no text of it has angle brackets, the
tags of its markup pair up, none is left open, and the elements read are the outline of the forest. -/
theorem outline_renderNodes (nodes : List Node)
    (named : ∀ name ∈ componentNamesOf nodes, IsTagName name)
    (plain : ∀ text ∈ textsOf nodes, Unbracketed text.toList) :
    ofMarkup? (renderNodes nodes) = some ⟨outlineOf nodes, []⟩ := by
  have tags : tagsFrom none (ofNodes nodes) = some (tagsOf (outlineOf nodes)) := by
    simpa [tagsFrom] using holds_ofNodes named plain []
  rw [ofMarkup?, renderNodes, String.toList_ofList, tags, Option.bind_eq_bind, Option.bind_some,
    foldlM_tagsOf, List.nil_append]

/-- A list of two items, one of them with an icon, a style and a text between them. -/
def sampleForest : List Node :=
  [.component ⟨none, "List", some [("text", .string "Title")], some
    [.component ⟨none, "Item", some [("style", .object [("fontSize", .string "12px")])], none, none⟩,
      .text "between",
      .component ⟨none, "Item", none, some [.component ⟨none, "Icon", none, none, none⟩], none⟩],
    none⟩,
   .text "after"]

/-- The list of two items is read back as an outline of the same nesting. -/
theorem outline_sampleForest :
    (∀ name ∈ componentNamesOf sampleForest, IsTagName name) ∧
    (∀ text ∈ textsOf sampleForest, Unbracketed text.toList) ∧
    ofMarkup? (renderNodes sampleForest) =
      some ⟨[⟨"List", [⟨"Item", []⟩, ⟨"Item", [⟨"Icon", []⟩]⟩]⟩], []⟩ :=
  have named : ∀ name ∈ componentNamesOf sampleForest, IsTagName name := by decide
  have plain : ∀ text ∈ textsOf sampleForest, Unbracketed text.toList := by decide
  ⟨named, plain, outline_renderNodes sampleForest named plain⟩

end Nesting

end Markup

end PageBuild
