import PageBuild.Json.Write
import PageBuild.Schema.Basic
import PageBuild.Text.Basic

/-!
# Markup

The markup of a component tree: each component is an opening tag with its properties as
attributes, its text, its children a line each, and a closing tag; literal text stands as it is.
Attribute values are single-quoted, apart from the style, which is double-quoted and lists the
declarations of a style object.
-/
namespace PageBuild

namespace Markup

/-- A value in markup: strings bare, all else as JSON. -/
def rawValue : Json → List Char
  | .string value => value.toList
  | value => value.write

/-- Whether a value of the text property is shown. -/
def isTruthy : Json → Bool
  | .null => false
  | .bool value => value
  | .number value => !value.isZero
  | .string value => value ≠ ""
  | .array _ => true
  | .object _ => true

/-- The declarations of a style object. -/
def style (members : Properties) : List Char :=
  List.intercalate [';']
    (members.map fun (key, value) => (Text.kebabCase key).toList ++ ':' :: ' ' :: rawValue value)

/-- The value of the style attribute. -/
def styleValue : Json → List Char
  | .object members => style members
  | value => rawValue value

/-- A property as an attribute. -/
def attributeText (key : String) (value : Json) : List Char :=
  if key = "style" then "style=\"".toList ++ styleValue value ++ ['"']
  else (Text.kebabCase key).toList ++ '=' :: '\'' :: (rawValue value ++ ['\''])

/-- The property that holds the text of a component instead of an attribute. -/
def textProperty : String := "text"

/-- The attributes of a component's properties, in order. -/
def attributeList (properties : Properties) : List Char :=
  List.intercalate [' ']
    ((properties.filter (·.1 ≠ textProperty)).map fun (key, value) => attributeText key value)

/-- The opening tag of a component. -/
def openTag (name : String) (properties : Properties) : List Char :=
  let attributes := attributeList properties
  '<' :: (name.toList ++ (if attributes.isEmpty then [] else ' ' :: attributes) ++ ['>'])

/-- The closing tag of a component. -/
def closeTag (name : String) : List Char := '<' :: '/' :: (name.toList ++ ['>'])

/-- The text that a component's properties give it. -/
def ownText (properties : Properties) : List Char :=
  match Json.member? textProperty properties with
  | some value => if isTruthy value then rawValue value else []
  | none => []

mutual
/-- The markup of a node. -/
def ofNode : Node → List Char
  | .text content => content.toList
  | .component ⟨_, name, properties, none, _⟩ =>
    openTag name (properties.getD []) ++ ownText (properties.getD []) ++ closeTag name
  | .component ⟨_, name, properties, some children, _⟩ =>
    openTag name (properties.getD []) ++ ownText (properties.getD []) ++ ofNodes children ++
      closeTag name
termination_by structural node => node

/-- The markup of nodes, a line each. -/
def ofNodes : List Node → List Char
  | [] => []
  | node :: rest => ofNode node ++ afterFirst rest
termination_by structural nodes => nodes

/-- The markup of the nodes after the first, each on a new line. -/
def afterFirst : List Node → List Char
  | [] => []
  | node :: rest => '\n' :: (ofNode node ++ afterFirst rest)
termination_by structural nodes => nodes
end

end Markup

/-- The markup of a list of nodes. -/
def renderNodes (nodes : List Node) : String := String.ofList (Markup.ofNodes nodes)

end PageBuild
