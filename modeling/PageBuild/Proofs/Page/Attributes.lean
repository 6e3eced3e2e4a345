import Mathlib.Data.List.Nodup
import PageBuild.Page.Markup
import PageBuild.Proofs.Text.Kebab

/-!
# Names of attributes

The attributes of a component, and the declarations of a style, are written one after the other, each as
a name, a mark and a value (`Markup.attributeList_eq`, `Markup.style_eq`). Their names are the keys in
kebab case, also that of the style, so keys without hyphens get different names
(`Markup.nodup_map_kebabCase`).
-/
namespace PageBuild

namespace Markup

open Text (kebabCase)

variable {properties : Properties}

/-- Entries one after the other: each a name and, after a mark, its value. -/
def listing (separator mark : List Char) (entries : List (String × List Char)) : List Char :=
  List.intercalate separator (entries.map fun (name, value) => name.toList ++ mark ++ value)

/-- The value of an attribute in its quotes. -/
def quotedValue (key : String) (value : Json) : List Char :=
  if key = "style" then '"' :: (styleValue value ++ ['"']) else '\'' :: (rawValue value ++ ['\''])

/-- The attributes that properties are written as. -/
def attributes (properties : Properties) : List (String × List Char) :=
  (properties.filter (·.1 ≠ textProperty)).map fun (key, value) => (kebabCase key, quotedValue key value)

/-- The declarations that a style object is written as. -/
def declarations (members : Properties) : List (String × List Char) :=
  members.map fun (key, value) => (kebabCase key, rawValue value)

/-- An attribute is its key in kebab case and, after an equals sign, its value. -/
theorem attributeText_eq (key : String) (value : Json) :
    attributeText key value = (kebabCase key).toList ++ ['='] ++ quotedValue key value := by
  rw [attributeText, quotedValue]
  split
  case isTrue named =>
    -- The name of the style stands in the code as it is; it is its own kebab case.
    have name : (kebabCase key).toList = "style".toList := by
      rw [named]
      decide +kernel
    rw [name]
    simp
  case isFalse => simp

/-- Properties are written as their attributes, with a space between. -/
theorem attributeList_eq (properties : Properties) :
    attributeList properties = listing [' '] ['='] (attributes properties) := by
  rw [attributeList, listing, attributes, List.map_map]
  refine congrArg (List.intercalate [' ']) (List.map_congr_left fun property _ => ?_)
  exact attributeText_eq property.1 property.2

/-- A style object is written as its declarations, with a semicolon between. -/
theorem style_eq (members : Properties) :
    style members = listing [';'] [':', ' '] (declarations members) := by
  rw [style, listing, declarations, List.map_map]
  refine congrArg (List.intercalate [';']) (List.map_congr_left fun member _ => ?_)
  simp

/-- Different keys without hyphens are different in kebab case. -/
theorem nodup_map_kebabCase {keys : List String} (distinct : keys.Nodup)
    (plain : ∀ key ∈ keys, '-' ∉ key.toList) : (keys.map kebabCase).Nodup := by
  refine distinct.map_on fun first member second member' same => ?_
  exact Text.eq_of_kebabCase_eq (plain first member) (plain second member') same

/-- The names of attributes are the keys in kebab case. -/
theorem map_fst_attributes (properties : Properties) :
    (attributes properties).map Prod.fst =
      ((properties.filter (·.1 ≠ textProperty)).map Prod.fst).map kebabCase := by
  rw [attributes, List.map_map, List.map_map]
  rfl

/-- The names of declarations are the keys in kebab case. -/
theorem map_fst_declarations (members : Properties) :
    (declarations members).map Prod.fst = (members.map Prod.fst).map kebabCase := by
  rw [declarations, List.map_map, List.map_map]
  rfl

/-- Properties with different keys without hyphens have attributes of different names. -/
theorem nodup_attributes (distinct : (properties.map Prod.fst).Nodup)
    (plain : ∀ key ∈ properties.map Prod.fst, '-' ∉ key.toList) :
    ((attributes properties).map Prod.fst).Nodup := by
  have kept : ((properties.filter (·.1 ≠ textProperty)).map Prod.fst).Sublist
      (properties.map Prod.fst) := List.filter_sublist.map Prod.fst
  rw [map_fst_attributes]
  exact nodup_map_kebabCase (distinct.sublist kept) fun key member => plain key (kept.mem member)

/-- Members with different keys without hyphens are declarations of different names. -/
theorem nodup_declarations (distinct : (properties.map Prod.fst).Nodup)
    (plain : ∀ key ∈ properties.map Prod.fst, '-' ∉ key.toList) :
    ((declarations properties).map Prod.fst).Nodup := by
  rw [map_fst_declarations]
  exact nodup_map_kebabCase distinct plain

/-- Kebab case tells keys without hyphens apart: the attributes of a component, and the declarations of
a style object, have different names where no key has a hyphen. What is in kebab case has no capital and
stays as it is. -/
theorem kebabCase_separates :
    (∀ first second : String, '-' ∉ first.toList → '-' ∉ second.toList →
      kebabCase first = kebabCase second → first = second) ∧
    (∀ properties : Properties, (properties.map Prod.fst).Nodup →
      (∀ key ∈ properties.map Prod.fst, '-' ∉ key.toList) →
        attributeList properties = listing [' '] ['='] (attributes properties) ∧
          ((attributes properties).map Prod.fst).Nodup ∧
        style properties = listing [';'] [':', ' '] (declarations properties) ∧
          ((declarations properties).map Prod.fst).Nodup) ∧
    ∀ key : String, (∀ c ∈ (kebabCase key).toList, c.isUpper = false) ∧
      kebabCase (kebabCase key) = kebabCase key := by
  refine ⟨fun first second plain plain' same => Text.eq_of_kebabCase_eq plain plain' same,
    fun properties distinct plain => ?_, fun key => ?_⟩
  · exact ⟨attributeList_eq properties, nodup_attributes distinct plain, style_eq properties,
      nodup_declarations distinct plain⟩
  · exact ⟨fun c member => Text.isUpper_of_mem_kebabCase member, Text.kebabCase_kebabCase key⟩

/-- Capitals at the start, in a row and next to letters beyond ASCII are told apart. -/
theorem kebabCase_separates_capitals :
    ((attributes [("ID", .null), ("iD", .null), ("éÉ", .null), ("style", .null)]).map
      Prod.fst).Nodup := by
  have names := kebabCase_separates.2.1 [("ID", .null), ("iD", .null), ("éÉ", .null), ("style", .null)]
    (by decide) (by decide)
  exact names.2.1

end Markup

end PageBuild
