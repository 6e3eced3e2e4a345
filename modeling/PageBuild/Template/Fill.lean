import PageBuild.Json.Write
import PageBuild.Template.Element
import PageBuild.Text.Basic

/-!
# Filling templates

A template is filled from JSON data. Values are looked up from the innermost block outwards only
where a reference climbs; what is missing shows nothing. The helpers are `if`, `unless`, `with`,
`each` and `lookup`, and any other one is an error.
-/
namespace PageBuild.Template

/-- Why a template cannot be filled. -/
inductive Flaw where
  /-- The text is no template. -/
  | malformed
  | noHelper (name : String)
  /-- A helper lacks a parameter. -/
  | noParameter (helper : String) (index : Nat)
  /-- An item of an array is asked for by something that is no number. -/
  | noIndex (key : String)
  /-- Another template is to be inserted, and there is none. -/
  | noTemplate
  deriving DecidableEq, Repr

/-- The words for a flaw. -/
def Flaw.message : Flaw → String
  | malformed => "invalid template"
  | noHelper name => "helper not defined: " ++ name
  | noParameter helper index =>
    "helper " ++ helper ++ " lacks parameter " ++ toString index
  | noIndex key => "invalid array index: " ++ key
  | noTemplate => "partial not found"

/-- Something that a template yields unless it has a flaw. -/
abbrev Filled (α : Type) := Except Flaw α

/-- A block that is being filled: its value and the variables of its loop. -/
structure Scope where
  value : Json
  loopValues : List (String × Json)

/-- The data that a template is filled from, and the blocks around, innermost first; the last
one is the whole template. -/
structure View where
  data : Json
  scopes : List Scope

namespace View

/-- The view of the data as a whole. -/
def ofData (data : Json) : View := ⟨data, [⟨data, []⟩]⟩

/-- The view from inside a block. -/
def enter (view : View) (value : Json) (loopValues : List (String × Json)) : View :=
  { view with scopes := ⟨value, loopValues⟩ :: view.scopes }

/-- The value of the block some blocks up, or of the current one when there are not so many. -/
def valueAt (view : View) (climb : Nat) : Json :=
  match view.scopes[climb]? <|> view.scopes.head? with
  | some scope => scope.value
  | none => view.data

end View

/-- A natural number of 64 bits is an integer of a JSON text. -/
theorem count_fits {value : Nat} (fits : value ≤ 18446744073709551615) :
    -9223372036854775808 ≤ (value : Int) ∧ (value : Int) ≤ 18446744073709551615 := by
  omega

/-- A natural number as JSON. -/
def countJson (value : Nat) : Json :=
  if fits : value ≤ 18446744073709551615 then .number (.integer value (count_fits fits))
  else .null

/-- What a key leads to. -/
def child (value : Json) (key : String) : Filled (Option Json) :=
  match value with
  | .array items =>
    match Text.unsigned? UInt64.size key.toList with
    | some index => .ok items[index]?
    | none => .error (.noIndex key)
  | .object members => .ok (Json.member? key members)
  | _ => .ok none

/-- What keys lead to. -/
def follow : Option Json → List String → Filled (Option Json)
  | found, [] => .ok found
  | none, _ => .ok none
  | some value, key :: keys => do follow (← child value key) keys

/-- What a reference leads to. -/
def View.find? (view : View) : Reference → Filled (Option Json)
  | .loop climb name =>
    .ok (view.scopes[climb]?.bind fun scope => Json.member? name scope.loopValues)
  | .root keys => follow (some view.data) keys
  | .value climb keys => follow (some (view.valueAt climb)) keys

/-- Whether a double is neither zero nor smaller than the normal ones. -/
def isNormal (value : Binary64) : Bool :=
  value.scale ≠ 0 || Binary64.significandLimit ≤ 2 * value.significand

/-- Whether a value counts as true; zero may be made to. -/
def holds (zeroToo : Bool) : Json → Bool
  | .null => false
  | .bool value => value
  | .number (.integer value _) => zeroToo || value ≠ 0
  | .number (.real value) => zeroToo || isNormal value
  | .string value => value ≠ ""
  | .array items => !items.isEmpty
  | .object members => !members.isEmpty

mutual
/-- A value as text. -/
def valueText : Json → String
  | .null => ""
  | .bool value => toString value
  | .number value => String.ofList value.write
  | .string value => value
  | .array [] => "[]"
  | .array (item :: rest) => "[" ++ valueText item ++ itemsText rest
  | .object _ => "[object]"

/-- The items after the first as text. -/
def itemsText : List Json → String
  | [] => "]"
  | item :: rest => ", " ++ valueText item ++ itemsText rest
end

/-- The names of the helpers. -/
def helperNames : List String := ["if", "unless", "with", "each", "lookup"]

/-- The item or member of a collection that an index names, null when there is none. -/
def lookup (collection index : Json) : Json :=
  match collection, index with
  | .array items, .number (.integer index _) =>
    if 0 ≤ index then items[index.toNat]?.getD .null else .null
  | .object members, .string key => (Json.member? key members).getD .null
  | _, _ => .null

/-- A parameter that a helper needs; what is missing counts as null. -/
def needed (helper : String) (values : List (Option Json)) (index : Nat) : Filled Json :=
  match values[index]? with
  | some value => .ok (value.getD .null)
  | none => .error (.noParameter helper index)

/-- What a helper that is not the head of a block yields. -/
def yield_ (helper : String) (values : List (Option Json)) : Filled Json := do
  if helper = "lookup" then
    return lookup (← needed helper values 0) (← needed helper values 1)
  else if helperNames.contains helper then
    let _ ← needed helper values 0
    return .string ""
  else throw (.noHelper helper)

mutual
/-- The value of a parameter. -/
def evaluate (view : View) : Param → Filled (Option Json)
  | .literal value => .ok (some value)
  | .reference _ target => view.find? target
  | .call helper params options => do
    let values ← evaluateAll view params
    let _ ← evaluateOptions view options
    return some (← yield_ helper values)

/-- The values of parameters. -/
def evaluateAll (view : View) : List Param → Filled (List (Option Json))
  | [] => .ok []
  | param :: rest => do return (← evaluate view param) :: (← evaluateAll view rest)

/-- The values of options. -/
def evaluateOptions (view : View) :
    List (String × Param) → Filled (List (String × Option Json))
  | [] => .ok []
  | (name, param) :: rest => do
    return (name, ← evaluate view param) :: (← evaluateOptions view rest)
end

/-- The text of a value; the name of a helper is no value. -/
def showValue (view : View) (param : Param) : Filled String := do
  let name :=
    match param with
    | .reference text _ => text
    | _ => ""
  if helperNames.contains name then
    return valueText (← yield_ name [])
  else return valueText ((← evaluate view param).getD .null)

/-- The text that a tag shows. -/
def showTag (view : View) : Shown → Filled String
  | .value param => showValue view param
  | .call call => do
    let values ← evaluateAll view call.params
    let _ ← evaluateOptions view call.options
    return valueText (← yield_ call.helper values)

/-- How a block goes on. -/
inductive Course where
  /-- Its first branch is filled in each of these scopes. -/
  | body (scopes : List Scope)
  /-- Its first branch is filled without a scope of its own. -/
  | plain
  /-- Its other branch is filled, if it has one. -/
  | otherwise

/-- The scopes of the items of a loop from an index on. -/
def itemScopes (count : Nat) : Nat → List (Json × List (String × Json)) → List Scope
  | _, [] => []
  | index, (value, loopValues) :: rest =>
    ⟨value,
      ("first", .bool (index = 0)) :: ("last", .bool (index + 1 = count)) ::
        ("index", countJson index) :: loopValues⟩ :: itemScopes count (index + 1) rest

/-- The course of a loop over a value. An empty collection is passed over. -/
def loopCourse : Json → Course
  | .array [] => .otherwise
  | .array items => .body (itemScopes items.length 0 (items.map fun item => (item, [])))
  | .object [] => .otherwise
  | .object members =>
    .body (itemScopes members.length 0
      (members.map fun (key, value) => (value, [("key", .string key)])))
  | _ => .otherwise

/-- The course of a block. -/
def course (helper : String) (values : List (Option Json))
    (options : List (String × Option Json)) : Filled Course := do
  if helper = "if" ∨ helper = "unless" then
    let value ← needed helper values 0
    let zeroToo :=
      match Json.member? "includeZero" options with
      | some (some (.bool zeroToo)) => zeroToo
      | _ => false
    return if holds zeroToo value = (helper = "if") then .plain else .otherwise
  else if helper = "with" then
    let value ← needed helper values 0
    return if holds false value then .body [⟨value, []⟩] else .otherwise
  else if helper = "each" then
    return loopCourse (← needed helper values 0)
  else throw (.noHelper helper)

mutual
/-- The text of an element. -/
def fillElement (view : View) : Element → Filled String
  | .text content => .ok (String.ofList content)
  | .comment => .ok ""
  | .insert => .error .noTemplate
  | .output shown => showTag view shown
  | .block call body otherwise => do
    let values ← evaluateAll view call.params
    let options ← evaluateOptions view call.options
    if call.helper = "lookup" then return valueText (← yield_ call.helper values)
    match ← course call.helper values options with
    | .plain => fillElements view body
    | .body scopes =>
      scopes.foldlM
        (fun text scope => do
          return text ++ (← fillElements (view.enter scope.value scope.loopValues) body)) ""
    | .otherwise =>
      match otherwise with
      | none => return ""
      | some otherwise => fillElements view otherwise

/-- The text of elements. -/
def fillElements (view : View) : List Element → Filled String
  | [] => .ok ""
  | element :: rest => do
    return (← fillElement view element) ++ (← fillElements view rest)
end

/-- A template filled from data. -/
def fill (template : String) (data : Json) : Except String String :=
  match read? template with
  | none => .error Flaw.malformed.message
  | some elements => (fillElements (.ofData data) elements).mapError Flaw.message

end PageBuild.Template
