import PageBuild.Json.Binary64

/-!
# JSON values

A value keeps the members of an object in document order. `put` is how a repeated key is
resolved: it keeps its first position and takes its last value. A value read whole may still
repeat keys; `settled` resolves them at every depth.
-/
namespace PageBuild

/-- A JSON number: an integer of at most 64 bits, signed or unsigned, or a double. -/
inductive Number where
  /-- An integer between the least signed and the greatest unsigned one of 64 bits. -/
  | integer (value : Int) (fits : -9223372036854775808 ≤ value ∧ value ≤ 18446744073709551615)
  /-- A double. -/
  | real (value : Binary64)
  deriving DecidableEq, Repr

namespace Number

/-- Whether the number is zero, of either sign. -/
def isZero : Number → Bool
  | integer value _ => value == 0
  | real value => value.isZero

end Number

/-- A JSON value. -/
inductive Json where
  | null
  | bool (value : Bool)
  | number (value : Number)
  | string (value : String)
  | array (items : List Json)
  | object (members : List (String × Json))
  deriving Repr, Inhabited

namespace Json

/-- Set a member: in place when the key is there, at the end when it is new. -/
def put {α : Type} (key : String) (value : α) : List (String × α) → List (String × α)
  | [] => [(key, value)]
  | (name, old) :: rest =>
    if name = key then (name, value) :: rest else (name, old) :: put key value rest

/-- The value of a member. -/
def member? {α : Type} (key : String) (members : List (String × α)) : Option α :=
  members.lookup key

mutual
/-- The value with every repeated key resolved by `put`. -/
def settled : Json → Json
  | null => null
  | bool value => bool value
  | number value => number value
  | string value => string value
  | array items => array (settledItems items)
  | object members => object (settledMembers members [])

/-- Every item settled. -/
def settledItems : List Json → List Json
  | [] => []
  | item :: rest => item.settled :: settledItems rest

/-- The members settled and put in turn into those found before. -/
def settledMembers : List (String × Json) → List (String × Json) → List (String × Json)
  | [], found => found
  | (key, value) :: rest, found => settledMembers rest (put key value.settled found)
end

end Json

end PageBuild
