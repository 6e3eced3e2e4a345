import PageBuild.Json.Read

/-!
# Reading records

A record is a named list of fields, each with a reader that stores what it read. It is written
as an object, whose unknown members are skimmed and whose known ones stand at most once, or as an
array of its fields in order. Fields left out keep the value of the blank record, and a required
one that is left out is a fault.
-/
namespace PageBuild.Json

/-- A field of a record: how its value is read and stored. -/
structure Field (α : Type) where
  name : String
  required : Bool
  /-- Read the value and store it. -/
  read : α → Reader α

/-- A field that may be left out. -/
def Field.free {α β : Type} (name : String) (reader : Reader β) (store : α → β → α) : Field α :=
  ⟨name, false, fun record depth input =>
    (reader depth input).map fun (value, rest) => (store record value, rest)⟩

/-- A field that may not be left out. -/
def Field.needed {α β : Type} (name : String) (reader : Reader β) (store : α → β → α) : Field α :=
  { Field.free name reader store with required := true }

/-- A kind of record. -/
structure Form (α : Type) where
  /-- The name of the record in messages. -/
  title : String
  /-- The record before any field is read. -/
  blank : α
  /-- The fields in order. -/
  fields : List (Field α)

namespace Form

variable {α : Type}

/-- The words for what a reader of the form expects. -/
def expected (form : Form α) : String := "struct " ++ form.title

/-- The words for the array form of the record. -/
def expectedArray (form : Form α) : String :=
  let size := form.fields.length
  form.expected ++ " with " ++ toString size ++ if size = 1 then " element" else " elements"

/-- A member of the record in an object: its value is stored, or skimmed if the key is unknown. -/
def member (form : Form α) (depth : Nat) (state : α × List String) (key : String)
    (input : Input) : Except Fault ((α × List String) × Input) :=
  match form.fields.find? (·.name == key) with
  | some field =>
    if state.2.contains key then .error (.repeatedField key)
    else do
      let rest ← colon input
      let (record, rest) ← field.read state.1 depth rest
      .ok ((record, key :: state.2), rest)
  | none => do
    let rest ← colon input
    let rest ← skim rest
    .ok (state, rest)

/-- The record of an object, unless a required field is missing. -/
def complete (form : Form α) (record : α) (found : List String) : Except Fault α :=
  match form.fields.find? fun field => field.required && !found.contains field.name with
  | some field => .error (.missingField field.name)
  | none => .ok record

/-- The end of an array after its last field. -/
def arrayEnd (input : Input) : Except Fault Input :=
  match skipBlanks input with
  | [] => .error .endInList
  | ']' :: rest => .ok rest
  | ',' :: rest =>
    match skipBlanks rest with
    | ']' :: _ => .error .trailingComma
    | _ => .error .trailingCharacters
  | _ => .error .trailingCharacters

/-- The fields of a record in an array, from one on. -/
def positional (form : Form α) (depth : Nat) :
    List (Field α) → Nat → α → Input → Except Fault (α × Input)
  | [], _, record, input => (arrayEnd input).map (record, ·)
  | field :: fields, index, record, input =>
    let continued (input : Input) : Except Fault (α × Input) := do
      let (record, rest) ← field.read record depth input
      positional form depth fields (index + 1) record rest
    match skipBlanks input with
    | [] => .error .endInList
    | c :: rest =>
      if c = ']' then
        if field.required then .error (.tooShort index form.expectedArray)
        else positional form depth fields (index + 1) record (c :: rest)
      else if index = 0 then continued (c :: rest)
      else if c = ',' then
        match skipBlanks rest with
        | [] => .error .endInValue
        | c :: rest => if c = ']' then .error .trailingComma else continued (c :: rest)
      else .error .expectedListCommaOrEnd

/-- Reads a record of the form. -/
def reader (form : Form α) : Reader α := fun depth input =>
  match skipBlanks input with
  | '[' :: rest =>
    match depth with
    | 0 => .error .tooDeep
    | depth + 1 => form.positional depth form.fields 0 form.blank rest
  | '\x7b' :: rest =>
    match depth with
    | 0 => .error .tooDeep
    | depth + 1 => do
      let ((record, found), rest) ←
        members (form.member depth) (rest.length + 1) true (form.blank, []) rest
      let record ← form.complete record found
      .ok (record, rest)
  | input => .error (wrongKind form.expected input)

end Form

end PageBuild.Json
