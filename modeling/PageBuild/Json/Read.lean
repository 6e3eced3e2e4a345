import PageBuild.Json.Skim

/-!
# Reading JSON values

A reader takes the number of levels that may still open and reads one value from the front of a
text. Values read whole keep repeated keys (`raw`); the typed readers refuse a value of another
kind with the fault that names it. The first fault in document order is the one reported.
-/
namespace PageBuild.Json

/-- Reads one value below a number of levels that may still open. -/
abbrev Reader (α : Type) := Nat → Input → Except Fault (α × Input)

/-- How many arrays and objects may be open at once. -/
def maxDepth : Nat := 127

/-- The fault of a value that is not of the expected kind. Its scalars are read in full first,
so a fault inside one comes before that of its kind. -/
def wrongKind (expected : String) (input : Input) : Fault :=
  match input with
  | [] => .endInValue
  | 'n' :: rest =>
    match word ['u', 'l', 'l'] rest with
    | .ok _ => .wrongType .null expected
    | .error fault => fault
  | 't' :: rest =>
    match word ['r', 'u', 'e'] rest with
    | .ok _ => .wrongType (.bool true) expected
    | .error fault => fault
  | 'f' :: rest =>
    match word ['a', 'l', 's', 'e'] rest with
    | .ok _ => .wrongType (.bool false) expected
    | .error fault => fault
  | '-' :: rest =>
    match readNumber true rest with
    | .ok (value, _) => .wrongType (.number value) expected
    | .error fault => fault
  | '"' :: rest =>
    match readString rest with
    | .ok (value, _) => .wrongType (.string value) expected
    | .error fault => fault
  | '[' :: _ => .wrongType .sequence expected
  | '\x7b' :: _ => .wrongType .map expected
  | c :: rest =>
    if c.isDigit then
      match readNumber false (c :: rest) with
      | .ok (value, _) => .wrongType (.number value) expected
      | .error fault => fault
    else .expectedValue

/-- A string value. -/
def text : Reader String := fun _ input =>
  match skipBlanks input with
  | '"' :: rest => readString rest
  | input => .error (wrongKind "a string" input)

/-- A boolean value. -/
def boolean : Reader Bool := fun _ input =>
  match skipBlanks input with
  | 't' :: rest => (word ['r', 'u', 'e'] rest).map (true, ·)
  | 'f' :: rest => (word ['a', 'l', 's', 'e'] rest).map (false, ·)
  | input => .error (wrongKind "a boolean" input)

/-- A number read where an unsigned integer of 64 bits stands. -/
def unsignedOf (value : Number) (rest : Input) : Except Fault (Nat × Input) :=
  match value with
  | .integer n _ =>
    if 0 ≤ n then .ok (n.toNat, rest) else .error (.wrongValue (.number value) "u64")
  | .real _ => .error (.wrongType (.number value) "u64")

/-- An unsigned integer of 64 bits. -/
def unsigned : Reader Nat := fun _ input =>
  match skipBlanks input with
  | '-' :: rest => do
    let (value, rest) ← readNumber true rest
    unsignedOf value rest
  | c :: rest =>
    if c.isDigit then do
      let (value, rest) ← readNumber false (c :: rest)
      unsignedOf value rest
    else .error (wrongKind "u64" (c :: rest))
  | [] => .error .endInValue

/-- A value or null. -/
def optional {α : Type} (reader : Reader α) : Reader (Option α) := fun depth input =>
  match skipBlanks input with
  | 'n' :: rest => (word ['u', 'l', 'l'] rest).map (none, ·)
  | input => (reader depth input).map fun (value, rest) => (some value, rest)

/-- A value, or null for the default one. -/
def nullable {α : Type} [Inhabited α] (reader : Reader α) : Reader α := fun depth input =>
  (optional reader depth input).map fun (value, rest) => (value.getD default, rest)

/-- The items of an array after its opening bracket, or after an item of it. -/
def items {α : Type} (item : Input → Except Fault (α × Input)) :
    Nat → Bool → Input → Except Fault (List α × Input)
  | 0, _, _ => .error .endInList
  | fuel + 1, first, input =>
    let continued (input : Input) : Except Fault (List α × Input) := do
      let (value, rest) ← item input
      let (values, rest) ← items item fuel false rest
      .ok (value :: values, rest)
    match skipBlanks input with
    | [] => .error .endInList
    | c :: rest =>
      if c = ']' then .ok ([], rest)
      else if first then continued (c :: rest)
      else if c = ',' then
        match skipBlanks rest with
        | [] => .error .endInValue
        | c :: rest => if c = ']' then .error .trailingComma else continued (c :: rest)
      else .error .expectedListCommaOrEnd

/-- The members of an object after its opening brace, or after a member of it. Each member reads
on from its key and changes the state. -/
def members {σ : Type} (member : σ → String → Input → Except Fault (σ × Input)) :
    Nat → Bool → σ → Input → Except Fault (σ × Input)
  | 0, _, _, _ => .error .endInObject
  | fuel + 1, first, state, input =>
    let continued (input : Input) : Except Fault (σ × Input) := do
      let (key, rest) ← readString input
      let (state, rest) ← member state key rest
      members member fuel false state rest
    match skipBlanks input with
    | [] => .error .endInObject
    | c :: rest =>
      if c = '\x7d' then .ok (state, rest)
      else if first then if c = '"' then continued rest else .error .keyNotString
      else if c = ',' then
        match skipBlanks rest with
        | [] => .error .endInValue
        | c :: rest =>
          if c = '\x7d' then .error .trailingComma
          else if c = '"' then continued rest
          else .error .keyNotString
      else .error .expectedObjectCommaOrEnd

/-- An array of values. -/
def sequence {α : Type} (reader : Reader α) : Reader (List α) := fun depth input =>
  match skipBlanks input with
  | '[' :: rest =>
    match depth with
    | 0 => .error .tooDeep
    | depth + 1 => items (reader depth) (rest.length + 1) true rest
  | input => .error (wrongKind "a sequence" input)

/-- A member of an object read whole, put behind those before it. -/
def rawMember (value : Input → Except Fault (Json × Input)) (found : List (String × Json))
    (key : String) (input : Input) : Except Fault (List (String × Json) × Input) := do
  let rest ← colon input
  let (item, rest) ← value rest
  .ok ((key, item) :: found, rest)

/-- Any value, with the repeated keys of its objects kept. -/
def raw : Reader Json
  | depth, input =>
    match skipBlanks input with
    | [] => .error .endInValue
    | 'n' :: rest => (word ['u', 'l', 'l'] rest).map (null, ·)
    | 't' :: rest => (word ['r', 'u', 'e'] rest).map (bool true, ·)
    | 'f' :: rest => (word ['a', 'l', 's', 'e'] rest).map (bool false, ·)
    | '-' :: rest => (readNumber true rest).map fun (value, rest) => (number value, rest)
    | '"' :: rest => (readString rest).map fun (value, rest) => (string value, rest)
    | '[' :: rest =>
      match depth with
      | 0 => .error .tooDeep
      | depth + 1 =>
        (items (raw depth) (rest.length + 1) true rest).map fun (values, rest) =>
          (array values, rest)
    | '\x7b' :: rest =>
      match depth with
      | 0 => .error .tooDeep
      | depth + 1 =>
        (members (rawMember (raw depth)) (rest.length + 1) true [] rest).map
          fun (found, rest) => (object found.reverse, rest)
    | c :: rest =>
      if c.isDigit then
        (readNumber false (c :: rest)).map fun (value, rest) => (number value, rest)
      else .error .expectedValue

/-- Any value, with the repeated keys of its objects resolved. -/
def value : Reader Json := fun depth input =>
  (raw depth input).map fun (value, rest) => (value.settled, rest)

/-- An object of any values, with repeated keys resolved. -/
def dictionary : Reader (List (String × Json)) := fun depth input =>
  match skipBlanks input with
  | '\x7b' :: rest =>
    match depth with
    | 0 => .error .tooDeep
    | depth + 1 =>
      (members (rawMember (raw depth)) (rest.length + 1) true [] rest).map
        fun (found, rest) => (settledMembers found.reverse [], rest)
  | input => .error (wrongKind "a map" input)

/-- A whole text as one value. -/
def ofText {α : Type} (reader : Reader α) (source : String) : Except Fault α :=
  match reader maxDepth source.toList with
  | .error fault => .error fault
  | .ok (value, rest) =>
    match skipBlanks rest with
    | [] => .ok value
    | _ :: _ => .error .trailingCharacters

end PageBuild.Json
