import PageBuild.Json.Scan

/-!
# Skimming a JSON value

A value whose content is of no use is skimmed: its brackets, strings and literals are checked,
but no nesting limit, number range or surrogate pairing. A misplaced comma is then no fault of
its own: after a comma a value, or a key, is expected.
-/
namespace PageBuild.Json

/-- A bracket that is open. -/
inductive Bracket where
  | list
  | object
  deriving DecidableEq, Repr

/-- The fault of a text that ends inside a bracket. -/
def Bracket.unclosed : Bracket → Fault
  | list => .endInList
  | object => .endInObject

/-- The fault of a value that neither a comma nor the closing bracket follows. -/
def Bracket.unseparated : Bracket → Fault
  | list => .expectedListCommaOrEnd
  | object => .expectedObjectCommaOrEnd

/-- The character that closes a bracket. -/
def Bracket.closing : Bracket → Char
  | list => ']'
  | object => '\x7d'

/-- Skim a string after its opening quote. -/
def skimStringBody : Nat → Input → Except Fault Input
  | 0, _ => .error .endInString
  | _ + 1, [] => .error .endInString
  | fuel + 1, c :: input =>
    if c = '"' then .ok input
    else if c = '\\' then
      match input with
      | [] => .error .endInString
      | 'u' :: input => do
        let (_, input) ← hexEscape input
        skimStringBody fuel input
      | letter :: input =>
        if (shortEscape? letter).isSome then skimStringBody fuel input
        else .error .invalidEscape
    else if c.toNat < 32 then .error .controlCharacter
    else skimStringBody fuel input

/-- Skim a string after its opening quote. -/
def skimString (input : Input) : Except Fault Input := skimStringBody (input.length + 1) input

/-- Skim the exponent of a number, if it has one. -/
def skimExponent (input : Input) : Except Fault Input :=
  match input with
  | [] => .ok input
  | mark :: rest =>
    if mark = 'e' ∨ mark = 'E' then
      let digits :=
        match rest with
        | '+' :: rest => rest
        | '-' :: rest => rest
        | _ => rest
      match digits with
      | [] => .error .invalidNumber
      | c :: rest =>
        if c.isDigit then .ok (rest.dropWhile Char.isDigit) else .error .invalidNumber
    else .ok input

/-- Skim a number after its sign. -/
def skimNumber (input : Input) : Except Fault Input := do
  let rest ←
    match input with
    | [] => .error .invalidNumber
    | '0' :: rest =>
      match rest with
      | c :: _ => if c.isDigit then .error Fault.invalidNumber else .ok rest
      | [] => .ok rest
    | c :: rest =>
      if c.isDigit then .ok (rest.dropWhile Char.isDigit) else .error .invalidNumber
  match rest with
  | '.' :: c :: fraction =>
    if c.isDigit then skimExponent (fraction.dropWhile Char.isDigit)
    else .error .invalidNumber
  | ['.'] => .error .invalidNumber
  | _ => skimExponent rest

/-- The colon between a key and its value. -/
def colon (input : Input) : Except Fault Input :=
  match skipBlanks input with
  | ':' :: rest => .ok rest
  | [] => .error .endInObject
  | _ => .error .expectedColon

mutual
/-- Skim a value inside the open brackets, innermost first, and all that closes them. -/
def skimValue : Nat → List Bracket → Input → Except Fault Input
  | 0, _, _ => .error .endInValue
  | fuel + 1, enclosing, input =>
    match skipBlanks input with
    | [] => .error .endInValue
    | 'n' :: rest => do skimRest fuel true enclosing (← word ['u', 'l', 'l'] rest)
    | 't' :: rest => do skimRest fuel true enclosing (← word ['r', 'u', 'e'] rest)
    | 'f' :: rest => do skimRest fuel true enclosing (← word ['a', 'l', 's', 'e'] rest)
    | '-' :: rest => do skimRest fuel true enclosing (← skimNumber rest)
    | '"' :: rest => do skimRest fuel true enclosing (← skimString rest)
    | '[' :: rest => skimRest fuel false (.list :: enclosing) rest
    | '\x7b' :: rest => skimRest fuel false (.object :: enclosing) rest
    | c :: rest =>
      if c.isDigit then do skimRest fuel true enclosing (← skimNumber (c :: rest))
      else .error .expectedValue

/-- Skim what follows a value, or an opening bracket, inside the open brackets. -/
def skimRest : Nat → Bool → List Bracket → Input → Except Fault Input
  | _, _, [], input => .ok input
  | 0, _, _ :: _, _ => .error .endInValue
  | fuel + 1, afterValue, bracket :: outer, input =>
    match skipBlanks input with
    | [] => .error bracket.unclosed
    | c :: rest =>
      if afterValue ∧ c = ',' then skimEntry fuel bracket outer rest
      else if c = bracket.closing then skimRest fuel true outer rest
      else if afterValue then .error bracket.unseparated
      else skimEntry fuel bracket outer (c :: rest)

/-- Skim an item of a list, or a key and its value. -/
def skimEntry : Nat → Bracket → List Bracket → Input → Except Fault Input
  | 0, _, _, _ => .error .endInValue
  | fuel + 1, .list, outer, input => skimValue fuel (.list :: outer) input
  | fuel + 1, .object, outer, input =>
    match skipBlanks input with
    | [] => .error .endInObject
    | '"' :: rest => do
      let rest ← skimString rest
      let rest ← colon rest
      skimValue fuel (.object :: outer) rest
    | _ => .error .keyNotString
end

/-- The text after a value whose content is of no use. -/
def skim (input : Input) : Except Fault Input := skimValue (3 * input.length + 3) [] input

end PageBuild.Json
