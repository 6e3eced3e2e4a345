import PageBuild.Json.Write
import PageBuild.Text.Shown

/-!
# Faults of a JSON text

Why a text is refused: its syntax, a value of the wrong kind for its place, or a record whose
fields are missing or repeated. `Fault.message` words each cause.
-/
namespace PageBuild.Json

/-- The kind of value that stood where another was expected. -/
inductive Found where
  | null
  | bool (value : Bool)
  | number (value : Number)
  | string (value : String)
  | sequence
  | map
  deriving Repr

/-- The words for a found value. -/
def Found.message : Found → String
  | null => "null"
  | bool value => "boolean `" ++ toString value ++ "`"
  | number (.integer value _) => "integer `" ++ String.ofList (writeInteger value) ++ "`"
  | number (.real value) => "floating point `" ++ String.ofList value.write ++ "`"
  | string value => "string " ++ Text.inQuotes value
  | sequence => "sequence"
  | map => "map"

/-- Why a JSON text is not read. -/
inductive Fault where
  /-- The text ends inside an array. -/
  | endInList
  /-- The text ends inside an object. -/
  | endInObject
  /-- The text ends inside a string. -/
  | endInString
  /-- The text ends where a value stands or starts. -/
  | endInValue
  | expectedColon
  | expectedListCommaOrEnd
  | expectedObjectCommaOrEnd
  /-- A literal word is misspelt. -/
  | expectedWord
  | expectedValue
  | invalidEscape
  | invalidNumber
  | numberOutOfRange
  /-- An escaped surrogate without its other half. -/
  | loneSurrogate
  /-- An escaped leading surrogate that no escape follows. -/
  | unfinishedSurrogate
  | controlCharacter
  | keyNotString
  | trailingComma
  | trailingCharacters
  | tooDeep
  /-- A value of another kind than the place takes. -/
  | wrongType (found : Found) (expected : String)
  /-- A value of the right kind outside the range of the place. -/
  | wrongValue (found : Found) (expected : String)
  /-- A record written as an array ends before a required field. -/
  | tooShort (length : Nat) (expected : String)
  | missingField (name : String)
  | repeatedField (name : String)
  /-- A value that is none of the alternatives of its place. -/
  | noAlternative (name : String)
  deriving Repr

/-- The words for a fault. -/
def Fault.message : Fault → String
  | endInList => "EOF while parsing a list"
  | endInObject => "EOF while parsing an object"
  | endInString => "EOF while parsing a string"
  | endInValue => "EOF while parsing a value"
  | expectedColon => "expected `:`"
  | expectedListCommaOrEnd => "expected `,` or `]`"
  | expectedObjectCommaOrEnd => "expected `,` or `\x7d`"
  | expectedWord => "expected ident"
  | expectedValue => "expected value"
  | invalidEscape => "invalid escape"
  | invalidNumber => "invalid number"
  | numberOutOfRange => "number out of range"
  | loneSurrogate => "lone leading surrogate in hex escape"
  | unfinishedSurrogate => "unexpected end of hex escape"
  | controlCharacter => "control character (\\u0000-\\u001F) found while parsing a string"
  | keyNotString => "key must be a string"
  | trailingComma => "trailing comma"
  | trailingCharacters => "trailing characters"
  | tooDeep => "recursion limit exceeded"
  | wrongType found expected => "invalid type: " ++ found.message ++ ", expected " ++ expected
  | wrongValue found expected => "invalid value: " ++ found.message ++ ", expected " ++ expected
  | tooShort length expected =>
    "invalid length " ++ String.ofList (Nat.toDigits 10 length) ++ ", expected " ++ expected
  | missingField name => "missing field `" ++ name ++ "`"
  | repeatedField name => "duplicate field `" ++ name ++ "`"
  | noAlternative name => "data did not match any variant of untagged enum " ++ name

end PageBuild.Json
