/-!
# References

A reference leads from a value to what lies below it by keys between dots or slashes; a key with
other characters stands in square brackets. It starts at the value of the current block, at the
value of a block further up, or at the data as a whole, or it names a loop variable.
-/
namespace PageBuild.Template

/-- The text of a template that is still to be read. -/
abbrev Source := List Char

/-- Where a reference leads. -/
inductive Reference where
  /-- A loop variable, some blocks up. -/
  | loop (climb : Nat) (name : String)
  /-- The keys from the data as a whole. -/
  | root (keys : List String)
  /-- The keys from the value of a block, some blocks up. -/
  | value (climb : Nat) (keys : List String)
  deriving DecidableEq, Repr

/-- Whether a character may stand between the parts of a tag. -/
def isGap (c : Char) : Bool := c == ' ' || c == '\t' || c == '\n' || c == '\r'

/-- Whether a character belongs to a name. -/
def isNameChar (c : Char) : Bool :=
  c.isAlphanum || c == '-' || c == '_' || c == '$' || 0x80 ≤ c.toNat

/-- Whether no further character of a name follows. -/
def endsName (source : Source) : Bool :=
  match source with
  | [] => true
  | c :: _ => !isNameChar c

/-- The source from its first character that is no gap. -/
def skipGap (source : Source) : Source := source.dropWhile isGap

/-- The source after a word that it starts with. -/
def after? (word : String) (source : Source) : Option Source :=
  if word.toList.isPrefixOf source then some (source.drop word.toList.length) else none

/-- The source after a word that it starts with, once gaps are skipped. -/
def token? (word : String) (source : Source) : Option Source := after? word (skipGap source)

/-- A name of at least one character. -/
def name? (source : Source) : Option (String × Source) :=
  let name := source.takeWhile isNameChar
  if name.isEmpty then none else some (String.ofList name, source.dropWhile isNameChar)

/-- A key: a name, or anything between square brackets. -/
def key? (source : Source) : Option (String × Source) :=
  match source with
  | '[' :: rest =>
    match rest.dropWhile (· ≠ ']') with
    | _ :: after => some (String.ofList (rest.takeWhile (· ≠ ']')), after)
    | [] => none
  | _ => name? source

/-- The source after a dot or a slash. -/
def separator? : Source → Option Source
  | '.' :: rest => some rest
  | '/' :: rest => some rest
  | _ => none

/-- The source after a word and a separator. -/
def step? (word : String) (source : Source) : Option Source := (after? word source).bind separator?

/-- How often a source climbs to an enclosing block, and what follows. -/
def climbs : Nat → Source → Nat × Source
  | 0, source => (0, source)
  | fuel + 1, source =>
    match step? ".." source with
    | some rest =>
      let (count, rest) := climbs fuel rest
      (count + 1, rest)
    | none => (0, source)

/-- The keys after the first one, each behind a separator. -/
def moreKeys : Nat → Source → List String × Source
  | 0, source => ([], source)
  | fuel + 1, source =>
    match (separator? source).bind key? with
    | some (key, rest) =>
      let (keys, rest) := moreKeys fuel rest
      (key :: keys, rest)
    | none => ([], source)

/-- The key that stands for the value itself. -/
def selfKey : String := "this"

namespace Reference

/-- The reference of the parts that were read: a mark of the whole data, a mark of a loop
variable, how often it climbs, and its keys, of which those that stand for the value itself are
no steps. -/
def ofParts (whole marked : Bool) (climb : Nat) (keys : List String) : Reference :=
  let keys := keys.filter (· ≠ selfKey)
  if whole then .root keys
  else if marked then
    match keys with
    | name :: _ => .loop climb name
    | [] => .value 0 []
  else .value climb keys

/-- The reference that a source starts with. -/
def read? (source : Source) : Option (Reference × Source) :=
  let start := ((step? selfKey source) <|> (after? "./" source)).getD source
  let (whole, rest) :=
    match step? "@root" start with
    | some rest => (true, rest)
    | none => (false, start)
  let (marked, rest) :=
    match after? "@" rest with
    | some rest => (true, rest)
    | none => (false, rest)
  let (climb, rest) := climbs rest.length rest
  match key? rest with
  | none => none
  | some (key, rest) =>
    let (keys, rest) := moreKeys rest.length rest
    some (ofParts whole marked climb (key :: keys), rest)

end Reference

end PageBuild.Template
