/-!
# Words and tokens

The text of a script falls into words, operators and redirections, each on a line. Words are
quoted by single quotes, double quotes and backslashes; outside single quotes, variables and what
other scripts write are put in. A text that ends inside a quotation ends with a token that says so.
-/
namespace PageBuild.Shell

/-- A part of a word. -/
inductive WordPart where
  | text (content : String) (quoted : Bool)
  /-- The value of a variable, or another text when it has none. -/
  | variable (name instead : String) (quoted : Bool)
  /-- What a script writes. -/
  | output (script : String) (quoted : Bool)
  deriving DecidableEq, Repr

/-- A word, part by part. -/
abbrev Word := List WordPart

/-- What is still open where a text ends. -/
inductive Unclosed where
  | quote
  | brace
  | parenthesis
  | backquote
  deriving DecidableEq, Repr

/-- A token of a script. -/
inductive Token where
  | word (word : Word)
  /-- An operator or the end of a line. -/
  | operator (text : String)
  /-- A redirection that a word is to follow, of a stream. -/
  | toward (kind : String) (stream : Nat)
  | same (stream other : Nat)
  /-- The end of a text inside a quotation. -/
  | unclosed (what : Unclosed)
  | endOfText
  deriving DecidableEq, Repr

/-- A token with the line that it ends on. -/
structure Lexeme where
  token : Token
  line : Nat
  deriving DecidableEq, Repr

/-- The quotation mark that is open after a character. -/
def quoteAfter (open_ : Option Char) (c : Char) : Option Char :=
  match open_ with
  | none => if c = '\'' ∨ c = '"' then some c else none
  | some mark => if c = mark then none else some mark

/-- The text up to the parenthesis that closes all open ones, of which there are one more than
counted, and the rest. -/
def parenthesized? : Nat → Option Char → List Char → Option (List Char × List Char)
  | _, _, [] => none
  | depth, open_, c :: rest =>
    if open_.isNone ∧ c = '(' then
      (parenthesized? (depth + 1) open_ rest).map fun (inner, rest) => (c :: inner, rest)
    else if open_.isNone ∧ c = ')' then
      match depth with
      | 0 => some ([], rest)
      | depth + 1 =>
        (parenthesized? depth open_ rest).map fun (inner, rest) => (c :: inner, rest)
    else
      (parenthesized? depth (quoteAfter open_ c) rest).map fun (inner, rest) => (c :: inner, rest)

/-- The text up to a backquote that no backslash stands before, and the rest. -/
def backquoted? : List Char → Option (List Char × List Char)
  | [] => none
  | '\x60' :: rest => some ([], rest)
  | '\\' :: '\x60' :: rest => (backquoted? rest).map fun (inner, rest) => ('\x60' :: inner, rest)
  | c :: rest => (backquoted? rest).map fun (inner, rest) => (c :: inner, rest)

/-- Whether a character belongs to the name of a variable. -/
def isVariableChar (c : Char) : Bool := c.isAlphanum || c == '_'

/-- The variable between braces, with the text that stands in for it. -/
def bracedVariable (quoted : Bool) (source : List Char) : Except Unclosed (WordPart × List Char) :=
  let name := String.ofList (source.takeWhile isVariableChar)
  match source.dropWhile isVariableChar with
  | '\x7d' :: rest => .ok (.variable name "" quoted, rest)
  | ':' :: '-' :: rest =>
    match rest.dropWhile (· ≠ '\x7d') with
    | _ :: after =>
      .ok (.variable name (String.ofList (rest.takeWhile (· ≠ '\x7d'))) quoted, after)
    | [] => .error .brace
  | _ => .error .brace

/-- What is put in after a dollar sign, and the rest; without a name the sign is text. -/
def dollarPart (quoted : Bool) (source : List Char) : Except Unclosed (WordPart × List Char) :=
  match source with
  | '(' :: rest =>
    match parenthesized? 0 none rest with
    | some (script, rest) => .ok (.output (String.ofList script) quoted, rest)
    | none => .error .parenthesis
  | '\x7b' :: rest => bracedVariable quoted rest
  | c :: rest =>
    if ['?', '$', '#'].contains c ∨ c.isDigit then
      .ok (.variable (String.singleton c) "" quoted, rest)
    else if isVariableChar c then
      .ok (.variable (String.ofList (source.takeWhile isVariableChar)) "" quoted,
        source.dropWhile isVariableChar)
    else .ok (.text "$" quoted, source)
  | [] => .ok (.text "$" quoted, [])

/-- What is put in after a backquote, and the rest. -/
def backquotePart (quoted : Bool) (source : List Char) : Except Unclosed (WordPart × List Char) :=
  match backquoted? source with
  | some (script, rest) => .ok (.output (String.ofList script) quoted, rest)
  | none => .error .backquote

/-- Put a character in front of parts. -/
def prependText (c : Char) (quoted : Bool) : Word → Word
  | .text content sort :: rest =>
    if sort = quoted then .text (String.ofList (c :: content.toList)) quoted :: rest
    else .text (String.singleton c) quoted :: .text content sort :: rest
  | word => .text (String.singleton c) quoted :: word

/-- The parts up to the closing double quote. -/
def doubleQuoted : Nat → List Char → Except Unclosed (Word × List Char)
  | 0, _ => .error .quote
  | _ + 1, [] => .error .quote
  | fuel + 1, c :: rest =>
    if c = '"' then .ok ([.text "" true], rest)
    else if c = '\\' then
      match rest with
      | [] => .error .quote
      | '\n' :: rest => doubleQuoted fuel rest
      | d :: rest => do
        let (word, rest) ← doubleQuoted fuel rest
        if d = '$' ∨ d = '"' ∨ d = '\\' ∨ d = '\x60' then return (prependText d true word, rest)
        else return (prependText '\\' true (prependText d true word), rest)
    else if c = '$' ∨ c = '\x60' then do
      let (part, rest) ← if c = '$' then dollarPart true rest else backquotePart true rest
      let (word, rest) ← doubleQuoted fuel rest
      return (part :: word, rest)
    else do
      let (word, rest) ← doubleQuoted fuel rest
      return (prependText c true word, rest)

/-- Whether a character ends a word. -/
def endsWord (c : Char) : Bool :=
  [' ', '\t', '\n', ';', '&', '|', '<', '>', '(', ')'].contains c

/-- The parts of a word, and the rest of the script. -/
def wordParts : Nat → List Char → Except Unclosed (Word × List Char)
  | 0, _ => .error .quote
  | _ + 1, [] => .ok ([], [])
  | fuel + 1, c :: rest =>
    if endsWord c then .ok ([], c :: rest)
    else if c = '\'' then
      match rest.dropWhile (· ≠ '\'') with
      | [] => .error .quote
      | _ :: after => do
        let (word, after) ← wordParts fuel after
        return (.text (String.ofList (rest.takeWhile (· ≠ '\''))) true :: word, after)
    else if c = '"' then do
      let (inner, rest) ← doubleQuoted (rest.length + 1) rest
      let (word, rest) ← wordParts fuel rest
      return (inner ++ word, rest)
    else if c = '\\' then
      match rest with
      | [] => .ok ([.text "\\" true], [])
      | '\n' :: rest => wordParts fuel rest
      | d :: rest => do
        let (word, rest) ← wordParts fuel rest
        return (prependText d true word, rest)
    else if c = '$' ∨ c = '\x60' then do
      let (part, rest) ← if c = '$' then dollarPart false rest else backquotePart false rest
      let (word, rest) ← wordParts fuel rest
      return (part :: word, rest)
    else do
      let (word, rest) ← wordParts fuel rest
      return (prependText c false word, rest)

/-- The number of a stream at the start of a redirection, and the rest. -/
def streamNumber (source : List Char) (usual : Nat) : Option (Nat × List Char) :=
  match source with
  | c :: d :: rest =>
    if c.isDigit ∧ (d = '<' ∨ d = '>') then some (c.toNat - '0'.toNat, d :: rest)
    else if c = '<' ∨ c = '>' then some (usual, source)
    else none
  | [c] => if c = '<' ∨ c = '>' then some (usual, source) else none
  | [] => none

/-- The redirection that a script starts with, and the rest. -/
def redirectToken? (source : List Char) : Option (Token × List Char) :=
  match streamNumber source 1 with
  | none => none
  | some (stream, rest) =>
    match rest with
    | '>' :: '>' :: rest => some (.toward ">>" stream, rest)
    | '>' :: '&' :: digit :: rest =>
      if digit.isDigit then some (.same stream (digit.toNat - '0'.toNat), rest) else none
    | '>' :: '|' :: rest => some (.toward ">" stream, rest)
    | '>' :: rest => some (.toward ">" stream, rest)
    | '<' :: rest => some (.toward "<" stream, rest)
    | _ => none

/-- The operators, longer ones first. -/
def operators : List String := ["&&", "||", ";;", ";", "&", "|", "(", ")", "\n"]

/-- The operator that a script starts with, and the rest. -/
def operator? (source : List Char) : Option (Token × List Char) :=
  operators.findSome? fun text =>
    if text.toList.isPrefixOf source then some (.operator text, source.drop text.length) else none

/-- How many lines end in a text. -/
def lineEnds (text : List Char) : Nat := text.count '\n'

/-- The tokens of a script from a line on. -/
def lexemesFrom : Nat → Nat → List Char → List Lexeme
  | 0, line, _ => [⟨.endOfText, line⟩]
  | _ + 1, line, [] => [⟨.endOfText, line⟩]
  | fuel + 1, line, c :: rest =>
    if c = ' ' ∨ c = '\t' then lexemesFrom fuel line rest
    else if c = '#' then lexemesFrom fuel line (rest.dropWhile (· ≠ '\n'))
    else
      let source := c :: rest
      match redirectToken? source <|> operator? source with
      | some (token, rest) =>
        let line := line + (lineEnds source - lineEnds rest)
        ⟨token, line⟩ :: lexemesFrom fuel line rest
      | none =>
        match wordParts (source.length + 1) source with
        | .ok (word, rest) =>
          let line := line + (lineEnds source - lineEnds rest)
          ⟨.word word, line⟩ :: lexemesFrom fuel line rest
        | .error what => [⟨.unclosed what, line + lineEnds source⟩]

/-- The tokens of a script. -/
def lexemes (text : String) : List Lexeme :=
  lexemesFrom (text.toList.length + 1) 1 text.toList

end PageBuild.Shell
