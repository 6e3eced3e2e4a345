import PageBuild.Json.Read
import PageBuild.Template.Reference

/-!
# Expressions

What stands inside a tag: a reference, or a helper with its parameters and its named options. A
parameter is a literal, a reference, or a helper in parentheses. A literal is read as JSON, and a
string may stand between single quotes.
-/
namespace PageBuild.Template

/-- A parameter of a helper. -/
inductive Param where
  | literal (value : Json)
  /-- A reference, with its text. -/
  | reference (text : String) (target : Reference)
  /-- A helper in parentheses. -/
  | call (helper : String) (params : List Param) (options : List (String × Param))

/-- A helper with what it is given. -/
structure Call where
  helper : String
  params : List Param
  options : List (String × Param)

/-- The text between quotes, up to the closing one, with its escapes as they stand. -/
def quotedText? (quote : Char) : Source → Option (List Char × Source)
  | [] => none
  | c :: rest =>
    if c = quote then some ([], rest)
    else if c = '\\' then
      match rest with
      | [] => none
      | 'u' :: a :: b :: d :: e :: rest =>
        if [a, b, d, e].all fun digit => (Json.hexValue? digit).isSome then
          (quotedText? quote rest).map fun (text, rest) =>
            ('\\' :: 'u' :: a :: b :: d :: e :: text, rest)
        else none
      | escape :: rest =>
        if [quote, '\\', '/', 'b', 'f', 'n', 'r', 't'].contains escape then
          (quotedText? quote rest).map fun (text, rest) => ('\\' :: escape :: text, rest)
        else none
    else (quotedText? quote rest).map fun (text, rest) => (c :: text, rest)

/-- The text of a single-quoted string as it stands between double quotes. -/
def doubleQuoted : List Char → List Char
  | [] => []
  | '\\' :: '\'' :: rest => '\'' :: doubleQuoted rest
  | '\\' :: c :: rest => '\\' :: c :: doubleQuoted rest
  | '"' :: rest => '\\' :: '"' :: doubleQuoted rest
  | c :: rest => c :: doubleQuoted rest

/-- The source after an exponent, if it has one. -/
def skipExponent (source : Source) : Source :=
  match source with
  | 'E' :: rest =>
    let digits := (after? "-" rest).getD rest
    if (digits.takeWhile Char.isDigit).isEmpty then source else digits.dropWhile Char.isDigit
  | _ => source

/-- The text of a number, which no name continues. -/
def numberText? (source : Source) : Option (List Char × Source) :=
  let digits := (after? "-" source).getD source
  if (digits.takeWhile Char.isDigit).isEmpty then none
  else
    let whole := digits.dropWhile Char.isDigit
    let rest := skipExponent (((after? "." whole).getD whole).dropWhile Char.isDigit)
    if endsName rest then some (source.take (source.length - rest.length), rest) else none

/-- The text of one of the words that are literals, which no name continues. -/
def wordText? (source : Source) : Option (List Char × Source) :=
  ["null", "true", "false"].findSome? fun word =>
    match after? word source with
    | some rest => if endsName rest then some (word.toList, rest) else none
    | none => none

/-- The JSON text of the literal that a source starts with. -/
def literalText? (source : Source) : Option (List Char × Source) :=
  match source with
  | '"' :: rest => (quotedText? '"' rest).map fun (text, rest) => ('"' :: (text ++ ['"']), rest)
  | '\'' :: rest =>
    (quotedText? '\'' rest).map fun (text, rest) => ('"' :: (doubleQuoted text ++ ['"']), rest)
  | _ => numberText? source <|> wordText? source

/-- The value of a JSON text. -/
def literal? (text : List Char) : Option Json :=
  (Json.ofText Json.value (String.ofList text)).toOption

/-- Whether a source starts with one of the words that are no parameters. -/
def startsKeyword (source : Source) : Bool :=
  ["as", "else"].any fun word =>
    match after? word source with
    | some rest => endsName rest
    | none => false

/-- A reference with the text that it takes up. -/
def reference? (source : Source) : Option (Param × Source) :=
  (Reference.read? source).map fun (target, rest) =>
    (.reference (String.ofList (source.take (source.length - rest.length))) target, rest)

mutual
/-- The parameter that a source starts with. -/
def param? : Nat → Source → Option (Param × Source)
  | 0, _ => none
  | fuel + 1, source =>
    if startsKeyword source then none
    else
      match literalText? source with
      | some (text, rest) => (literal? text).map fun value => (.literal value, rest)
      | none => reference? source <|> nested? fuel source

/-- A helper in parentheses. -/
def nested? : Nat → Source → Option (Param × Source)
  | 0, _ => none
  | fuel + 1, source =>
    match after? "(" source with
    | none => none
    | some inner =>
      match name? (skipGap inner) with
      | none => lone? inner
      | some (helper, rest) =>
        match arguments fuel rest with
        | ([], [], _) => lone? inner
        | (params, options, rest) =>
          (token? ")" rest).map fun rest => (.call helper params options, rest)

/-- The parameters and the options that follow a name, and the rest. -/
def arguments : Nat → Source → List Param × List (String × Param) × Source
  | 0, source => ([], [], source)
  | fuel + 1, source =>
    match option? fuel (skipGap source) with
    | some (name, value, rest) =>
      let (params, options, rest) := arguments fuel rest
      (params, (name, value) :: options, rest)
    | none =>
      match param? fuel (skipGap source) with
      | some (param, rest) =>
        let (params, options, rest) := arguments fuel rest
        (param :: params, options, rest)
      | none => ([], [], source)

/-- A name with a value. -/
def option? : Nat → Source → Option (String × Param × Source)
  | 0, _ => none
  | fuel + 1, source =>
    match name? source with
    | none => none
    | some (name, rest) =>
      match token? "=" rest with
      | none => none
      | some rest => (param? fuel (skipGap rest)).map fun (value, rest) => (name, value, rest)

/-- A reference alone in parentheses, which is a helper without parameters. -/
def lone? (inner : Source) : Option (Param × Source) :=
  match reference? (skipGap inner) with
  | some (.reference text _, rest) => (token? ")" rest).map fun rest => (.call text [] [], rest)
  | _ => none
end

/-- More steps than the reading of a source can nest. -/
def readingFuel (source : Source) : Nat := 4 * source.length + 4

/-- The arguments that a source starts with. -/
def readArguments (source : Source) : List Param × List (String × Param) × Source :=
  arguments (readingFuel source) source

/-- A helper with any number of arguments. -/
def call? (source : Source) : Option (Call × Source) :=
  match name? (skipGap source) with
  | none => none
  | some (helper, rest) =>
    let (params, options, rest) := readArguments rest
    some (⟨helper, params, options⟩, rest)

/-- What a tag shows: a helper with arguments, or a value. -/
inductive Shown where
  | call (call : Call)
  | value (param : Param)

/-- A value that stands alone: a reference, or a helper in parentheses. -/
def value? (source : Source) : Option (Param × Source) :=
  reference? (skipGap source) <|> nested? (readingFuel source) (skipGap source)

/-- What the tag shows that a source stands in. -/
def shown? (source : Source) : Option (Shown × Source) :=
  match call? source with
  | some (⟨_, [], []⟩, _) => (value? source).map fun (param, rest) => (.value param, rest)
  | some (call, rest) => some (.call call, rest)
  | none => (value? source).map fun (param, rest) => (.value param, rest)

end PageBuild.Template
