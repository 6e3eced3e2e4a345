import PageBuild.Template.Expression

/-!
# Tags and text

A template is text with tags between double braces. A backslash before the braces makes them
text; of several backslashes one is dropped and the braces open a tag. A tilde inside a brace
removes the white space on its side, and a tag that is alone on its line can take the line with
it.
-/
namespace PageBuild.Template

/-- What a tag does. -/
inductive Tag where
  | comment
  /-- Shows a value. -/
  | output (shown : Shown)
  /-- Opens a block. -/
  | opening (call : Call)
  /-- Starts the other branch of a block. -/
  | otherwise
  /-- Starts the other branch of a block with a block of its own. -/
  | otherwiseOpening (call : Call)
  /-- Closes a block. -/
  | closing (name : String)
  /-- Inserts another template. -/
  | insert

/-- A tag with the sides on which it removes white space. -/
structure TagForm where
  tag : Tag
  trimBefore : Bool
  trimAfter : Bool

/-- The source after the end of a comment. -/
def commentEnd? (mark : String) : Source → Option Source
  | [] => after? mark []
  | c :: rest => (after? mark (c :: rest)) <|> commentEnd? mark rest

/-- Whether a tilde comes next, and the source after it. -/
def tilde (source : Source) : Bool × Source :=
  match token? "~" source with
  | some rest => (true, rest)
  | none => (false, source)

/-- The end of a tag: whether it removes the white space after it, and what follows. -/
def tagEnd? (source : Source) : Option (Bool × Source) :=
  let (trim, rest) := tilde source
  (token? "\x7d\x7d" rest).map fun rest => (trim, rest)

/-- A comment after the opening braces. -/
def comment? (source : Source) : Option Source :=
  match token? "!" source with
  | none => none
  | some rest =>
    (token? "--" rest).bind (commentEnd? "--\x7d\x7d") <|> commentEnd? "\x7d\x7d" rest

/-- The other branch of a block, after the opening braces and the tilde. -/
def otherwise? (source : Source) : Option (Tag × Bool × Source) :=
  match token? "else" source <|> token? "^" source with
  | none => none
  | some rest =>
    let chained :=
      match call? rest with
      | some (call, rest) =>
        (tagEnd? rest).map fun (trim, rest) => (Tag.otherwiseOpening call, trim, rest)
      | none => none
    chained <|> (tagEnd? rest).map fun (trim, rest) => (.otherwise, trim, rest)

/-- A value between triple braces, after the first two and the tilde. -/
def tripled? (source : Source) : Option (Bool × Tag × Bool × Source) :=
  match token? "\x7b" source with
  | none => none
  | some rest =>
    let (trimBefore, rest) := tilde rest
    match shown? rest with
    | none => none
    | some (shown, rest) =>
      let (inner, rest) := tilde rest
      match token? "\x7d" rest with
      | none => none
      | some rest =>
        (tagEnd? rest).map fun (outer, rest) => (trimBefore, .output shown, inner || outer, rest)

/-- The name of another template, with its arguments. -/
def inserted? (source : Source) : Option Source :=
  let name := (skipGap source).dropWhile fun c => isNameChar c || c == '/' || c == '.'
  if name.length < (skipGap source).length then some (readArguments name).2.2
  else (value? source).map fun (_, rest) => (readArguments rest).2.2

/-- A tag of any other kind, after the opening braces and the tilde. -/
def plain? (source : Source) : Option (Tag × Source) :=
  match skipGap source with
  | '#' :: rest => (call? rest).map fun (call, rest) => (.opening call, rest)
  | '/' :: rest => (name? (skipGap rest)).map fun (name, rest) => (.closing name, rest)
  | '>' :: rest => (inserted? rest).map fun rest => (.insert, rest)
  | '&' :: rest => (value? rest).map fun (param, rest) => (.output (.value param), rest)
  | _ => (shown? source).map fun (shown, rest) => (.output shown, rest)

/-- The tag after its opening braces, and the source after it. -/
def TagForm.read? (source : Source) : Option (TagForm × Source) :=
  match comment? source with
  | some rest => some (⟨.comment, false, false⟩, rest)
  | none =>
    let (trimBefore, inner) := tilde source
    match otherwise? inner with
    | some (tag, trimAfter, rest) => some (⟨tag, trimBefore, trimAfter⟩, rest)
    | none =>
      match tripled? inner with
      | some (alsoBefore, tag, trimAfter, rest) =>
        some (⟨tag, trimBefore || alsoBefore, trimAfter⟩, rest)
      | none =>
        match plain? inner with
        | none => none
        | some (tag, rest) =>
          (tagEnd? rest).map fun (trimAfter, rest) => (⟨tag, trimBefore, trimAfter⟩, rest)

/-- A piece of a template: text, or a tag and whether it is alone on its line. -/
inductive Piece where
  | text (content : List Char)
  | tag (form : TagForm) (alone : Bool)

/-- Whether a character is a space or a tab. -/
def isSpace (c : Char) : Bool := c == ' ' || c == '\t'

/-- Whether a character ends a line. -/
def isLineEnd (c : Char) : Bool := c == '\n' || c == '\r'

/-- Whether nothing but spaces is left on a line that ends, or nothing at all is left. -/
def endsLine (rest : Source) : Bool :=
  match rest with
  | [] => true
  | _ =>
    match rest.dropWhile isSpace with
    | c :: _ => isLineEnd c
    | [] => false

/-- Whether only spaces have been read on the line once another character is read. -/
def stillBlank (blank : Bool) (c : Char) : Bool :=
  if isLineEnd c then true else if isSpace c then blank else false

/-- A piece of text in front of pieces, unless it is empty. -/
def textPiece (reversed : List Char) (pieces : List Piece) : List Piece :=
  match reversed with
  | [] => pieces
  | _ => .text reversed.reverse :: pieces

/-- The pieces of a source: the text read so far is kept last character first, with whether only
spaces were read on its line. -/
def piecesFrom : Nat → List Char → Bool → Source → Option (List Piece)
  | 0, _, _, _ => none
  | _ + 1, text, _, [] => some (textPiece text [])
  | fuel + 1, text, blank, c :: source =>
    if c = '\\' then
      let more := source.takeWhile (· = '\\')
      let rest := source.dropWhile (· = '\\')
      match after? "\x7b\x7b" rest with
      | none => piecesFrom fuel (more ++ '\\' :: text) false rest
      | some braced =>
        if more.isEmpty then
          match after? "\x7b\x7b" braced with
          | some rest => piecesFrom fuel ('\x7b' :: '\x7b' :: '\x7b' :: '\x7b' :: text) false rest
          | none => piecesFrom fuel ('\x7b' :: '\x7b' :: text) false braced
        else piecesFrom fuel (more ++ text) false rest
    else
      match after? "\x7b\x7b" (c :: source) with
      | some inner =>
        match TagForm.read? inner with
        | none => none
        | some (form, rest) =>
          (piecesFrom fuel [] false rest).map fun pieces =>
            textPiece text (.tag form (blank && endsLine rest) :: pieces)
      | none => piecesFrom fuel (c :: text) (stillBlank blank c) source

/-- The pieces of a template. -/
def pieces? (source : Source) : Option (List Piece) := piecesFrom (source.length + 1) [] true source

end PageBuild.Template
