import PageBuild.Template.Tag
import PageBuild.Text.Basic

/-!
# Elements

A template as a tree: text, values, and blocks with two branches. The tree is built piece by
piece; text loses the white space that the tags around it remove, and a statement that is alone
on its line takes the line with it.
-/
namespace PageBuild.Template

/-- An element of a template. -/
inductive Element where
  | text (content : List Char)
  /-- A comment, which shows nothing. -/
  | comment
  | output (shown : Shown)
  /-- Another template, of which there is none. -/
  | insert
  /-- A block with its branches. -/
  | block (call : Call) (body : List Element) (otherwise : Option (List Element))

/-- A block that is being read. -/
structure OpenBlock where
  call : Call
  /-- Whether the block is the other branch of the block around it. -/
  chained : Bool
  /-- The elements before the block, last first. -/
  before : List Element
  /-- The first branch, last element first, once the other branch has begun. -/
  body : Option (List Element)

/-- What has been read of a template. -/
structure Draft where
  /-- The elements of the innermost branch, last first. -/
  branch : List Element
  /-- The blocks around it, innermost first. -/
  blocks : List OpenBlock
  /-- Whether the next text loses the white space at its start. -/
  trimStart : Bool
  /-- Whether the next text loses the rest of its first line. -/
  trimLine : Bool

/-- Characters without those of a kind at the end. -/
def trimEnd (kind : Char → Bool) (text : List Char) : List Char :=
  (text.reverse.dropWhile kind).reverse

/-- Characters without the rest of a line that is blank. -/
def withoutLine (text : List Char) : List Char :=
  match text.dropWhile isSpace with
  | '\r' :: '\n' :: rest => rest
  | '\n' :: rest => rest
  | rest => rest

/-- A change of the text that stands last. -/
def onLastText (change : List Char → List Char) : List Element → List Element
  | .text content :: rest => .text (change content) :: rest
  | elements => elements

namespace Draft

/-- Nothing read yet. -/
def empty : Draft := ⟨[], [], false, false⟩

/-- Add an element to the innermost branch. -/
def push (draft : Draft) (element : Element) : Draft :=
  { draft with branch := element :: draft.branch }

/-- Add text. Gaps between tags are dropped whole where white space is removed. -/
def addText (draft : Draft) (content : List Char) : Draft :=
  if content.all isGap then
    if draft.trimStart then draft
    else
      { draft.push (.text (if draft.trimLine then withoutLine content else content)) with
        trimLine := false }
  else
    let content :=
      if draft.trimStart then content.dropWhile Text.isBlank
      else if draft.trimLine then withoutLine content
      else content
    { draft.push (.text content) with trimLine := false }

/-- Remove the white space that a tag removes on its sides. -/
def trimSides (draft : Draft) (form : TagForm) : Draft :=
  { draft with
    branch :=
      if form.trimBefore then onLastText (trimEnd Text.isBlank) draft.branch else draft.branch
    trimStart := form.trimAfter }

/-- Remove the line of a statement that is alone on it. -/
def takeLine (draft : Draft) (alone : Bool) : Draft :=
  { draft with
    branch := if alone then onLastText (trimEnd isSpace) draft.branch else draft.branch
    trimLine := alone }

/-- Begin a block. -/
def begin_ (draft : Draft) (call : Call) : Draft :=
  { draft with branch := [], blocks := ⟨call, false, draft.branch, none⟩ :: draft.blocks }

/-- Begin the other branch of the innermost block, which has none yet. -/
def turn? (draft : Draft) : Option Draft :=
  match draft.blocks with
  | [] => none
  | block :: rest =>
    match block.body with
    | some _ => none
    | none =>
      some { draft with branch := [], blocks := { block with body := some draft.branch } :: rest }

/-- Begin a block that is the other branch of the innermost block. -/
def chain? (draft : Draft) (call : Call) : Option Draft :=
  draft.turn?.map fun draft =>
    { draft with blocks := ⟨call, true, [], none⟩ :: draft.blocks }

/-- The element of a block whose last branch ends. -/
def blockOf (block : OpenBlock) (branch : List Element) : Element :=
  match block.body with
  | none => .block block.call branch.reverse none
  | some body => .block block.call body.reverse (some branch.reverse)

/-- End the innermost block and those that it is the other branch of. -/
def end? (name : String) : List OpenBlock → List Element → Option (List Element × List OpenBlock)
  | [], _ => none
  | block :: rest, branch =>
    if block.chained then end? name rest [blockOf block branch]
    else if block.call.helper = name then some (blockOf block branch :: block.before, rest)
    else none

/-- Add a tag. -/
def addTag? (draft : Draft) (form : TagForm) (alone : Bool) : Option Draft :=
  match form.tag with
  | .comment => some ((draft.takeLine alone).push .comment)
  | .output shown => some ((draft.trimSides form).push (.output shown))
  | .insert => some (((draft.trimSides form).takeLine alone).push .insert)
  | .opening call => some (((draft.trimSides form).takeLine alone).begin_ call)
  | .otherwise => ((draft.trimSides form).takeLine alone).turn?
  | .otherwiseOpening call => ((draft.trimSides form).takeLine alone).chain? call
  | .closing name =>
    let draft := (draft.trimSides form).takeLine alone
    (end? name draft.blocks draft.branch).map fun (branch, blocks) => { draft with branch, blocks }

/-- Add a piece. -/
def add? (draft : Draft) : Piece → Option Draft
  | .text content => some (draft.addText content)
  | .tag form alone => draft.addTag? form alone

end Draft

/-- The elements of pieces, when every block is closed. -/
def elements? (pieces : List Piece) : Option (List Element) :=
  match pieces.foldlM Draft.add? .empty with
  | some draft => if draft.blocks.isEmpty then some draft.branch.reverse else none
  | none => none

/-- The elements of a template text. -/
def read? (template : String) : Option (List Element) := (pieces? template.toList).bind elements?

end PageBuild.Template
