import PageBuild.Text.Basic

/-!
# Paths

A path is a text whose pieces between slashes name steps through directories. Empty pieces and
inner single dots are no steps, and neither is a trailing one; a leading slash starts at the root
and a leading dot in the current directory.
-/
namespace PageBuild

/-- A path, as written. -/
structure Path where
  text : String
  deriving DecidableEq, Repr, Inhabited

/-- A step of a path. -/
inductive PathPart where
  | root
  | current
  | parent
  | normal (name : String)
  deriving DecidableEq, Repr

/-- A step as text. -/
def PathPart.text : PathPart → String
  | root => "/"
  | current => "."
  | parent => ".."
  | normal name => name

namespace Path

instance : Coe String Path := ⟨Path.mk⟩

/-- The pieces between slashes. -/
def pieces (path : Path) : List String := Text.split '/' path.text

/-- Whether the path starts at the root. -/
def isAbsolute (path : Path) : Bool := path.text.toList.head? == some '/'

/-- The step that a piece names, if it is one. -/
def partOf? (piece : String) : Option PathPart :=
  if piece = "" ∨ piece = "." then none
  else if piece = ".." then some .parent
  else some (.normal piece)

/-- The steps of a path. -/
def parts (path : Path) : List PathPart :=
  match path.pieces with
  | [] => []
  | first :: rest =>
    (if path.isAbsolute then [.root]
      else if first = "." then [.current]
      else (partOf? first).toList) ++ rest.filterMap partOf?

/-- A path below another one: an absolute path stands for itself, and any other follows the first
after a slash. -/
def join (path other : Path) : Path :=
  if other.isAbsolute ∨ path.text = "" then other
  else if path.text.toList.getLast? = some '/' then ⟨path.text ++ other.text⟩
  else ⟨path.text ++ "/" ++ other.text⟩

/-- Whether a piece is no step when it does not come first. -/
def isBlankPiece (piece : String) : Bool := piece = "" || piece = "."

/-- The pieces without those at the end that are no steps; the first piece stays. -/
def withoutTrailing (pieces : List String) : List String :=
  match pieces with
  | [] => []
  | first :: rest => first :: (rest.reverse.dropWhile isBlankPiece).reverse

/-- The path of pieces; one empty piece is the root. -/
def ofPieces (pieces : List String) : Path :=
  if pieces = [""] then ⟨"/"⟩ else ⟨Text.join '/' pieces⟩

/-- The path without its last step; the root and the empty path have none. -/
def parent? (path : Path) : Option Path :=
  let pieces := withoutTrailing path.pieces
  if pieces = [""] then none
  else if pieces.length ≤ 1 then some ⟨""⟩
  else some (ofPieces (withoutTrailing pieces.dropLast))

/-- The name in the last step. -/
def fileName? (path : Path) : Option String :=
  match (withoutTrailing path.pieces).getLast? with
  | some piece =>
    match partOf? piece with
    | some (.normal name) => some name
    | _ => none
  | none => none

/-- A file name before and after its last dot; a name that only starts with a dot has no
extension. -/
def splitExtension (name : String) : String × Option String :=
  match (Text.split '.' name).reverse with
  | extension :: stem :: rest =>
    let stem := Text.join '.' (stem :: rest).reverse
    if stem = "" then (name, none) else (stem, some extension)
  | _ => (name, none)

/-- The part of the file name after its last dot. -/
def extension? (path : Path) : Option String :=
  path.fileName?.bind fun name => (splitExtension name).2

/-- The file name without its extension. -/
def fileStem? (path : Path) : Option String :=
  path.fileName?.map fun name => (splitExtension name).1

/-- The path with the extension of its file name cut off. -/
def withoutExtension (path : Path) : Path :=
  match path.fileStem? with
  | some stem => ofPieces ((withoutTrailing path.pieces).dropLast ++ [stem])
  | none => path

/-- The steps after those of a base, when the path starts with them. -/
def partsBelow? : List PathPart → List PathPart → Option (List PathPart)
  | [], parts => some parts
  | _ :: _, [] => none
  | base :: bases, part :: parts => if base = part then partsBelow? bases parts else none

/-- The path relative to a base that it starts with. -/
def relativeTo? (path base : Path) : Option Path :=
  (partsBelow? base.parts path.parts).map fun parts =>
    ⟨Text.join '/' (parts.map PathPart.text)⟩

/-- The steps relative to a base, or all steps when the path does not start with it, joined by
slashes. -/
def relativeKey (base path : Path) : String :=
  Text.join '/' (((partsBelow? base.parts path.parts).getD path.parts).map PathPart.text)

/-- The path from the root of one that may start in a directory. Pieces that are no steps are
left out; two slashes at the start are kept, and so is a slash at the end. -/
def absolute (path here : Path) : Path :=
  let steps := ((path.parts.filter fun part => part ≠ .root ∧ part ≠ .current).map PathPart.text)
  let start : Path :=
    if !path.isAbsolute then here
    else
      match path.pieces with
      | "" :: "" :: third :: more => if third = "" ∧ more ≠ [] then ⟨"/"⟩ else ⟨"//"⟩
      | _ => ⟨"/"⟩
  let whole := if steps.isEmpty then start else start.join ⟨Text.join '/' steps⟩
  if path.text.toList.getLast? = some '/' then whole.join ⟨""⟩ else whole

end Path

end PageBuild
