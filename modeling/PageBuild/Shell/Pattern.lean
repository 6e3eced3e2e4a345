/-!
# Patterns

Basic regular expressions: characters, a dot for any character, sets in square brackets, a star
after any of these, and the anchors of a line. A star takes as much as it can, and a pattern is
found where it first matches.
-/
namespace PageBuild.Shell

/-- What one character is matched by. -/
inductive Atom where
  | any
  | one (c : Char)
  /-- A set, or all characters outside of it. -/
  | among (negated : Bool) (chars : List Char)
  deriving DecidableEq, Repr

/-- Whether a character is matched. -/
def Atom.takes : Atom → Char → Bool
  | any, _ => true
  | one c, d => c == d
  | among negated chars, d => chars.contains d != negated

/-- A pattern. -/
structure Pattern where
  /-- Whether the pattern starts at the start of the line. -/
  atStart : Bool
  /-- The atoms, with whether a star follows. -/
  atoms : List (Atom × Bool)
  /-- Whether the pattern ends at the end of the line. -/
  atEnd : Bool
  deriving DecidableEq, Repr

namespace Pattern

/-- The atoms of a text, and whether the end of the line follows. -/
def readAtoms : Nat → List Char → List (Atom × Bool) × Bool
  | 0, _ => ([], false)
  | _ + 1, [] => ([], false)
  | _ + 1, ['$'] => ([], true)
  | fuel + 1, c :: rest =>
    let (atom, rest) : Atom × List Char :=
      match c, rest with
      | '.', rest => (.any, rest)
      | '\\', d :: rest => (.one d, rest)
      | '[', '^' :: rest =>
        (.among true (rest.takeWhile (· ≠ ']')), (rest.dropWhile (· ≠ ']')).drop 1)
      | '[', rest =>
        (.among false (rest.takeWhile (· ≠ ']')), (rest.dropWhile (· ≠ ']')).drop 1)
      | c, rest => (.one c, rest)
    match rest with
    | '*' :: rest =>
      let (atoms, atEnd) := readAtoms fuel rest
      ((atom, true) :: atoms, atEnd)
    | _ =>
      let (atoms, atEnd) := readAtoms fuel rest
      ((atom, false) :: atoms, atEnd)

/-- The pattern of a text. -/
def ofText (text : List Char) : Pattern :=
  let (atStart, text) : Bool × List Char :=
    match text with
    | '^' :: rest => (true, rest)
    | _ => (false, text)
  let (atoms, atEnd) := readAtoms (text.length + 1) text
  ⟨atStart, atoms, atEnd⟩

/-- What is left of a text after a match at its start. -/
def after? (atEnd : Bool) : List (Atom × Bool) → List Char → Option (List Char)
  | [], text => if atEnd ∧ text ≠ [] then none else some text
  | (atom, false) :: atoms, text =>
    match text with
    | c :: rest => if atom.takes c then after? atEnd atoms rest else none
    | [] => none
  | (atom, true) :: atoms, text =>
    let most := (text.takeWhile atom.takes).length
    (List.range (most + 1)).reverse.findSome? fun count => after? atEnd atoms (text.drop count)

/-- The text before the first match, the match, and the text after it. -/
def find? (pattern : Pattern) : List Char → Option (List Char × List Char × List Char)
  | [] => (after? pattern.atEnd pattern.atoms []).map fun rest => ([], [], rest)
  | c :: text =>
    match after? pattern.atEnd pattern.atoms (c :: text) with
    | some rest => some ([], (c :: text).take (text.length + 1 - rest.length), rest)
    | none =>
      if pattern.atStart then none
      else (pattern.find? text).map fun (before, found, rest) => (c :: before, found, rest)

/-- What a match is replaced by. -/
def replacement (found : List Char) : List Char → List Char
  | [] => []
  | '\\' :: c :: rest => c :: replacement found rest
  | '&' :: rest => found ++ replacement found rest
  | c :: rest => c :: replacement found rest

/-- A text with its matches replaced: the first one, or all. -/
def replace (pattern : Pattern) (by_ : List Char) (all : Bool) : Nat → List Char → List Char
  | 0, text => text
  | fuel + 1, text =>
    match pattern.find? text with
    | none => text
    | some (before, found, rest) =>
      before ++ replacement found by_ ++
        (if !all then rest
          else
            match found, rest with
            | [], c :: rest => c :: replace pattern by_ all fuel rest
            | _, _ => if rest.isEmpty then [] else replace pattern by_ all fuel rest)

end Pattern

end PageBuild.Shell
