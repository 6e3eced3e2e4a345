/-!
# Texts

What is asked of texts and made of them: trimming blanks, splitting at separators, the names of path
components, kebab case, and unsigned decimals.
-/
namespace PageBuild.Text

/-! ## Blank characters

The characters that are trimmed off the ends of a text: the spaces, line breaks and separators of
Unicode's white space property. -/

/-- Whether a character is white space. -/
def isBlank (c : Char) : Bool :=
  let code := c.toNat
  (9 ≤ code && code ≤ 13) || code = 0x20 || code = 0x85 || code = 0xA0 || code = 0x1680 ||
    (0x2000 ≤ code && code ≤ 0x200A) || code = 0x2028 || code = 0x2029 || code = 0x202F ||
    code = 0x205F || code = 0x3000

/-- The characters without the white space at both ends. -/
def trimmed (text : List Char) : List Char :=
  ((text.dropWhile isBlank).reverse.dropWhile isBlank).reverse

/-- Whether a text holds nothing but white space. -/
def isAllBlank (text : String) : Bool := text.toList.all isBlank

/-! ## Splitting

A text is split at every separator, so that there is one piece more than there are separators,
and joining the pieces with the separator gives the text back. -/

/-- The pieces between the separators. -/
def splitChars (separator : Char) : List Char → List (List Char)
  | [] => [[]]
  | c :: rest =>
    if c = separator then [] :: splitChars separator rest
    else
      match splitChars separator rest with
      | [] => [[c]]
      | piece :: pieces => (c :: piece) :: pieces

/-- The pieces of a text between the separators. -/
def split (separator : Char) (text : String) : List String :=
  (splitChars separator text.toList).map String.ofList

/-- The pieces of a text with the separator between them. -/
def join (separator : Char) (pieces : List String) : String :=
  String.ofList (List.intercalate [separator] (pieces.map String.toList))

/-! ## Plain names

A plain name can be joined onto a directory as one path component without leaving it: it is not
empty, holds no slash or backslash, and is neither the current nor the parent directory. -/

/-- Whether a name is a single path component that stays in its directory. -/
def isPlainName (name : String) : Bool :=
  name ≠ "" && !name.toList.contains '/' && !name.toList.contains '\\' &&
    name ≠ "." && name ≠ ".."

/-! ## Kebab case

A camel-case key becomes an attribute name: every ASCII capital is a hyphen and its small letter,
and every other character stays as it is. -/

/-- One character of a key in kebab case. -/
def kebabChar (c : Char) : List Char := if c.isUpper then ['-', c.toLower] else [c]

/-- A key in kebab case. -/
def kebabCase (key : String) : String := String.ofList (key.toList.flatMap kebabChar)

/-! ## Unsigned decimals

The decimal text of a natural number and the reading of it: one or more digits, after an optional
plus sign, up to a limit. -/

/-- The value of a run of decimal digits, none when another character stands in it. -/
def digitsValue? (digits : List Char) : Option Nat :=
  digits.foldl
    (fun value c =>
      match value with
      | some value => if c.isDigit then some (value * 10 + (c.toNat - '0'.toNat)) else none
      | none => none)
    (some 0)

/-- The natural number of a decimal text, when it is below a limit. -/
def unsigned? (limit : Nat) (text : List Char) : Option Nat :=
  let digits :=
    match text with
    | '+' :: rest => rest
    | _ => text
  if digits.isEmpty then none
  else
    match digitsValue? digits with
    | some value => if value < limit then some value else none
    | none => none

end PageBuild.Text
