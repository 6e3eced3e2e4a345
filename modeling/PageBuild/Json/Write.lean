import PageBuild.Json.Shortest
import PageBuild.Json.Value

/-!
# Writing JSON

Compact text: no blanks, members in order. A string escapes the quote, the backslash and the
control characters; a double always shows a fraction or an exponent, so that it is told apart
from an integer.
-/
namespace PageBuild

/-- The exponents of the leading digit for which a double is written without an exponent. -/
def Decimal.positional (leading : Int) : Bool := -5 ≤ leading && leading ≤ 15

/-- A decimal with a fraction or an exponent. -/
def Decimal.write (d : Decimal) : List Char :=
  let digits := Nat.toDigits 10 d.digits
  let leading := d.exponent + digits.length - 1
  if Decimal.positional leading then
    if 0 ≤ d.exponent then digits ++ List.replicate d.exponent.toNat '0' ++ ['.', '0']
    else if 0 ≤ leading then
      digits.take (leading.toNat + 1) ++ '.' :: digits.drop (leading.toNat + 1)
    else '0' :: '.' :: (List.replicate (-leading - 1).toNat '0' ++ digits)
  else
    let fraction := digits.drop 1
    digits.take 1 ++ (if fraction.isEmpty then [] else '.' :: fraction) ++
      'e' :: (if leading < 0 then '-' else '+') :: Nat.toDigits 10 leading.natAbs

/-- The shortest text of a double that reads back. -/
def Binary64.write (x : Binary64) : List Char :=
  (if x.negative then ['-'] else []) ++
    if x.isZero then ['0', '.', '0'] else x.shortest.write

/-- An integer in decimal. -/
def writeInteger (value : Int) : List Char :=
  (if value < 0 then ['-'] else []) ++ Nat.toDigits 10 value.natAbs

/-- A number as it stands in a JSON text. -/
def Number.write : Number → List Char
  | integer value _ => writeInteger value
  | real value => value.write

namespace Json

/-- The lowercase hexadecimal digits of a byte. -/
def byteDigits (value : Nat) : List Char :=
  [Nat.digitChar (value / 16 % 16), Nat.digitChar (value % 16)]

/-- One character as it stands between the quotes of a JSON string. -/
def escaped (c : Char) : List Char :=
  if c = '"' then ['\\', '"']
  else if c = '\\' then ['\\', '\\']
  else if c = '\x08' then ['\\', 'b']
  else if c = '\x0c' then ['\\', 'f']
  else if c = '\n' then ['\\', 'n']
  else if c = '\r' then ['\\', 'r']
  else if c = '\t' then ['\\', 't']
  else if c.toNat < 32 then ['\\', 'u', '0', '0'] ++ byteDigits c.toNat
  else [c]

/-- A string between quotes. -/
def quoted (text : String) : List Char :=
  '"' :: (text.toList.flatMap escaped ++ ['"'])

mutual
/-- The compact text of a value. -/
def write : Json → List Char
  | null => ['n', 'u', 'l', 'l']
  | bool true => ['t', 'r', 'u', 'e']
  | bool false => ['f', 'a', 'l', 's', 'e']
  | number value => value.write
  | string value => quoted value
  | array [] => ['[', ']']
  | array (item :: rest) => '[' :: (item.write ++ writeItems rest)
  | object [] => ['{', '}']
  | object ((key, value) :: rest) =>
    '{' :: (quoted key ++ ':' :: (value.write ++ writeMembers rest))

/-- The items after the first, and the closing bracket. -/
def writeItems : List Json → List Char
  | [] => [']']
  | item :: rest => ',' :: (item.write ++ writeItems rest)

/-- The members after the first, and the closing brace. -/
def writeMembers : List (String × Json) → List Char
  | [] => ['}']
  | (key, value) :: rest => ',' :: (quoted key ++ ':' :: (value.write ++ writeMembers rest))
end

/-- The compact text of a value, as a string. -/
def render (value : Json) : String := String.ofList value.write

end Json

end PageBuild
