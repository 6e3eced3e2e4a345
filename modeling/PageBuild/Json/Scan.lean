import PageBuild.Json.Fault

/-!
# Scanning a JSON text

The pieces that a value is made of, each read from the front of the text with what is left:
blanks, literal words, strings and numbers. A string pairs escaped surrogates; a number without
fraction and exponent stays an integer while it fits 64 bits, and is a double otherwise.
-/
namespace PageBuild.Json

/-- The part of a JSON text that is still to be read. -/
abbrev Input := List Char

/-- Something read from the front of a text, and the rest. -/
abbrev Step (α : Type) := Except Fault (α × Input)

/-- The four blanks between tokens. -/
def isBlank (c : Char) : Bool := c == ' ' || c == '\t' || c == '\n' || c == '\r'

/-- The text from its first character that is no blank. -/
def skipBlanks (input : Input) : Input := input.dropWhile isBlank

/-- The rest of a literal word. -/
def word : List Char → Input → Except Fault Input
  | [], input => .ok input
  | _ :: _, [] => .error .endInValue
  | letter :: letters, c :: input =>
    if c = letter then word letters input else .error .expectedWord

/-- The value of a hexadecimal digit of either case. -/
def hexValue? (c : Char) : Option Nat :=
  if '0' ≤ c ∧ c ≤ '9' then some (c.toNat - '0'.toNat)
  else if 'a' ≤ c ∧ c ≤ 'f' then some (c.toNat - 'a'.toNat + 10)
  else if 'A' ≤ c ∧ c ≤ 'F' then some (c.toNat - 'A'.toNat + 10)
  else none

/-- The code of four hexadecimal digits. -/
def hexQuad? : Input → Option (Nat × Input)
  | a :: b :: c :: d :: input =>
    match hexValue? a, hexValue? b, hexValue? c, hexValue? d with
    | some a, some b, some c, some d => some (((a * 16 + b) * 16 + c) * 16 + d, input)
    | _, _, _, _ => none
  | _ => none

/-- The code after a backslash and `u`: four digits, or a fault that tells a text of fewer than
four bytes from one with other characters. -/
def hexEscape (input : Input) : Step Nat :=
  match hexQuad? input with
  | some found => .ok found
  | none =>
    if input.foldl (fun size c => size + c.utf8Size) 0 < 4 then .error .endInString
    else .error .invalidEscape

/-- The least code of a leading surrogate. -/
def leadingSurrogate : Nat := 0xD800

/-- The least code of a trailing surrogate. -/
def trailingSurrogate : Nat := 0xDC00

/-- The first code after the surrogates. -/
def surrogateEnd : Nat := 0xE000

/-- The character of a surrogate pair. -/
def pairedSurrogates (leading trailing : Nat) : Char :=
  Char.ofNat ((leading - leadingSurrogate) * 1024 + (trailing - trailingSurrogate) + 0x10000)

/-- The character that an escaped code stands for, with its second half when it is a leading
surrogate. -/
def unicodeEscape (input : Input) : Except Fault (Char × Input) := do
  let (code, input) ← hexEscape input
  if trailingSurrogate ≤ code ∧ code < surrogateEnd then .error .loneSurrogate
  else if code < leadingSurrogate ∨ surrogateEnd ≤ code then .ok (Char.ofNat code, input)
  else
    match input with
    | [] => .error .endInString
    | ['\\'] => .error .endInString
    | '\\' :: 'u' :: input => do
      let (trailing, input) ← hexEscape input
      if trailingSurrogate ≤ trailing ∧ trailing < surrogateEnd then
        .ok (pairedSurrogates code trailing, input)
      else .error .loneSurrogate
    | _ => .error .unfinishedSurrogate

/-- The character of an escape of one letter. -/
def shortEscape? (c : Char) : Option Char :=
  match c with
  | '"' => some '"'
  | '\\' => some '\\'
  | '/' => some '/'
  | 'b' => some '\x08'
  | 'f' => some '\x0c'
  | 'n' => some '\n'
  | 'r' => some '\r'
  | 't' => some '\t'
  | _ => none

/-- The characters up to the closing quote, after those already read, last first. -/
def stringBody : Nat → List Char → Input → Except Fault (String × Input)
  | 0, _, _ => .error .endInString
  | _ + 1, _, [] => .error .endInString
  | fuel + 1, read, c :: input =>
    if c = '"' then .ok (String.ofList read.reverse, input)
    else if c = '\\' then
      match input with
      | [] => .error .endInString
      | 'u' :: input => do
        let (c, input) ← unicodeEscape input
        stringBody fuel (c :: read) input
      | letter :: input =>
        match shortEscape? letter with
        | some c => stringBody fuel (c :: read) input
        | none => .error .invalidEscape
    else if c.toNat < 32 then .error .controlCharacter
    else stringBody fuel (c :: read) input

/-- A string after its opening quote. -/
def readString (input : Input) : Step String := stringBody (input.length + 1) [] input

/-- The value of a decimal digit. -/
def digitValue (c : Char) : Nat := c.toNat - '0'.toNat

/-- The greatest significand that is kept. -/
def significandMax : Nat := 18446744073709551615

/-- Append digits to a significand while it stays within 64 bits: the significand, how many
digits it took, and the rest. -/
def absorb (significand taken : Nat) : Input → Nat × Nat × Input
  | [] => (significand, taken, [])
  | c :: input =>
    if c.isDigit ∧ significand * 10 + digitValue c ≤ significandMax then
      absorb (significand * 10 + digitValue c) (taken + 1) input
    else (significand, taken, c :: input)

/-- The value of a run of digits. -/
def digitsValue (digits : List Char) : Nat :=
  digits.foldl (fun value c => value * 10 + digitValue c) 0

/-- The number that a double is, if there is one. -/
def doubleNumber (found : Option Binary64) (input : Input) : Step Number :=
  match found with
  | some value => .ok (.real value, input)
  | none => .error .numberOutOfRange

/-- The double of a sign, a significand and a power of ten. -/
def realNumber (negative : Bool) (significand : Nat) (exponent : Int) (input : Input) :
    Step Number :=
  doubleNumber (Binary64.ofDecimal? negative significand exponent) input

/-- A number from the digits of its exponent on, which may count down. -/
def exponentDigits (negative : Bool) (significand : Nat) (exponent : Int) (down : Bool)
    (digits : Input) : Step Number :=
  match digits with
  | [] => .error .endInValue
  | c :: _ =>
    if c.isDigit then
      let shift := Int.ofNat (digitsValue (digits.takeWhile Char.isDigit))
      realNumber negative significand (if down then exponent - shift else exponent + shift)
        (digits.dropWhile Char.isDigit)
    else .error .invalidNumber

/-- A number from its exponent on, if it has one. -/
def exponentPart (negative : Bool) (significand : Nat) (exponent : Int) (input : Input) :
    Step Number :=
  match input with
  | [] => realNumber negative significand exponent input
  | mark :: rest =>
    if mark = 'e' ∨ mark = 'E' then
      match rest with
      | '+' :: digits => exponentDigits negative significand exponent false digits
      | '-' :: digits => exponentDigits negative significand exponent true digits
      | digits => exponentDigits negative significand exponent false digits
    else realNumber negative significand exponent input

/-- A number without fraction and exponent that fits 64 bits: negative zero is a double, and so
is what lies below the least signed integer. -/
def wholeNumber (negative : Bool) (significand : Nat) (input : Input) : Step Number :=
  if negative then
    if h : 0 < significand ∧ significand ≤ 9223372036854775808 then
      .ok (.integer (-Int.ofNat significand) (by simp only [Int.ofNat_eq_natCast]; omega), input)
    else realNumber true significand 0 input
  else if h : significand ≤ significandMax then
    .ok (.integer (Int.ofNat significand)
      (by simp only [Int.ofNat_eq_natCast, significandMax] at *; omega), input)
  else realNumber false significand 0 input

/-- A number after its integer digits, of which `dropped` did not fit the significand. -/
def fractionPart (negative : Bool) (significand dropped : Nat) (input : Input) : Step Number :=
  match input with
  | [] =>
    if dropped = 0 then wholeNumber negative significand input
    else realNumber negative significand dropped input
  | '.' :: [] => .error .endInValue
  | '.' :: c :: rest =>
    if c.isDigit then
      let (significand, taken, rest) := absorb significand 0 (c :: rest)
      exponentPart negative significand (Int.ofNat dropped - Int.ofNat taken)
        (rest.dropWhile Char.isDigit)
    else .error .invalidNumber
  | c :: _ =>
    if c = 'e' ∨ c = 'E' then exponentPart negative significand dropped input
    else if dropped = 0 then wholeNumber negative significand input
    else realNumber negative significand dropped input

/-- A number after its sign. -/
def readNumber (negative : Bool) (input : Input) : Step Number :=
  match input with
  | [] => .error .endInValue
  | '0' :: rest =>
    match rest with
    | c :: _ => if c.isDigit then .error .invalidNumber else fractionPart negative 0 0 rest
    | [] => fractionPart negative 0 0 rest
  | c :: _ =>
    if c.isDigit then
      let (significand, _, rest) := absorb 0 0 input
      fractionPart negative significand (rest.takeWhile Char.isDigit).length
        (rest.dropWhile Char.isDigit)
    else .error .invalidNumber

end PageBuild.Json
