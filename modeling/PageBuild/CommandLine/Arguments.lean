/-!
# Arguments

The words of a command line, sorted into options and operands. An option is a word that begins
with two dashes, or a letter after one dash, and takes a value or none; letters can share a dash.
After a word of two dashes alone all words are operands. No option is given twice.
-/
namespace PageBuild.CommandLine

/-- An option that is known. -/
structure OptionSpec where
  /-- Its name after two dashes. -/
  name : String
  /-- Its letter after one dash. -/
  letter : Option Char
  takesValue : Bool
  deriving DecidableEq, Repr

/-- What is wrong with the words of a command line. -/
inductive Misuse where
  | noCommand
  | unknownCommand (word : String)
  | unknownOption (word : String)
  | noValue (name : String)
  | unwantedValue (name : String)
  | repeated (name : String)
  | badValue (name value : String)
  | missing (name : String)
  | unwantedOperand (word : String)
  deriving DecidableEq, Repr

/-- The words for a misuse. -/
def Misuse.message : Misuse → String
  | noCommand => "a command is required"
  | unknownCommand word => "unknown command '" ++ word ++ "'"
  | unknownOption word => "unexpected argument '" ++ word ++ "'"
  | noValue name => "a value is required for '--" ++ name ++ "'"
  | unwantedValue name => "'--" ++ name ++ "' takes no value"
  | repeated name => "'--" ++ name ++ "' cannot be used multiple times"
  | badValue name value => "invalid value '" ++ value ++ "' for '" ++ name ++ "'"
  | missing name => "'" ++ name ++ "' is required"
  | unwantedOperand word => "unexpected argument '" ++ word ++ "'"

/-- The options, each with its value, and the operands of a command line. -/
structure Arguments where
  /-- The options by name; one that takes no value has an empty one. -/
  options : List (String × String)
  operands : List String
  deriving DecidableEq, Repr

namespace Arguments

/-- No arguments. -/
def empty : Arguments := ⟨[], []⟩

/-- The value of an option. -/
def value? (arguments : Arguments) (name : String) : Option String :=
  arguments.options.lookup name

/-- Whether an option is given. -/
def has (arguments : Arguments) (name : String) : Bool := (arguments.value? name).isSome

/-- One more option, unless it was given before. -/
def addOption (arguments : Arguments) (name value : String) : Except Misuse Arguments :=
  if arguments.has name then .error (.repeated name)
  else .ok { arguments with options := arguments.options ++ [(name, value)] }

/-- One more operand. -/
def addOperand (arguments : Arguments) (word : String) : Arguments :=
  { arguments with operands := arguments.operands ++ [word] }

/-- What a word is before the words of two dashes alone. -/
inductive Word where
  /-- Two dashes alone. -/
  | divider
  /-- An option by its name, perhaps with a value after an equals sign. -/
  | long (name : List Char) (value : Option (List Char))
  /-- The letters after one dash. -/
  | letters (letters : List Char)
  /-- Neither; one dash alone is an operand. -/
  | plain

/-- The part of a name before an equals sign, and the value after it. -/
def splitValue (text : List Char) : List Char × Option (List Char) :=
  match text.dropWhile (· != '=') with
  | [] => (text, none)
  | _ :: value => (text.takeWhile (· != '='), some value)

/-- What a word is. -/
def Word.ofText (word : String) : Word :=
  match word.toList with
  | ['-', '-'] => .divider
  | '-' :: '-' :: rest =>
    let (name, value) := splitValue rest
    .long name value
  | '-' :: letter :: rest => .letters (letter :: rest)
  | _ => .plain

/-- The options of letters that share a dash: those that are whole, and the one that takes its
value from the next word. What follows the letter of an option with a value is its value, perhaps
after an equals sign. -/
def sortLetters (specs : List OptionSpec) :
    List Char → Arguments → Except Misuse (Arguments × Option String)
  | [], arguments => .ok (arguments, none)
  | letter :: rest, arguments =>
    match specs.find? fun spec => spec.letter == some letter with
    | none => .error (.unknownOption (String.ofList ['-', letter]))
    | some spec =>
      if spec.takesValue then
        match rest with
        | [] => .ok (arguments, some spec.name)
        | '=' :: value => (arguments.addOption spec.name (String.ofList value)).map (·, none)
        | value => (arguments.addOption spec.name (String.ofList value)).map (·, none)
      else
        match rest with
        | '=' :: _ => .error (.unwantedValue spec.name)
        | _ =>
          match arguments.addOption spec.name "" with
          | .error misuse => .error misuse
          | .ok arguments => sortLetters specs rest arguments

/-- The option of a name, and whether it takes its value from the next word. -/
def sortLong (specs : List OptionSpec) (name : List Char) (value : Option (List Char))
    (arguments : Arguments) : Except Misuse (Arguments × Option String) :=
  match specs.find? fun spec => spec.name == String.ofList name with
  | none => .error (.unknownOption ("--" ++ String.ofList name))
  | some spec =>
    match spec.takesValue, value with
    | true, none => .ok (arguments, some spec.name)
    | true, some value => (arguments.addOption spec.name (String.ofList value)).map (·, none)
    | false, none => (arguments.addOption spec.name "").map (·, none)
    | false, some _ => .error (.unwantedValue spec.name)

/-- Sort words. An option may wait for its value, which is a word that is no option. -/
def sort (specs : List OptionSpec) :
    List String → Option String → Arguments → Except Misuse Arguments
  | [], none, arguments => .ok arguments
  | [], some name, _ => .error (.noValue name)
  | word :: words, waiting, arguments =>
    match Word.ofText word, waiting with
    | .plain, none => sort specs words none (arguments.addOperand word)
    | .plain, some name =>
      match arguments.addOption name word with
      | .error misuse => .error misuse
      | .ok arguments => sort specs words none arguments
    | _, some name => .error (.noValue name)
    | .divider, none => .ok (words.foldl addOperand arguments)
    | .long name value, none =>
      match sortLong specs name value arguments with
      | .error misuse => .error misuse
      | .ok (arguments, waiting) => sort specs words waiting arguments
    | .letters letters, none =>
      match sortLetters specs letters arguments with
      | .error misuse => .error misuse
      | .ok (arguments, waiting) => sort specs words waiting arguments

end Arguments

end PageBuild.CommandLine
