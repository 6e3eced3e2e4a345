import PageBuild.Shell.Word

/-!
# Scripts

The commands of a build are a script of a small shell: simple commands with redirections, joined
by pipes, by `&&` and `||`, by semicolons and line ends, sent to the background by `&`, and
grouped in parentheses or braces; some run on a condition, for each of several words, or again
and again. A script is read line by line, and the lines before a misplaced token are whole.
-/
namespace PageBuild.Shell

/-- Where a stream of a command leads or comes from. -/
inductive Redirect where
  /-- A file that is emptied first. -/
  | write (stream : Nat) (target : Word)
  | append (stream : Nat) (target : Word)
  | read (source : Word)
  /-- The same place as another stream. -/
  | same (stream other : Nat)
  deriving DecidableEq, Repr

/-- One command with its words. -/
structure SimpleCommand where
  /-- The variables that are set before the command. -/
  assignments : List (String × Word)
  words : List Word
  redirects : List Redirect
  deriving DecidableEq, Repr

/-- A script. -/
inductive Script where
  | nothing
  /-- A command on a line. -/
  | simple (command : SimpleCommand) (line : Nat)
  /-- The output of the first is the input of the second. -/
  | pipe (first second : Script)
  /-- The second runs when the first succeeds. -/
  | both (first second : Script)
  /-- The second runs when the first fails. -/
  | either (first second : Script)
  | sequence (first second : Script)
  | background (job : Script)
  /-- Success and failure are exchanged. -/
  | negated (script : Script)
  /-- A script in a shell of its own. -/
  | group (body : Script) (redirects : List Redirect)
  /-- A script with redirections. -/
  | block (body : Script) (redirects : List Redirect)
  /-- The second or the third runs, as the first succeeds or fails. -/
  | branch (condition success failure : Script)
  /-- The body runs for each field of some words as the value of a variable. -/
  | each (name : String) (words : List Word) (body : Script)
  /-- The first runs when a word is one that a pattern stands for, and else the second. -/
  | choice (word : Word) (patterns : List Word) (first second : Script)
  /-- The body runs as long as the condition succeeds, or as long as it fails. -/
  | loop (untilSuccess : Bool) (condition body : Script)
  deriving Repr

/-- The script that does nothing and succeeds. -/
def Script.succeed : Script := .simple ⟨[], [[.text ":" false]], []⟩ 1

/-- A token that stands where it may not, and the word that was to stand there. -/
structure Misplaced where
  lexeme : Lexeme
  expected : Option String
  deriving DecidableEq, Repr

/-- The words that begin or end a list of commands where a command may begin. -/
def keywords : List String :=
  ["\x7b", "\x7d", "if", "then", "elif", "else", "fi", "for", "while", "until", "do", "done",
    "case", "esac", "!"]

/-- The words that end a list of commands. -/
def closingWords : List String := ["\x7d", "then", "elif", "else", "fi", "do", "done", "esac"]

/-- The name of a token in messages. -/
def Token.name : Token → String
  | .word [.text text false] => if keywords.contains text then "\"" ++ text ++ "\"" else "word"
  | .word _ => "word"
  | .operator text => if text = "\n" then "newline" else "\"" ++ text ++ "\""
  | .toward _ _ | .same _ _ => "redirection"
  | .unclosed _ | .endOfText => "end of file"

/-- The words for a misplaced token. -/
def Misplaced.message (fault : Misplaced) : String :=
  "Syntax error: " ++
    match fault.lexeme.token with
    | .unclosed .quote => "Unterminated quoted string"
    | .unclosed .brace => "Missing '\x7d'"
    | .unclosed .backquote => "EOF in backquote substitution"
    | .unclosed .parenthesis => "end of file unexpected (expecting \")\")"
    | token =>
      token.name ++ " unexpected" ++
        match fault.expected with
        | some expected => " (expecting \"" ++ expected ++ "\")"
        | none => ""

/-- The next token is misplaced. -/
def misplaced {α : Type} (expected : Option String) (lexemes : List Lexeme) : Except Misplaced α :=
  .error ⟨lexemes.headD ⟨.endOfText, 1⟩, expected⟩

/-- The tokens after a keyword that is to come next. -/
def keyword (text : String) : List Lexeme → Except Misplaced (List Lexeme)
  | ⟨.word [.text found false], line⟩ :: rest =>
    if found = text then .ok rest
    else misplaced (some text) (⟨.word [.text found false], line⟩ :: rest)
  | lexemes => misplaced (some text) lexemes

/-- The tokens after an operator that is to come next. -/
def operator (text : String) : List Lexeme → Except Misplaced (List Lexeme)
  | ⟨.operator found, line⟩ :: rest =>
    if found = text then .ok rest
    else misplaced (some text) (⟨.operator found, line⟩ :: rest)
  | lexemes => misplaced (some text) lexemes

/-- The tokens after the ends of lines. -/
def afterLineEnds (lexemes : List Lexeme) : List Lexeme :=
  lexemes.dropWhile (·.token == .operator "\n")

/-- The name and the value of a word that sets a variable. -/
def assignment? (word : Word) : Option (String × Word) :=
  match word with
  | .text content false :: rest =>
    let name := content.toList.takeWhile isVariableChar
    match name, content.toList.dropWhile isVariableChar with
    | first :: _, '=' :: value =>
      if first.isDigit then none
      else some (String.ofList name, .text (String.ofList value) false :: rest)
    | _, _ => none
  | _ => none

/-- A redirection of a kind. -/
def Redirect.ofKind (kind : String) (stream : Nat) (target : Word) : Redirect :=
  if kind = ">" then .write stream target
  else if kind = ">>" then .append stream target
  else .read target

/-- The redirections that come next. -/
def redirects : List Lexeme → Except Misplaced (List Redirect × List Lexeme)
  | ⟨.same stream other, _⟩ :: rest => do
    let (others, rest) ← redirects rest
    return (.same stream other :: others, rest)
  | ⟨.toward kind stream, _⟩ :: ⟨.word target, _⟩ :: rest => do
    let (others, rest) ← redirects rest
    return (.ofKind kind stream target :: others, rest)
  | ⟨.toward _ _, _⟩ :: rest => misplaced none rest
  | rest => .ok ([], rest)

/-- The rest of a simple command, added to what was read of it. -/
def simpleCommand (command : SimpleCommand) :
    List Lexeme → Except Misplaced (SimpleCommand × List Lexeme)
  | ⟨.word word, _⟩ :: rest =>
    match command.words, assignment? word with
    | [], some assignment =>
      simpleCommand { command with assignments := command.assignments ++ [assignment] } rest
    | _, _ => simpleCommand { command with words := command.words ++ [word] } rest
  | ⟨.same stream other, _⟩ :: rest =>
    simpleCommand { command with redirects := command.redirects ++ [.same stream other] } rest
  | ⟨.toward kind stream, _⟩ :: ⟨.word target, _⟩ :: rest =>
    simpleCommand
      { command with redirects := command.redirects ++ [.ofKind kind stream target] } rest
  | ⟨.toward _ _, _⟩ :: rest => misplaced none rest
  | ⟨.operator "(", line⟩ :: rest =>
    if command.words.length = 1 ∧ command.assignments.isEmpty ∧ command.redirects.isEmpty then
      misplaced (some ")") rest
    else .ok (command, ⟨.operator "(", line⟩ :: rest)
  | rest => .ok (command, rest)

/-- Whether a list of commands ends at a token. -/
def Token.isClosing : Token → Bool
  | .operator text => text == ")" || text == ";;"
  | .word [.text text false] => closingWords.contains text
  | .endOfText => true
  | _ => false

/-- The words that a loop goes over. -/
def loopWords : List Lexeme → List Word × List Lexeme
  | ⟨.word word, _⟩ :: rest =>
    let (words, rest) := loopWords rest
    (word :: words, rest)
  | rest => ([], rest)

/-- The tokens after the end of the words of a loop. -/
def afterLoopWords (lexemes : List Lexeme) : Except Misplaced (List Lexeme) :=
  match lexemes with
  | ⟨.operator ";", _⟩ :: rest | ⟨.operator "\n", _⟩ :: rest => .ok (afterLineEnds rest)
  | _ => misplaced none lexemes

/-- The patterns of a choice up to the parenthesis that closes them. -/
def choicePatterns : List Lexeme → Except Misplaced (List Word × List Lexeme)
  | ⟨.word word, _⟩ :: ⟨.operator "|", _⟩ :: rest => do
    let (words, rest) ← choicePatterns rest
    return (word :: words, rest)
  | ⟨.word word, _⟩ :: rest => do return ([word], ← operator ")" rest)
  | rest => misplaced none rest

mutual
/-- A command: a simple one, a group, a condition or a loop. -/
def command : Nat → List Lexeme → Except Misplaced (Script × List Lexeme)
  | 0, lexemes => misplaced none lexemes
  | fuel + 1, lexemes =>
    match lexemes with
    | ⟨.operator "(", _⟩ :: rest => do
      let (body, rest) ← list fuel true rest
      let rest ← operator ")" rest
      let (redirects, rest) ← redirects rest
      return (.group body redirects, rest)
    | ⟨.word [.text "\x7b" false], _⟩ :: rest => do
      let (body, rest) ← list fuel true rest
      let rest ← keyword "\x7d" rest
      let (redirects, rest) ← redirects rest
      return (.block body redirects, rest)
    | ⟨.word [.text "if" false], _⟩ :: rest => do
      let (script, rest) ← branch fuel rest
      let (redirects, rest) ← redirects rest
      return (if redirects.isEmpty then script else .block script redirects, rest)
    | ⟨.word [.text "for" false], _⟩ :: ⟨.word [.text name false], _⟩ ::
        ⟨.word [.text "in" false], _⟩ :: rest => do
      let (words, rest) := loopWords rest
      let rest ← afterLoopWords rest
      let rest ← keyword "do" rest
      let (body, rest) ← list fuel true rest
      let rest ← keyword "done" rest
      let (redirects, rest) ← redirects rest
      return (.block (.each name words body) redirects, rest)
    | ⟨.word [.text "case" false], _⟩ :: ⟨.word word, _⟩ :: rest => do
      let rest ← keyword "in" (afterLineEnds rest)
      let (script, rest) ← choices fuel word (afterLineEnds rest)
      let (redirects, rest) ← redirects rest
      return (.block script redirects, rest)
    | ⟨.word [.text "while" false], _⟩ :: rest => loop fuel false rest
    | ⟨.word [.text "until" false], _⟩ :: rest => loop fuel true rest
    | ⟨token, line⟩ :: _ => do
      match token with
      | .operator _ | .unclosed _ | .endOfText => misplaced none lexemes
      | _ =>
        if token.isClosing then misplaced none lexemes
        else
          let (command, rest) ← simpleCommand ⟨[], [], []⟩ lexemes
          return (.simple command line, rest)
    | [] => misplaced none lexemes

/-- The rest of a condition after its first word. -/
def branch : Nat → List Lexeme → Except Misplaced (Script × List Lexeme)
  | 0, lexemes => misplaced none lexemes
  | fuel + 1, lexemes => do
    let (condition, rest) ← list fuel true lexemes
    let rest ← keyword "then" rest
    let (success, rest) ← list fuel true rest
    match rest with
    | ⟨.word [.text "elif" false], _⟩ :: rest => do
      let (failure, rest) ← branch fuel rest
      return (.branch condition success failure, rest)
    | ⟨.word [.text "else" false], _⟩ :: rest => do
      let (failure, rest) ← list fuel true rest
      let rest ← keyword "fi" rest
      return (.branch condition success failure, rest)
    | rest => do
      let rest ← keyword "fi" rest
      return (.branch condition success .succeed, rest)

/-- The choices for a word, up to the last keyword. -/
def choices : Nat → Word → List Lexeme → Except Misplaced (Script × List Lexeme)
  | 0, _, lexemes => misplaced none lexemes
  | fuel + 1, word, lexemes =>
    match lexemes with
    | ⟨.word [.text "esac" false], _⟩ :: rest => .ok (.succeed, rest)
    | lexemes => do
      let (patterns, rest) ← choicePatterns lexemes
      let (body, rest) ←
        match afterLineEnds rest with
        | ⟨.operator ";;", line⟩ :: rest => .ok (.succeed, ⟨.operator ";;", line⟩ :: rest)
        | ⟨.word [.text "esac" false], line⟩ :: rest =>
          .ok (.succeed, ⟨.word [.text "esac" false], line⟩ :: rest)
        | rest => list fuel true rest
      match rest with
      | ⟨.operator ";;", _⟩ :: rest => do
        let (others, rest) ← choices fuel word (afterLineEnds rest)
        return (.choice word patterns body others, rest)
      | rest => do
        let rest ← keyword "esac" rest
        return (.choice word patterns body .succeed, rest)

/-- The rest of a loop with a condition after its first word. -/
def loop : Nat → Bool → List Lexeme → Except Misplaced (Script × List Lexeme)
  | 0, _, lexemes => misplaced none lexemes
  | fuel + 1, untilSuccess, lexemes => do
    let (condition, rest) ← list fuel true lexemes
    let rest ← keyword "do" rest
    let (body, rest) ← list fuel true rest
    let rest ← keyword "done" rest
    let (redirects, rest) ← redirects rest
    return (.block (.loop untilSuccess condition body) redirects, rest)

/-- The commands after the first of a pipe, each joined to those before it. -/
def piped : Nat → Script → List Lexeme → Except Misplaced (Script × List Lexeme)
  | 0, _, lexemes => misplaced none lexemes
  | fuel + 1, first, lexemes =>
    match lexemes with
    | ⟨.operator "|", _⟩ :: rest => do
      let (second, rest) ← command fuel (afterLineEnds rest)
      let (others, rest) ← piped fuel second rest
      return (.pipe first others, rest)
    | _ => .ok (first, lexemes)

/-- Commands joined by pipes. -/
def pipeline : Nat → List Lexeme → Except Misplaced (Script × List Lexeme)
  | 0, lexemes => misplaced none lexemes
  | fuel + 1, lexemes =>
    match lexemes with
    | ⟨.word [.text "!" false], _⟩ :: rest => do
      let (script, rest) ← pipeline fuel rest
      return (.negated script, rest)
    | _ => do
      let (first, rest) ← command fuel lexemes
      piped fuel first rest

/-- The pipelines after the first, each joined to all before it. -/
def joined : Nat → Script → List Lexeme → Except Misplaced (Script × List Lexeme)
  | 0, _, lexemes => misplaced none lexemes
  | fuel + 1, first, lexemes =>
    match lexemes with
    | ⟨.operator "&&", _⟩ :: rest => do
      let (second, rest) ← pipeline fuel (afterLineEnds rest)
      joined fuel (.both first second) rest
    | ⟨.operator "||", _⟩ :: rest => do
      let (second, rest) ← pipeline fuel (afterLineEnds rest)
      joined fuel (.either first second) rest
    | _ => .ok (first, lexemes)

/-- A list of commands. Inside brackets or keywords it goes on over the ends of lines, and a
command is to come first; outside it is one line. -/
def list : Nat → Bool → List Lexeme → Except Misplaced (Script × List Lexeme)
  | 0, _, lexemes => misplaced none lexemes
  | fuel + 1, isInner, lexemes => do
    let lexemes := if isInner then afterLineEnds lexemes else lexemes
    match lexemes with
    | ⟨.endOfText, _⟩ :: _ | ⟨.operator "\n", _⟩ :: _ => return (.nothing, lexemes)
    | _ =>
      let (first, rest) ← pipeline fuel lexemes
      let (script, rest) ← joined fuel first rest
      match rest with
      | ⟨.operator "&", _⟩ :: rest => more fuel isInner (.background script) rest
      | ⟨.operator ";", _⟩ :: rest => more fuel isInner script rest
      | ⟨.operator "\n", _⟩ :: inner =>
        if isInner then more fuel isInner script inner else return (script, rest)
      | ⟨.endOfText, _⟩ :: _ => return (script, rest)
      | _ => if isInner then return (script, rest) else misplaced none rest

/-- The rest of a list of commands after some of them. -/
def more : Nat → Bool → Script → List Lexeme → Except Misplaced (Script × List Lexeme)
  | 0, _, _, lexemes => misplaced none lexemes
  | fuel + 1, isInner, before, lexemes => do
    let lexemes := if isInner then afterLineEnds lexemes else lexemes
    match lexemes with
    | ⟨.operator "\n", _⟩ :: _ => return (before, lexemes)
    | ⟨token, _⟩ :: _ =>
      if token.isClosing ∧ (isInner ∨ token = .endOfText) then return (before, lexemes)
      else
        let (others, rest) ← list fuel isInner lexemes
        return (.sequence before others, rest)
    | [] => return (before, lexemes)
end

/-- The lines of tokens up to the first misplaced one. -/
def scriptLines : Nat → List Lexeme → List Script × Option Misplaced
  | 0, _ => ([], none)
  | fuel + 1, lexemes =>
    match afterLineEnds lexemes with
    | [] | [⟨.endOfText, _⟩] => ([], none)
    | lexemes =>
      match list (6 * lexemes.length + 6) false lexemes with
      | .error fault => ([], some fault)
      | .ok (script, rest) =>
        let (others, fault) := scriptLines fuel rest
        (script :: others, fault)

/-- The lines of a text, each a script, up to the first misplaced token. -/
def Script.ofText (text : String) : List Script × Option Misplaced :=
  scriptLines (lexemes text).length (lexemes text)

end PageBuild.Shell
