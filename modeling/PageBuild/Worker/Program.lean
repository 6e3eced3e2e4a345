import PageBuild.Worker.Launch

/-!
# Worker programs

What a worker does of itself, as a program over a state: what it does when it is started and on
each command that it reads. A program may follow a script.
-/
namespace PageBuild.Worker

/-- One thing that a program does. -/
inductive Act where
  | doing (doing : Launch.Doing)
  /-- Nothing for so many milliseconds. -/
  | pause (milliseconds : Nat)
  /-- Nothing for ever. -/
  | stall
  deriving DecidableEq, Repr

/-- Whether it is the end of a worker by itself. -/
def Act.isExit : Act → Bool
  | doing (.exit _) => true
  | _ => false

/-- A program over a state. Its state changes as soon as it reads a command, before anything that
the command makes it do is seen. -/
structure Program (σ : Type) where
  /-- What it does before it reads a command. -/
  start : σ → List Act × σ
  /-- What it does on a command, before it reads another. -/
  hear : Command → σ → List Act × σ

/-- A program over a part of a state, which begins with some view of the whole. -/
def Program.onPart {σ τ : Type} (program : Program σ) (initial view : τ → σ)
    (update : σ → τ → τ) : Program τ where
  start whole :=
    let (acts, part) := program.start (initial whole)
    (acts, update part whole)
  hear command whole :=
    let (acts, part) := program.hear command (view whole)
    (acts, update part whole)

/-- How a worker is started: the file of the worker is a program, or cannot be run. -/
abbrev Starter (σ : Type) := Path → σ → Except IoCause (Program σ)

/-- One line of a script. -/
inductive Cue where
  /-- Read a command, whatever it is. -/
  | hear
  | act (act : Act)
  deriving DecidableEq, Repr

namespace Script

/-- What a script does up to the next command, and the script after it. A worker that has stopped
listening reads nothing, and one at the end of its script exits. -/
def turn (isListening : Bool) : List Cue → List Act × List Cue
  | [] => ([.doing (.exit (some 0))], [])
  | .hear :: cues => if isListening then ([], cues) else turn false cues
  | .act act :: cues =>
    let (acts, rest) := turn (isListening && act != .doing .deafen) cues
    (act :: acts, rest)

/-- The program that follows a script. -/
def program : Program (List Cue) where
  start := turn true
  hear _ := turn true

end Script

end PageBuild.Worker
