import PageBuild.Build.Time
import PageBuild.Failure
import PageBuild.Files.Access
import PageBuild.Text.Shown

/-!
# Hosts

The machine that a build runs on: its files, the log that is narrated to while one is open, its
clocks, and the state of the store that is published to. What a build does is a change of the host
that may end in a failure.
-/
namespace PageBuild

/-- The weight of a line of narration. -/
inductive Level where
  | info
  | warning
  | error
  deriving DecidableEq, Repr

/-- The five characters that a level is shown by. -/
def Level.label : Level → String
  | info => " INFO"
  | warning => " WARN"
  | error => "ERROR"

/-- A machine that builds run on, with a store whose state is of some type. -/
structure Host (σ : Type) where
  files : Files
  /-- The open log. -/
  log : Option Location
  /-- The time, which only passes while a bundler runs. -/
  now : Moment
  /-- The milliseconds on the clock that limits are counted by. Nobody sets it, so that it need not
  agree with the time, but it passes as the time does. -/
  uptime : Nat
  /-- The process groups of the bundlers started, in order. -/
  bundlers : List UInt32
  store : σ

/-- A change of the host that may fail. -/
abbrev HostM (σ : Type) := ExceptT Failure (StateM (Host σ))

namespace HostM

variable {σ α : Type}

/-- A change of the files alone. -/
def onFiles (action : FileM α) : HostM σ α := do
  let host ← get
  match action.run host.files with
  | (.ok value, files) =>
    set { host with files }
    return value
  | (.error cause, files) =>
    set { host with files }
    throw (.io cause)

/-- A line of narration. -/
def line (moment : Moment) (level : Level) (text : String) : String :=
  moment.stamp ++ "Z " ++ level.label ++ " " ++ Text.narrated text ++ "\n"

/-- Add a line to the open log. Without one the line is not kept. -/
def narrate (level : Level) (text : String) : HostM σ Unit :=
  modify fun host =>
    match host.log with
    | some log =>
      { host with files := host.files.append log (line host.now level text).toUTF8 }
    | none => host

/-- Narrate what goes on. -/
def info (text : String) : HostM σ Unit := narrate .info text

/-- The result of an action, a failure of which does not end what is going on. -/
def attempt (action : HostM σ α) : HostM σ (Except Failure α) := do
  let (result, host) := action.run (← get)
  set host
  return result

end HostM

end PageBuild
