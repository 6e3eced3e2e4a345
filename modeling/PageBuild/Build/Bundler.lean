import PageBuild.Build.Host
import PageBuild.Build.Time
import PageBuild.Schema.Basic

/-!
# Bundlers

A staged tree is bundled by a command that runs in it, in a process group of its own, and that
writes what it has to say to the log. What commands do is a parameter: a runner may change any
file and end in any way. A command that exits with anything but zero, is ended by a signal or
runs out of time fails.
-/
namespace PageBuild

/-- How a command that was started ended. -/
inductive CommandEnd where
  | exited (status : UInt8)
  | signalled (signal : UInt8)
  /-- It was killed, with all that it started, when time ran out. -/
  | timedOut
  deriving DecidableEq, Repr

/-- What came of a command. -/
inductive CommandRun where
  | notStarted (cause : IoCause)
  /-- It ran in a process group for so many milliseconds. -/
  | started (group : UInt32) (ending : CommandEnd) (milliseconds : Nat)
  deriving DecidableEq, Repr

/-- A command to run. -/
structure CommandCall where
  command : String
  /-- The directory that it runs in. -/
  directory : Path
  environment : Environment
  /-- The file that takes its output and its errors. -/
  output : Location
  /-- The time after which it is killed. -/
  limit : Option Duration
  deriving DecidableEq, Repr

/-- What commands do to the files. -/
abbrev Runner := CommandCall → Files → CommandRun × Files

namespace Bundler

/-- The names of signals. -/
def signalNames : List (Nat × String) :=
  [(1, "SIGHUP"), (2, "SIGINT"), (3, "SIGQUIT"), (4, "SIGILL"), (5, "SIGTRAP"), (6, "SIGABRT"),
    (7, "SIGBUS"), (8, "SIGFPE"), (9, "SIGKILL"), (10, "SIGUSR1"), (11, "SIGSEGV"),
    (12, "SIGUSR2"), (13, "SIGPIPE"), (14, "SIGALRM"), (15, "SIGTERM"), (16, "SIGSTKFLT"),
    (17, "SIGCHLD"), (18, "SIGCONT"), (19, "SIGSTOP"), (20, "SIGTSTP"), (21, "SIGTTIN"),
    (22, "SIGTTOU"), (23, "SIGURG"), (24, "SIGXCPU"), (25, "SIGXFSZ"), (26, "SIGVTALRM"),
    (27, "SIGPROF"), (28, "SIGWINCH"), (29, "SIGIO"), (30, "SIGPWR"), (31, "SIGSYS")]

/-- A signal with its name, if it has one. -/
def signalText (signal : UInt8) : String :=
  "signal: " ++ toString signal.toNat ++
    match signalNames.lookup signal.toNat with
    | some name => " (" ++ name ++ ")"
    | none => ""

/-- A command as messages show it. -/
def shownCommand (command : String) : String :=
  String.ofList ('\x60' :: (command.toList ++ ['\x60']))

/-- The failure of a command that did not start. -/
def startFailure (command : String) (cause : IoCause) : Failure :=
  .externalTool ("failed to start " ++ shownCommand command ++ ": " ++ cause.message)

/-- The failure of a command that ended in some way. -/
def endFailure (command how : String) : Failure :=
  .externalTool (shownCommand command ++ " exited with " ++ how)

/-- The failure of a command that ran out of time. -/
def timeoutFailure (limit : Option Duration) : Failure :=
  .timeout ("bundler did not finish within " ++
    (match limit with
      | some limit => limit.secondsText
      | none => "0s"))

/-- Whether a command that ended in some way succeeded. -/
def verdict (call : CommandCall) : CommandEnd → Except Failure Unit
  | .exited status =>
    if status = 0 then .ok ()
    else .error (endFailure call.command ("exit status: " ++ toString status.toNat))
  | .signalled signal => .error (endFailure call.command (signalText signal))
  | .timedOut => .error (timeoutFailure call.limit)

/-- Whether the clock for limits can show when one that begins now runs out. It counts its seconds in 63
bits. -/
def hasDeadline (uptime : Nat) (limit : Option Duration) : Bool :=
  limit.all fun limit => (uptime + limit.milliseconds) / 1000 < Nat.pow 2 63

/-- Run a command; its process group is noted as soon as it has one. -/
def run {σ : Type} (runner : Runner) (call : CommandCall) : HostM σ Unit := do
  let (outcome, files) := runner call (← get).files
  modify fun host => { host with files }
  match outcome with
  | .notStarted cause => throw (startFailure call.command cause)
  | .started group ending milliseconds =>
    modify fun host =>
      { host with
        bundlers := host.bundlers ++ [group]
        now := host.now.after milliseconds
        uptime := host.uptime + milliseconds }
    match verdict call ending with
    | .ok () => return ()
    | .error failure => throw failure

end Bundler

end PageBuild
