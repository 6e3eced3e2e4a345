import PageBuild.Frame.Stream
import PageBuild.Worker.Message

/-!
# Worker processes

A worker process as its parent sees it: a pipe to it, a pipe from it and how it ended. What it
does is up to it. A process that was sent the killing signal ends some time after.
-/
namespace PageBuild.Worker

/-- How a process ended: with a status, or by a signal, which leaves none. -/
abbrev ExitStatus := Option Int

/-- A process that was started. -/
structure Process where
  /-- The commands sent to it that it has not read. -/
  input : List Command
  /-- Whether it can still read commands. -/
  isListening : Bool
  /-- The bytes that it wrote and that have not been read. -/
  output : List UInt8
  /-- Whether it was sent the killing signal. -/
  isCondemned : Bool
  /-- How it ended, once it did. -/
  ending : Option ExitStatus
  deriving DecidableEq, Repr

namespace Process

/-- A process that has only been started. -/
def started : Process := ⟨[], true, [], false, none⟩

/-- Whether it runs. -/
def isAlive (process : Process) : Bool := process.ending.isNone

/-- Whether a command that is sent reaches its pipe. -/
def hears (process : Process) : Bool := process.isAlive && process.isListening

/-- It writes bytes. -/
def write (process : Process) (bytes : List UInt8) : Process :=
  { process with output := process.output ++ bytes }

/-- It reads no more commands. -/
def stopListening (process : Process) : Process :=
  { process with input := [], isListening := false }

/-- It ends. -/
def exit (process : Process) (status : ExitStatus) : Process :=
  { process with ending := some status, input := [] }

/-- It is sent the killing signal. -/
def condemn (process : Process) : Process := { process with isCondemned := true }

end Process

/-- What reading from a worker gives. -/
inductive Reception where
  | response (response : Response)
  | failed (failure : Failure)
  /-- A whole frame is not there yet, and more bytes may come. -/
  | pending
  deriving DecidableEq, Repr

namespace Process

/-- What is left of a stream after a fault in its first frame. A length that is refused has been
read, and so have all bytes of a frame that is cut short. -/
def afterFault (stream : List UInt8) : Frame.Fault → List UInt8
  | .tooLong _ => stream.drop 4
  | .cutLength => []
  | .cutBody => []
  | .unreadable => stream.drop (4 + Frame.wordOf (stream.take 4))

/-- Whether more bytes would mend a fault. -/
def isMendable : Frame.Fault → Bool
  | .cutLength | .cutBody => true
  | .tooLong _ | .unreadable => false

/-- Read the next response, and leave the rest. -/
def read (process : Process) : Reception × Process :=
  match Frame.read .response process.output with
  | .ok (response, rest) => (.response response, { process with output := rest })
  | .error fault =>
    if isMendable fault && process.isAlive then (.pending, process)
    else (.failed fault.failure, { process with output := afterFault process.output fault })

end Process

end PageBuild.Worker
