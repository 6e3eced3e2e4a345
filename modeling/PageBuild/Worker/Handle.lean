import PageBuild.Worker.Process

/-!
# Worker handles

What a parent does with a worker: it sends commands, receives responses and waits for the end.
A worker that does not answer a ping is not taken. Once a handle was used to kill its worker
it neither sends nor receives.

The pipe to the worker is assumed to take all that is sent, so that sending never waits. A pipe has a
capacity, and a command that exceeds it is sent only as far as the worker reads: the parent waits until
it has read the rest or ended, which breaks the pipe. So what is said here of a sender's steps is said of
workers that read what they are sent or end.
-/
namespace PageBuild.Worker

/-- A worker with what its parent remembers of it. -/
structure Handle where
  process : Process
  /-- Whether the handle was used to kill the worker. -/
  isKilled : Bool
  /-- The number of bytes that were to be sent and still wait to be. -/
  unsent : Nat
  deriving DecidableEq, Repr

namespace Handle

/-- The number of bytes that are gathered before they are sent. -/
def bufferSize : Nat := 8192

/-- The handle of a process that has only been started. -/
def started : Handle := ⟨.started, false, 0⟩

/-- A process could not be started from a file. -/
def startFailure (path : Path) (cause : IoCause) : Failure :=
  .ipc ("Failed to spawn worker process '" ++ path.text ++ "': " ++ cause.message)

/-- A worker that is greeted says something else than that it is there. -/
def greetingFailure (response : Response) : Failure :=
  .ipc ("Unexpected response from worker: " ++ response.shown)

/-- A handle was used after the worker was killed with it. -/
def killedFailure : Failure := .ipc "Worker has been killed"

/-- The part of a frame at which sending it fails. -/
inductive Part where
  | length
  | body
  /-- The frame was gathered and is to be sent. -/
  | whole
  deriving DecidableEq, Repr

/-- The failure to send a part. -/
def Part.failure (part : Part) : Failure :=
  .ipc
    ((match part with
      | length => "Failed to write IPC message length: "
      | body => "Failed to write IPC message body: "
      | whole => "Failed to flush IPC stream: ") ++ IoCause.brokenPipe.message)

/-- Where sending a body fails that nothing reads, and how much waits then. Bytes are sent when
no more of them fit into the buffer, and at the end of the frame. -/
def brokenAt (unsent body : Nat) : Part × Nat :=
  if bufferSize < unsent + 4 then (.length, unsent)
  else if bufferSize < unsent + 4 + body then (.body, unsent + 4)
  else (.whole, unsent + 4 + body)

/-- Send a command. -/
def send (handle : Handle) (command : Command) : Except Failure Unit × Handle :=
  if handle.isKilled then (.error killedFailure, handle)
  else if handle.process.hears then
    (.ok (),
      { handle with
        process := { handle.process with input := handle.process.input ++ [command] } })
  else
    let (part, unsent) :=
      brokenAt handle.unsent (Frame.Layout.command.encode command).length
    (.error part.failure, { handle with unsent })

/-- Receive the next response. -/
def receive (handle : Handle) : Reception × Handle :=
  if handle.isKilled then (.failed killedFailure, handle)
  else
    let (reception, process) := handle.process.read
    (reception, { handle with process })

/-- Ask the worker to stop, before it is killed. That it cannot be asked does not matter. -/
def dismiss (handle : Handle) : Handle :=
  { (handle.send .shutdown).2 with isKilled := true }

/-- Send the worker the killing signal, if it still runs. -/
def condemn (handle : Handle) : Handle :=
  if handle.process.isAlive then { handle with process := handle.process.condemn } else handle

end Handle

end PageBuild.Worker
