import PageBuild.Worker.Course

/-!
# Conversations

A parent that talks to a worker step by step through its handle. Whenever the parent has done
something the worker does all that it can at once before the parent goes on. What takes the worker
some time it does when the parent waits for it.
-/
namespace PageBuild.Worker

/-- A handle with the program of its worker. -/
structure Conversation (σ : Type) where
  handle : Handle
  /-- Whether the worker does nothing more. -/
  isStalled : Bool
  /-- What the worker goes on with when it is waited for. -/
  parked : List Act
  program : Program σ
  state : σ

namespace Conversation

variable {σ : Type}

/-- Let the worker act, beyond a pause only if it is waited for. -/
def perform (waits : Bool) (talk : Conversation σ) : List Act → Conversation σ
  | [] => talk
  | .doing doing :: acts =>
    if talk.handle.process.isAlive then
      let process := (doing.apply talk.handle.process).getD talk.handle.process
      perform waits { talk with handle := { talk.handle with process } } acts
    else talk
  | .pause _ :: acts => if waits then perform waits talk acts else { talk with parked := acts }
  | .stall :: _ => { talk with isStalled := true }

/-- Let the worker hear so many commands at most. -/
def attendWithin (waits : Bool) : Nat → Conversation σ → Conversation σ
  | 0, talk => talk
  | commands + 1, talk =>
    match talk.isStalled, talk.parked, talk.handle.process.input with
    | false, [], command :: _ =>
      let (acts, state) := talk.program.hear command talk.state
      attendWithin waits commands ({ talk with state }.perform waits (.doing .listen :: acts))
    | _, _, _ => talk

/-- Let the worker hear all commands that it was sent. -/
def attend (waits : Bool) (talk : Conversation σ) : Conversation σ :=
  attendWithin waits talk.handle.process.input.length talk

/-- Wait for the worker until it has nothing left to do. -/
def await (talk : Conversation σ) : Conversation σ :=
  ({ talk with parked := [] }.perform true talk.parked).attend true

/-- Send a command. -/
def send (talk : Conversation σ) (command : Command) :
    Except Failure Unit × Conversation σ :=
  let (result, handle) := talk.handle.send command
  (result, { talk with handle }.attend false)

/-- Receive a response. -/
def receive (talk : Conversation σ) : Reception × Conversation σ :=
  let talk := talk.await
  let (reception, handle) := talk.handle.receive
  (reception, { talk with handle })

/-- Kill the worker, which may end by itself before. -/
def kill (talk : Conversation σ) : Conversation σ :=
  let talk := talk.await
  let asked := { talk with handle := talk.handle.dismiss }.await
  let condemned := { asked with handle := asked.handle.condemn }
  condemned.perform true [.doing .die]

/-- How the worker ended, if it does. -/
def wait (talk : Conversation σ) : Option ExitStatus × Conversation σ :=
  let talk := talk.await
  (talk.handle.process.ending, talk)

/-- Start a worker and greet it. Nothing comes of it where the worker does not answer. -/
def start (starter : Starter σ) (path : Path) (state : σ) :
    Except Failure (Option (Conversation σ)) :=
  match starter path state with
  | .error cause => .error (Handle.startFailure path cause)
  | .ok program =>
    let (acts, state) := program.start state
    let begun := perform false ⟨.started, false, [], program, state⟩ acts
    match begun.send .ping with
    | (.error failure, _) => .error failure
    | (.ok (), greeted) =>
      match greeted.receive with
      | (.response .pong, talk) => .ok (some talk)
      | (.response other, _) => .error (Handle.greetingFailure other)
      | (.failed failure, _) => .error failure
      | (.pending, _) => .ok none

end Conversation

end PageBuild.Worker
