import PageBuild.Worker.Course

/-!
# Launches with a program as worker

A launch whose worker follows a program. Parent and worker take turns in any order, and so does
the operating system, which ends a worker that was sent the killing signal. A command reaches the
worker as a frame. The time does not run out, and the worker ends by itself only where its program
says so or where it reads no command. `Attended.ComesTo` says what is known of all runs of such a
launch.
-/
namespace PageBuild.Worker

/-- A launch with a program as its worker. -/
structure Attended (σ : Type) where
  launch : Launch
  /-- What the worker is about to do before it reads another command. -/
  acts : List Act
  /-- The state of the program. -/
  state : σ

/-- Whose turn it is. -/
inductive Turn where
  /-- The file of the worker is run. -/
  | start
  | thread
  | timer
  /-- The launch takes its outcome from the thread. -/
  | join
  | worker
  /-- A worker that was sent the killing signal ends. -/
  | die
  deriving DecidableEq, Repr

namespace Attended

variable {σ : Type}

/-- A launch that is about to begin. -/
def begin (path : Path) (limit : Option Duration) (request : BuildRequest) (state : σ) :
    Attended σ :=
  ⟨.ofRequest path limit request, [], state⟩

/-- What a worker reads when it is sent a command: the message of the frame of the command. -/
def heard? (command : Command) : Option Command :=
  match Frame.read .command (Frame.write .command command) with
  | .ok (heard, _) => some heard
  | .error _ => none

/-- The worker does what it was about to do, or reads a command. It exits where it reads none. -/
def workerTurn (program : Program σ) (attended : Attended σ) : Option (Attended σ) :=
  match attended.acts with
  | .doing doing :: acts =>
    (attended.launch.step (.worker doing)).map fun launch => { attended with launch, acts }
  | .pause _ :: acts => some { attended with acts }
  | .stall :: _ => none
  | [] =>
    match attended.launch.nextCommand? with
    | none => none
    | some command =>
      (attended.launch.step (.worker .listen)).map fun launch =>
        match heard? command with
        | some heard =>
          let (acts, state) := program.hear heard attended.state
          ⟨launch, acts, state⟩
        | none => { attended with launch, acts := [.doing (.exit (some 0))] }

/-- The attended launch after a turn, or nothing when the turn is not possible. -/
def step (program : Program σ) (attended : Attended σ) : Turn → Option (Attended σ)
  | .start =>
    (attended.launch.step (.start none)).map fun launch =>
      let (acts, state) := program.start attended.state
      ⟨launch, acts, state⟩
  | .thread => (attended.launch.step .thread).map fun launch => { attended with launch }
  | .timer => (attended.launch.step .timer).map fun launch => { attended with launch }
  | .join => (attended.launch.step .join).map fun launch => { attended with launch }
  | .worker => attended.workerTurn program
  | .die => (attended.launch.step (.worker .die)).map fun launch => { attended with launch }

/-- The attended launch after turns, or nothing when one of them is not possible. -/
def run (program : Program σ) (attended : Attended σ) : List Turn → Option (Attended σ)
  | [] => some attended
  | turn :: turns => (attended.step program turn).bind fun next => next.run program turns

/-- Whatever the order of the turns, an attended launch comes to one outcome, with its program in
one state. -/
structure ComesTo (program : Program σ) (attended : Attended σ) (outcome : Outcome)
    (state : σ) : Prop where
  /-- No run comes to another outcome. -/
  only : ∀ turns last, attended.run program turns = some last →
    ∀ found, last.launch.outcome = some found → found = outcome ∧ last.state = state
  /-- A run that has not come to an outcome can go on. -/
  goesOn : ∀ turns last, attended.run program turns = some last → last.launch.outcome = none →
    ∃ turn next, last.step program turn = some next
  /-- No run goes on for ever. -/
  ends : ∃ most, ∀ turns last, attended.run program turns = some last → turns.length ≤ most

end Attended

end PageBuild.Worker
