import PageBuild.Worker.Program

/-!
# Courses of launches

One way a launch goes with a program as its worker: thread and timer go on as far as they can
before the worker does its next thing, and the time that runs out is that of the program's
pauses. Every course is a run of moves of the launch.
-/
namespace PageBuild.Worker

namespace Launch

/-- The first of some moves that is possible. -/
def firstStep? (launch : Launch) : List Move → Option Launch
  | [] => none
  | move :: moves =>
    match launch.step move with
    | some next => some next
    | none => launch.firstStep? moves

/-- Let the parent go on for so many steps at most; a condemned worker ends. -/
def settleWithin : Nat → Launch → Launch
  | 0, launch => launch
  | steps + 1, launch =>
    match launch.firstStep? [.thread, .timer, .worker .die, .join] with
    | none => launch
    | some next => settleWithin steps next

/-- The number of bytes that the worker wrote and that have not been read. -/
def unread (launch : Launch) : Nat :=
  (launch.handle.map fun handle => handle.process.output.length).getD 0

/-- Let the parent go on as far as it can: it takes at most three steps for a frame, which is
longer than three bytes, and less than forty others. -/
def settle (launch : Launch) : Launch := settleWithin (40 + launch.unread) launch

/-- The launch after a move, and unchanged where the move is not possible. -/
def tryStep (launch : Launch) (move : Move) : Launch := ((launch.step move).getD launch).settle

/-- The command that the worker reads next. -/
def nextCommand? (launch : Launch) : Option Command :=
  launch.handle.bind fun handle => handle.process.input.head?

end Launch

/-- A launch with the time since it began, in milliseconds. -/
structure Course where
  launch : Launch
  clock : Nat

namespace Course

/-- Let time pass. It may run out. -/
def pause (course : Course) (milliseconds : Nat) : Course :=
  let clock := course.clock + milliseconds
  match course.launch.limit with
  | some limit =>
    if limit.milliseconds < clock then ⟨course.launch.tryStep .expire, clock⟩
    else { course with clock }
  | none => { course with clock }

/-- Let the worker act. -/
def perform (course : Course) : List Act → Course
  | [] => course
  | .doing doing :: acts =>
    perform { course with launch := course.launch.tryStep (.worker doing) } acts
  | .pause milliseconds :: acts => perform (course.pause milliseconds) acts
  | .stall :: _ => { course with launch := course.launch.tryStep .expire }

/-- Let a program hear so many commands at most, until it waits in vain. -/
def attend {σ : Type} (program : Program σ) : Nat → Course → σ → Course × σ
  | 0, course, state => (course, state)
  | commands + 1, course, state =>
    match course.launch.nextCommand? with
    | none => (course.perform [.stall], state)
    | some command =>
      let (acts, after) := program.hear command state
      attend program commands (course.perform (.doing .listen :: acts)) after

end Course

/-- Launch a worker for a request. There is no outcome where the launch does not end. No more than
three commands are sent. -/
def launch {σ : Type} (start : Starter σ) (path : Path) (limit : Option Duration)
    (request : BuildRequest) (state : σ) : Option Outcome × σ :=
  let fresh := Launch.ofRequest path limit request
  match start path state with
  | .error cause => ((fresh.tryStep (.start (some cause))).outcome, state)
  | .ok program =>
    let (acts, after) := program.start state
    let begun := Course.perform ⟨fresh.tryStep (.start none), 0⟩ acts
    let (course, after) := begun.attend program 4 after
    (course.launch.outcome, after)

end PageBuild.Worker
