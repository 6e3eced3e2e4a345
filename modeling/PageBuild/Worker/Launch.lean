import PageBuild.Worker.Handle
import PageBuild.Worker.KillSwitch
import PageBuild.Worker.Outcome

/-!
# Launches

The run of one job in a worker of its own. A thread starts the worker, greets it, sends it the
job and reads what it says until a message closes the job; a timer may use the kill switch
of the worker, which the thread hands over only after the worker answered its greeting. Thread,
timer and worker move in any order; `Launch.step` refuses a move that is not possible.
-/
namespace PageBuild.Worker

/-- What a response means to the thread that waits for it. -/
inductive Reaction where
  /-- The bundler runs in a group: note it and read on. -/
  | track (group : UInt32)
  /-- The job is closed. -/
  | close (outcome : Outcome)
  deriving DecidableEq, Repr

/-- The reaction to a response. -/
def Reaction.ofResponse : Response → Reaction
  | .bundling group => .track group
  | .finished result => .close (.completed result)
  | .error message => .close (.failed message)
  | .pong => .close (.failed ("unexpected response from worker: " ++ Response.pong.shown))

/-- How far the thread of a launch is. -/
inductive Stage where
  /-- It is about to start the worker. -/
  | starting
  /-- It is about to greet the worker. -/
  | greeting
  /-- It waits for the answer to the greeting. -/
  | meeting
  /-- It is about to hand over the kill switch. -/
  | recording
  /-- It is about to send the job. -/
  | sending
  /-- It waits for what the worker says. -/
  | reading
  /-- It waits for the end of the worker, which says nothing more. -/
  | waiting
  /-- It is about to ask the worker to stop. -/
  | dismissing (outcome : Outcome)
  /-- It is about to send the worker the killing signal. -/
  | killing (outcome : Outcome)
  /-- It waits for the end of the worker, which was killed. -/
  | reaping (outcome : Outcome)
  | done (outcome : Outcome)
  deriving DecidableEq, Repr

/-- What happens outside the parent of a worker. -/
inductive Event where
  /-- The worker said something. -/
  | said (response : Response)
  /-- A bundler ended with all of its group. -/
  | groupEnded (group : UInt32)
  /-- The worker ended. -/
  | exited (status : ExitStatus)
  deriving DecidableEq, Repr

/-- The state of a launch. -/
structure Launch where
  /-- The file of the worker. -/
  path : Path
  request : BuildRequest
  /-- The time after which the worker is killed. -/
  limit : Option Duration
  stage : Stage
  /-- The worker, once it was started. -/
  handle : Option Handle
  switch : KillSwitch
  /-- What the thread is about to do with the kill switch. -/
  pending : List KillSwitch.Op
  /-- Whether the timer was handed the kill switch. -/
  isRecorded : Bool
  /-- Whether the time ran out. -/
  hasExpired : Bool
  /-- What the timer is about to do with the kill switch. -/
  timer : List KillSwitch.Op
  /-- What the launch came to, once it did. -/
  outcome : Option Outcome
  /-- What has happened outside, in order. -/
  events : List Event
  deriving Repr

namespace Launch

/-- A launch that is about to begin. -/
def ofRequest (path : Path) (limit : Option Duration) (request : BuildRequest) : Launch where
  path
  request
  limit
  stage := .starting
  handle := none
  switch := .fresh
  pending := []
  isRecorded := false
  hasExpired := false
  timer := []
  outcome := none
  events := []

/-- The outcome of a launch whose worker ran out of time. -/
def expired (limit : Duration) : Outcome :=
  .failed (Failure.timeout ("build worker exceeded " ++ limit.secondsText)).message

/-- The file of the worker was run, or could not be. -/
def start (launch : Launch) : Option IoCause → Launch
  | none => { launch with handle := some .started, stage := .greeting }
  | some cause =>
    { launch with stage := .done (.failed (Handle.startFailure launch.path cause).message) }

/-- Send a command, and go on to a stage if that is possible. -/
def send (launch : Launch) (handle : Handle) (command : Command) (next : Stage) : Launch :=
  match handle.send command with
  | (.ok (), handle) => { launch with handle := some handle, stage := next }
  | (.error failure, handle) =>
    { launch with handle := some handle, stage := .dismissing (.failed failure.message) }

/-- Hear the answer to the greeting. -/
def meet (launch : Launch) (handle : Handle) : Option Launch :=
  match handle.receive with
  | (.pending, _) => none
  | (.response .pong, handle) => some { launch with handle := some handle, stage := .recording }
  | (.response other, handle) =>
    some { launch with
      handle := some handle
      stage := .dismissing (.failed (Handle.greetingFailure other).message) }
  | (.failed failure, handle) =>
    some { launch with
      handle := some handle
      stage := .dismissing (.failed failure.message) }

/-- Hand over the kill switch, and use it if the time has run out already. -/
def record (launch : Launch) : Launch :=
  { launch with
    isRecorded := true
    pending := if launch.hasExpired then KillSwitch.kill else []
    stage := .sending }

/-- Hear what the worker says about the job. -/
def hear (launch : Launch) (handle : Handle) : Option Launch :=
  match handle.receive with
  | (.pending, _) => none
  | (.response response, handle) =>
    match Reaction.ofResponse response with
    | .track group =>
      some { launch with handle := some handle, pending := KillSwitch.track group }
    | .close outcome => some { launch with handle := some handle, stage := .dismissing outcome }
  | (.failed _, handle) => some { launch with handle := some handle, stage := .waiting }

/-- Go on after the end of the worker, once it has ended. -/
def reap (launch : Launch) (handle : Handle) (next : ExitStatus → Stage) : Option Launch :=
  handle.process.ending.map fun status => { launch with stage := next status }

/-- The next step of the thread beside what it does with the kill switch. -/
def advance (launch : Launch) (handle : Handle) : Option Launch :=
  match launch.stage with
  | .starting => none
  | .greeting => some (launch.send handle .ping .meeting)
  | .meeting => launch.meet handle
  | .recording => some launch.record
  | .sending => some (launch.send handle (.build launch.request) .reading)
  | .reading => launch.hear handle
  | .waiting => launch.reap handle fun status => .dismissing (.exited status)
  | .dismissing outcome =>
    some { launch with handle := some handle.dismiss, stage := .killing outcome }
  | .killing outcome =>
    some { launch with handle := some handle.condemn, stage := .reaping outcome }
  | .reaping outcome => launch.reap handle fun _ => .done outcome
  | .done _ => none

/-- Do an operation on the kill switch; a signal to the worker condemns it. -/
def useSwitch (launch : Launch) (ops : List KillSwitch.Op) : Launch × List KillSwitch.Op :=
  let (switch, left) := launch.switch.advance ops
  let handle :=
    match ops with
    | .send .worker :: _ => launch.handle.map Handle.condemn
    | _ => launch.handle
  ({ launch with switch, handle }, left)

/-- The next step of the thread, unless it waits. -/
def threadStep (launch : Launch) : Option Launch :=
  match launch.pending with
  | [] => launch.handle.bind launch.advance
  | ops =>
    let (next, pending) := launch.useSwitch ops
    some { next with pending }

/-- The next step of the timer with the kill switch. -/
def timerStep (launch : Launch) : Option Launch :=
  match launch.timer with
  | [] => none
  | ops =>
    let (next, timer) := launch.useSwitch ops
    some { next with timer }

/-- Whether the thread has come to an outcome. -/
def threadOutcome? (launch : Launch) : Option Outcome :=
  match launch.stage with
  | .done outcome => some outcome
  | _ => none

/-- The time runs out. The kill switch is used if it was handed over. -/
def expire (launch : Launch) : Option Launch :=
  if launch.limit.isSome && !launch.hasExpired && launch.threadOutcome?.isNone then
    some { launch with
      hasExpired := true
      timer := if launch.isRecorded then KillSwitch.kill else [] }
  else none

/-- The launch comes to its outcome once its thread is done: that of the thread, or that of the
time. -/
def join (launch : Launch) : Option Launch :=
  match launch.outcome, launch.timer, launch.threadOutcome? with
  | none, [], some outcome =>
    some { launch with
      outcome := some
        (match launch.hasExpired, launch.limit with
          | true, some limit => expired limit
          | _, _ => outcome) }
  | _, _, _ => none

/-- What a worker does by itself. -/
inductive Doing where
  /-- It reads a command. -/
  | listen
  /-- It says something. -/
  | say (response : Response)
  /-- It writes any bytes. -/
  | spill (bytes : List UInt8)
  /-- It reads no more commands. -/
  | deafen
  /-- It ends by itself. -/
  | exit (status : ExitStatus)
  /-- It ends by the killing signal. -/
  | die
  deriving DecidableEq, Repr

/-- What a process is after it did something, if it can do that. -/
def Doing.apply (process : Process) : Doing → Option Process
  | listen =>
    match process.input with
    | [] => none
    | _ :: input => some { process with input }
  | say response => some (process.write (Frame.write .response response))
  | spill bytes => some (process.write bytes)
  | deafen => some process.stopListening
  | exit status => some (process.exit status)
  | die => if process.isCondemned then some (process.exit none) else none

/-- What is seen of what a worker does. -/
def Doing.events : Doing → List Event
  | say response => [.said response]
  | exit status => [.exited status]
  | die => [.exited none]
  | _ => []

/-- The worker does something while it runs. -/
def workerStep (launch : Launch) (doing : Doing) : Option Launch :=
  launch.handle.bind fun handle =>
    if handle.process.isAlive then
      (doing.apply handle.process).map fun process =>
        { launch with
          handle := some { handle with process }
          events := launch.events ++ doing.events }
    else none

/-- A move of a launch. -/
inductive Move where
  /-- The file of the worker is run, or cannot be. -/
  | start (cause : Option IoCause)
  /-- The thread takes its next step. -/
  | thread
  /-- The timer takes its next step with the kill switch. -/
  | timer
  | expire
  | join
  | worker (doing : Doing)
  /-- A bundler ends with all of its group. -/
  | endGroup (group : UInt32)
  deriving DecidableEq, Repr

/-- The launch after a move, or nothing when the move is not possible. -/
def step (launch : Launch) : Move → Option Launch
  | .start cause => if launch.stage = .starting then some (launch.start cause) else none
  | .thread => launch.threadStep
  | .timer => launch.timerStep
  | .expire => launch.expire
  | .join => launch.join
  | .worker doing => launch.workerStep doing
  | .endGroup group => some { launch with events := launch.events ++ [.groupEnded group] }

/-- The launch after a sequence of moves, or nothing when one of them is not possible. -/
def run (launch : Launch) : List Move → Option Launch
  | [] => some launch
  | move :: moves => (launch.step move).bind fun next => next.run moves

end Launch

end PageBuild.Worker
