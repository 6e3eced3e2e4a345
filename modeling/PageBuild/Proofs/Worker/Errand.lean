import Mathlib.Algebra.Ring.Nat
import PageBuild.Proofs.Frame.Stream
import PageBuild.Proofs.Worker.Attended

/-!
# Errands

What a worker is launched for: a request, what its program does on it, and the message that closes
the job. The launch of an errand is known at each stage by the commands and the responses that are
on their way (`Errand.launchAt`), and each lemma here says what one turn makes of it.
-/
namespace PageBuild.Worker

open PageBuild.Frame (Layout stream)

/-- What a worker does for a job before it closes it: it reports bundlers and lets time pass. -/
def Act.IsReport : Act → Prop
  | .doing (.say (.bundling _)) => True
  | .pause _ => True
  | _ => False

/-- A report is a pause or tells of a bundler. -/
theorem Act.IsReport.pause_or_bundling {act : Act} (isReport : act.IsReport) :
    (∃ milliseconds, act = .pause milliseconds) ∨
      ∃ group, act = .doing (.say (.bundling group)) := by
  unfold IsReport at isReport
  split at isReport
  · exact .inr ⟨_, rfl⟩
  · exact .inl ⟨_, rfl⟩
  · cases isReport

/-- A request with what a program makes of it. -/
structure Errand (σ : Type) where
  path : Path
  limit : Option Duration
  request : BuildRequest
  program : Program σ
  /-- The state of the program before it reads the request. -/
  before : σ
  /-- The state of the program once it read the request. -/
  after : σ
  /-- What the worker does before it closes the job. -/
  reports : List Act
  closing : Response
  outcome : Outcome
  start_eq : program.start before = ([], before)
  hear_ping : program.hear .ping before = ([.doing (.say .pong)], before)
  hear_build : program.hear (.build request) before = (reports ++ [.doing (.say closing)], after)
  hear_shutdown : program.hear .shutdown after = ([.doing (.exit (some 0))], after)
  isReport : ∀ act ∈ reports, act.IsReport
  closes : Reaction.ofResponse closing = .close outcome
  request_short : (Layout.command.encode (.build request)).length ≤ Frame.maxBody
  closing_short : (Layout.response.encode closing).length ≤ Frame.maxBody

/-! ## Frames -/

section Frames

/-- A command whose frame is accepted is read by the worker. -/
theorem heard?_of_short {command : Command}
    (short : (Layout.command.encode command).length ≤ Frame.maxBody) :
    Attended.heard? command = some command := by
  have found := Frame.read_write_append Layout.command_lawful short []
  rw [List.append_nil] at found
  rw [Attended.heard?, found]

/-- A message without longer texts takes the bytes of its record. -/
theorem length_encode_of_bare {α : Type} {layout : Layout α} {message : α}
    (lawful : layout.Lawful) (bare : (layout.cells message).flatMap Frame.Cell.outer = []) :
    (layout.encode message).length = layout.size := by
  rw [Layout.length_encode lawful, bare]
  exact Nat.zero_add _

/-- The frame of a greeting is accepted. -/
theorem ping_short : (Layout.command.encode .ping).length ≤ Frame.maxBody := by
  rw [length_encode_of_bare Layout.command_lawful rfl]
  decide

/-- The frame that asks a worker to stop is accepted. -/
theorem shutdown_short : (Layout.command.encode .shutdown).length ≤ Frame.maxBody := by
  rw [length_encode_of_bare Layout.command_lawful rfl]
  decide

/-- The frame of a report is accepted. -/
theorem bundling_short (group : UInt32) :
    (Layout.response.encode (.bundling group)).length ≤ Frame.maxBody := by
  rw [length_encode_of_bare Layout.response_lawful rfl]
  decide

/-- A worker that runs, with what is on its way to it and from it. -/
def Process.running (input : List Command) (unread : List Response) : Process :=
  ⟨input, true, stream .response unread, false, none⟩

/-- The first response on its way is read. -/
theorem read_running_cons {input : List Command} {response : Response} {unread : List Response}
    (short : (Layout.response.encode response).length ≤ Frame.maxBody) :
    (Process.running input (response :: unread)).read =
      (.response response, .running input unread) := by
  have found := Frame.read_write_append Layout.response_lawful short (stream .response unread)
  rw [Process.read, Process.running, Frame.stream_cons, found]
  rfl

end Frames

/-! ## Stages -/

/-- Whether the kill switch was handed over before a stage. -/
def Stage.isRecorded : Stage → Bool
  | .starting | .greeting | .meeting | .recording => false
  | _ => true

/-- Whether the worker was asked to stop before a stage. -/
def Stage.isParting : Stage → Bool
  | .killing _ | .reaping _ | .done _ => true
  | _ => false

/-- A thread that is to read hears its worker. -/
theorem Launch.threadStep_of_reading {launch : Launch} {handle : Handle}
    (stage : launch.stage = .reading) (pending : launch.pending = [])
    (worker : launch.handle = some handle) : launch.threadStep = launch.hear handle := by
  rw [threadStep, pending, worker]
  simp only [Option.bind_some, advance, stage]

/-- What a thread makes of a response that it reads. -/
theorem Launch.hear_of_read {launch : Launch} (handle : Handle) {response : Response}
    {process : Process} (unused : handle.isKilled = false)
    (read : handle.process.read = (.response response, process)) :
    launch.hear handle = some
      (match Reaction.ofResponse response with
        | .track group =>
          { launch with
            handle := some { handle with process }, pending := KillSwitch.track group }
        | .close outcome =>
          { launch with handle := some { handle with process }, stage := .dismissing outcome }) := by
  rw [Launch.hear, Handle.receive, if_neg (by simp [unused]), read]
  dsimp only
  cases Reaction.ofResponse response <;> rfl

namespace Errand

variable {σ : Type} (errand : Errand σ)

/-- The launch of an errand at a stage. Its time has not run out and nobody used its kill
switch. -/
def launchAt (stage : Stage) (process : Process) (events : List Event) (group : UInt32)
    (pending : List KillSwitch.Op) : Launch where
  path := errand.path
  request := errand.request
  limit := errand.limit
  stage
  handle := some ⟨process, stage.isParting, 0⟩
  switch := ⟨false, group, []⟩
  pending
  isRecorded := stage.isRecorded
  hasExpired := false
  timer := []
  outcome := none
  events

variable {errand} {stage : Stage} {process : Process} {events : List Event} {group : UInt32}
  {pending : List KillSwitch.Op} {input : List Command} {unread : List Response}
  {acts : List Act} {state : σ}

/-! ### The thread -/

/-- The thread greets the worker. -/
theorem thread_greeting :
    (errand.launchAt .greeting (.running [] []) events group []).threadStep =
      some (errand.launchAt .meeting (.running [.ping] []) events group []) := rfl

/-- The thread waits for the answer to its greeting. -/
theorem thread_meeting_nil :
    (errand.launchAt .meeting (.running input []) events group []).threadStep = none := rfl

/-- The thread hears the answer to its greeting. -/
theorem thread_meeting_pong :
    (errand.launchAt .meeting (.running [] [.pong]) events group []).threadStep =
      some (errand.launchAt .recording (.running [] []) events group []) := rfl

/-- The thread hands over the kill switch. -/
theorem thread_recording :
    (errand.launchAt .recording (.running [] []) events group []).threadStep =
      some (errand.launchAt .sending (.running [] []) events group []) := rfl

/-- The thread sends the request. -/
theorem thread_sending :
    (errand.launchAt .sending (.running [] []) events group []).threadStep =
      some (errand.launchAt .reading (.running [.build errand.request] []) events group []) := rfl

/-- The thread waits for what the worker says. -/
theorem thread_reading_nil :
    (errand.launchAt .reading (.running input []) events group []).threadStep = none := rfl

/-- The thread hears of a bundler. -/
theorem thread_reading_bundling {found : UInt32} :
    (errand.launchAt .reading (.running input (.bundling found :: unread)) events group
      []).threadStep =
      some (errand.launchAt .reading (.running input unread) events group
        (KillSwitch.track found)) := by
  rw [Launch.threadStep_of_reading rfl rfl rfl,
    Launch.hear_of_read ⟨.running input (.bundling found :: unread), Stage.reading.isParting, 0⟩ rfl
      (read_running_cons (bundling_short found))]
  rfl

/-- The thread hears the message that closes the job. -/
theorem thread_reading_closing :
    (errand.launchAt .reading (.running input [errand.closing]) events group []).threadStep =
      some (errand.launchAt (.dismissing errand.outcome) (.running input []) events group
        []) := by
  rw [Launch.threadStep_of_reading rfl rfl rfl,
    Launch.hear_of_read ⟨.running input [errand.closing], Stage.reading.isParting, 0⟩ rfl
      (read_running_cons errand.closing_short), errand.closes]
  rfl

/-- The thread stores the group of a bundler. -/
theorem thread_store {found : UInt32} :
    (errand.launchAt stage process events group (KillSwitch.track found)).threadStep =
      some (errand.launchAt stage process events found [.check found]) := rfl

/-- The thread sees that the kill switch was not used. -/
theorem thread_check {found : UInt32} :
    (errand.launchAt stage process events group [.check found]).threadStep =
      some (errand.launchAt stage process events group []) := rfl

/-- The thread asks the worker to stop. -/
theorem thread_dismissing {outcome : Outcome} :
    (errand.launchAt (.dismissing outcome) (.running [] []) events group []).threadStep =
      some (errand.launchAt (.killing outcome) (.running [.shutdown] []) events group []) := rfl

/-- The thread sends the killing signal to a worker that has not ended. -/
theorem thread_killing {outcome : Outcome} :
    (errand.launchAt (.killing outcome) process events group []).threadStep =
      some (errand.launchAt (.reaping outcome)
        (if process.isAlive then process.condemn else process) events group []) := by
  unfold launchAt
  simp only [Launch.threadStep, Option.bind_some, Launch.advance, Handle.condemn]
  split <;> rfl

/-- The thread waits for the end of the worker. -/
theorem thread_reaping {outcome : Outcome} :
    (errand.launchAt (.reaping outcome) process events group []).threadStep =
      process.ending.map fun _ =>
        errand.launchAt (.done outcome) process events group [] := rfl

/-! ### The worker -/

/-- A worker that does nothing reads a command. -/
theorem worker_listen {command : Command} (alive : process.isAlive = true)
    (sent : process.input = [command]) (heard : Attended.heard? command = some command) :
    Attended.workerTurn errand.program
        ⟨errand.launchAt stage process events group pending, [], state⟩ =
      some
        ⟨errand.launchAt stage { process with input := [] } events group pending,
          (errand.program.hear command state).1, (errand.program.hear command state).2⟩ := by
  simp [Attended.workerTurn, Launch.nextCommand?, launchAt, sent, Launch.step, Launch.workerStep,
    alive, Launch.Doing.apply, heard, Launch.Doing.events]

/-- A worker says something. -/
theorem worker_say {response : Response} :
    Attended.workerTurn errand.program
        ⟨errand.launchAt stage (.running input unread) events group pending,
          .doing (.say response) :: acts, state⟩ =
      some
        ⟨errand.launchAt stage (.running input (unread ++ [response]))
            (events ++ [.said response]) group pending, acts, state⟩ := by
  have whole : stream .response (unread ++ [response]) =
      stream .response unread ++ Frame.write .response response := by
    simp [stream]
  rw [Process.running, Process.running, whole]
  rfl

/-- A worker ends as its program says. -/
theorem worker_exit {status : ExitStatus} (alive : process.isAlive = true) :
    Attended.workerTurn errand.program
        ⟨errand.launchAt stage process events group pending, .doing (.exit status) :: acts,
          state⟩ =
      some
        ⟨errand.launchAt stage (process.exit status) (events ++ [.exited status]) group pending,
          acts, state⟩ := by
  simp [Attended.workerTurn, launchAt, Launch.step, Launch.workerStep, alive,
    Launch.Doing.apply, Launch.Doing.events]

/-! ### Both -/

/-- A step of the thread is a turn. -/
theorem step_thread {launch next : Launch} (moved : launch.threadStep = some next) :
    Attended.step errand.program ⟨launch, acts, state⟩ .thread = some ⟨next, acts, state⟩ := by
  rw [Attended.step, Launch.step, moved]
  rfl

/-- A worker that was sent the killing signal ends. -/
theorem step_die (alive : process.isAlive = true) (condemned : process.isCondemned = true) :
    Attended.step errand.program
        ⟨errand.launchAt stage process events group pending, acts, state⟩ .die =
      some
        ⟨errand.launchAt stage (process.exit none) (events ++ [.exited none]) group pending,
          acts, state⟩ := by
  simp [Attended.step, launchAt, Launch.step, Launch.workerStep, alive, condemned,
    Launch.Doing.apply, Launch.Doing.events]

/-- While the thread works and the worker runs, no one else has a turn. -/
theorem step_eq_none {turn : Turn} (begun : stage ≠ .starting)
    (undone : ∀ outcome, stage ≠ .done outcome) (thread : turn ≠ .thread)
    (worker : turn ≠ .worker) :
    Attended.step errand.program
      ⟨errand.launchAt stage (.running input unread) events group pending, acts, state⟩ turn =
        none := by
  cases turn with
  | start => simp [Attended.step, Launch.step, launchAt, begun]
  | thread => exact absurd rfl thread
  | timer => rfl
  | join =>
    cases stage with
    | done outcome => exact absurd rfl (undone outcome)
    | _ => rfl
  | worker => exact absurd rfl worker
  | die => rfl

end Errand

end PageBuild.Worker
