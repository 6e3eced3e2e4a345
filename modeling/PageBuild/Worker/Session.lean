import PageBuild.Build.Run
import PageBuild.Worker.Program

/-!
# Worker sessions

A worker answers the commands of its input one by one: a ping with a pong, and a build with the
process group of its bundler, if one was started, and one closing message. It ends with the first
command to stop, and where no further command can be read. It crashes at a build whose limit the clock
cannot show the end of, once the bundler was started.
-/
namespace PageBuild.Worker.Session

variable {σ : Type}

/-- The message that closes a build. -/
def closing : Except Failure BuildResult → Response
  | .ok result => .finished result
  | .error failure => .error failure.message

/-- The answers to the request of a build: one for each bundler that was started, and the
closing. -/
def build (tools : Tools) (request : BuildRequest) : StateM (Host σ) (List Response) :=
  fun host =>
    match request.parts with
    | .error failure => ([.error failure.message], host)
    | .ok (job, settings) =>
      let (result, after) := (Build.runLocal tools settings job).run host
      ((after.bundlers.drop host.bundlers.length).map .bundling ++ [closing result], after)

/-- What a worker does for a build: its bundler runs between the answers. -/
def buildActs (tools : Tools) (request : BuildRequest) : StateM (Host σ) (List Act) :=
  fun host =>
    let (responses, after) := (build tools request).run host
    let lasted := after.now.milliseconds - host.now.milliseconds
    (responses.flatMap fun response =>
      if response.isClosing then [.pause lasted, .doing (.say response)]
      else [.doing (.say response)], after)

/-- The worker as a program over its host, for as long as it does not crash. -/
def program (tools : Tools) : Program (Host σ) where
  start host := ([], host)
  hear
    | .ping, host => ([.doing (.say .pong)], host)
    | .shutdown, host => ([.doing (.exit (some 0))], host)
    | .build request, host => (buildActs tools request).run host

/-- Starts sessions from the file of the worker, which is the only one that can be run. A path
without a slash names a file of the search path, where there is none. -/
def starter (tools : Tools) (worker : Path) : Starter (Host σ) := fun path host =>
  if path = worker then .ok (program tools)
  else if path.pieces.length ≤ 1 then .error .noEntry
  else
    match host.files.stat path with
    | .error cause => .error cause
    | .ok _ => .error .permissionDenied

/-! ## Crashes -/

/-- The status of a worker that crashed. -/
def crashStatus : Int := 101

/-- The host after a request whose build crashes, and the worker with it. -/
def crash? (tools : Tools) (request : BuildRequest) (host : Host σ) : Option (Host σ) :=
  match request.parts with
  | .error _ => none
  | .ok (job, settings) => Build.crash? tools settings job host

/-- What a worker does for a build that crashes it, as soon as it is waited for. -/
def crashActs (before after : Host σ) : List Act :=
  (after.bundlers.drop before.bundlers.length).map (fun group => .doing (.say (.bundling group))) ++
    [.pause 0, .doing (.exit (some crashStatus))]

/-- The worker as a program over its host. -/
def mortal (tools : Tools) : Program (Host σ) where
  start := (program tools).start
  hear command host :=
    match command with
    | .build request =>
      match crash? tools request host with
      | some after => (crashActs host after, after)
      | none => (program tools).hear (.build request) host
    | command => (program tools).hear command host

/-- Starts sessions that may crash, from the file of the worker. -/
def mortalStarter (tools : Tools) (worker : Path) : Starter (Host σ) := fun path host =>
  (starter tools worker path host).map fun _ => mortal tools

/-- What a worker does for commands, and at the end of its input, before it ends. -/
def acts (tools : Tools) : List Command → Host σ → List Act
  | [], _ => [.doing (.exit (some 0))]
  | command :: commands, host =>
    let (acts, after) := (mortal tools).hear command host
    if acts.any Act.isExit then acts else acts ++ Session.acts tools commands after

/-- What a worker does for its whole input, of which it reads the commands before the first fault. -/
def ofInput (tools : Tools) (input : List UInt8) (host : Host σ) : List Act :=
  acts tools (Frame.readAll .command input).1 host

end PageBuild.Worker.Session
