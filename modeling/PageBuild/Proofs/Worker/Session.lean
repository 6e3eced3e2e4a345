import PageBuild.Proofs.Build.Ending
import PageBuild.Proofs.Worker.Reading
import PageBuild.Worker.Session

/-!
# What a worker answers

A worker answers the commands that it reads one by one, up to the first one to stop or to the first
fault of its input (`Session.Answers`). For a build it reports the bundler that the build starts, if it
starts one, and then closes with the result of the build or with an error, unless the clock cannot show
when the limit of the bundler runs out: then the worker crashes, and says nothing more.
-/
namespace PageBuild.Worker

/-- The bytes that a worker writes by something that its program does. -/
def Act.written : Act → List UInt8
  | .doing deed => deed.written
  | _ => []

namespace Session

variable {σ : Type}

/-- Whether a response closes the build of an identity: with a result of it, or with an error. -/
inductive Closes (buildId : String) : Response → Prop
  | finished {result : BuildResult} (same : result.buildId = buildId) :
      Closes buildId (.finished result)
  | error {message : String} : Closes buildId (.error message)

/-- The host after a worker did what a command asks for. -/
def hostAfter (tools : Tools) (command : Command) (host : Host σ) : Host σ :=
  ((mortal tools).hear command host).2

/-- The answers of a worker to commands, and the status that it ends with. -/
inductive Answers (tools : Tools) : List Command → Host σ → List Response → Int → Prop
  /-- There is nothing more to read. -/
  | ended {host : Host σ} : Answers tools [] host [] 0
  | shutdown {commands : List Command} {host : Host σ} :
      Answers tools (.shutdown :: commands) host [] 0
  | ping {commands : List Command} {host : Host σ} {answers : List Response} {status : Int}
      (others : Answers tools commands host answers status) :
      Answers tools (.ping :: commands) host (.pong :: answers) status
  /-- The bundlers that were started are reported, one at most, and the build is closed. -/
  | build {request : BuildRequest} {commands : List Command} {host : Host σ} {groups : List UInt32}
      {closing : Response} {answers : List Response} {status : Int}
      (started : (hostAfter tools (.build request) host).bundlers = host.bundlers ++ groups)
      (one : groups.length ≤ 1)
      (limited : groups ≠ [] → Bundler.hasDeadline host.uptime request.settings.timeout = true)
      (closes : Closes request.buildId closing)
      (others : Answers tools commands (hostAfter tools (.build request) host) answers status) :
      Answers tools (.build request :: commands) host
        (groups.map .bundling ++ closing :: answers) status
  /-- The bundler that was started is reported, and its limit crashes the worker. -/
  | crash {request : BuildRequest} {commands : List Command} {host : Host σ} {group : UInt32}
      (started : (hostAfter tools (.build request) host).bundlers = host.bundlers ++ [group])
      (endless : Bundler.hasDeadline host.uptime request.settings.timeout = false) :
      Answers tools (.build request :: commands) host [.bundling group] crashStatus

variable {tools : Tools} {request : BuildRequest} {host after : Host σ}

/-! ## One build -/

/-- The parts of a request are its job in a target and its settings. -/
theorem settings_of_parts {job : Job} {settings : Settings}
    (parts : request.parts = .ok (job, settings)) :
    settings = request.settings ∧ job.buildId = request.buildId := by
  unfold BuildRequest.parts at parts
  split at parts <;> cases parts
  exact ⟨rfl, rfl⟩

/-- What a build came to closes it. -/
theorem closes_runLocal {job : Job} {settings : Settings} {ended : Except Failure BuildResult}
    (ran : (Build.runLocal tools settings job).run host = (ended, after)) :
    Closes job.buildId (closing ended) := by
  cases ended with
  | error failure => exact .error
  | ok result =>
    refine .finished ?_
    rcases Build.refuses_or_accepts job with ⟨failure, refuses⟩ | ⟨schema, valid, parsed⟩
    · rw [Build.runLocal, Build.run_of_refuses refuses] at ran
      cases ran
    · obtain ⟨found, last, worked, reports⟩ := @Build.reports_run σ tools settings job schema
        (job.publishTo.map fun root => LocalStore.toStore ⟨root⟩) host valid parsed
      rw [Build.runLocal, worked] at ran
      cases ran
      exact reports.buildId_eq

/-- A build that crashes its worker started a bundler whose limit ends too late. -/
theorem of_crash? (crashed : crash? tools request host = some after) :
    (∃ group, after.bundlers = host.bundlers ++ [group]) ∧
      Bundler.hasDeadline host.uptime request.settings.timeout = false := by
  cases parts : request.parts with
  | error failure =>
    rw [crash?, parts] at crashed
    cases crashed
  | ok pair =>
    obtain ⟨job, settings⟩ := pair
    obtain ⟨rfl, -⟩ := settings_of_parts parts
    simp only [crash?, parts] at crashed
    exact ⟨Build.bundlers_of_crash? crashed, (Build.of_crash? crashed).2⟩

/-- A build that does not crash its worker is answered. -/
theorem build_eq (calm : crash? tools request host = none) :
    ∃ groups closing after,
      (build tools request).run host = (groups.map .bundling ++ [closing], after) ∧
      after.bundlers = host.bundlers ++ groups ∧ groups.length ≤ 1 ∧
      (groups ≠ [] → Bundler.hasDeadline host.uptime request.settings.timeout = true) ∧
      Closes request.buildId closing := by
  change ∃ groups closing after, build tools request host = _ ∧ _
  cases parts : request.parts with
  | error failure =>
    refine ⟨[], .error failure.message, host, ?_, (List.append_nil _).symm, by simp,
      fun filled => absurd rfl filled, .error⟩
    rw [build, parts]
    rfl
  | ok pair =>
    obtain ⟨job, settings⟩ := pair
    obtain ⟨rfl, identity⟩ := settings_of_parts parts
    cases ran : (Build.runLocal tools request.settings job).run host with
    | mk ended after =>
      have same := Build.sameBundlers_runLocal tools request.settings job host
      obtain ⟨groups, one, started⟩ := @Build.startsOne_runToBundler σ tools request.settings job host
      rw [ran] at same
      have all : after.bundlers = host.bundlers ++ groups := same.trans started
      refine ⟨groups, closing ended, after, ?_, all, one, fun filled => ?_,
        identity ▸ closes_runLocal ran⟩
      · simp only [build, parts, ran, all, List.drop_left]
      · have more : host.Starts ((Build.runToBundler tools request.settings job).run host).2 := by
          rw [Host.Starts, started, List.length_append]
          have := List.length_pos_of_ne_nil filled
          omega
        simp only [crash?, parts] at calm
        by_contra endless
        have crashed := Build.isSome_crash?_iff.mpr
          ⟨Build.starts_runToBundler.mp more, Bool.eq_false_iff.mpr endless⟩
        rw [calm] at crashed
        cases crashed

/-! ## All commands -/

/-- What a worker does for a build that does not crash it: it writes the answers, and goes on. -/
theorem of_buildActs (tools : Tools) (request : BuildRequest) (host : Host σ) :
    ((buildActs tools request).run host).2 = ((build tools request).run host).2 ∧
      ((buildActs tools request).run host).1.flatMap Act.written =
        Frame.stream .response ((build tools request).run host).1 ∧
      ((buildActs tools request).run host).1.any Act.isExit = false := by
  change (buildActs tools request host).2 = _ ∧ (buildActs tools request host).1.flatMap _ = _ ∧
    (buildActs tools request host).1.any _ = _
  rw [buildActs]
  generalize (build tools request).run host = ran
  obtain ⟨responses, after⟩ := ran
  refine ⟨rfl, ?_, ?_⟩
  · dsimp only
    rw [List.flatMap_assoc, Frame.stream]
    refine congrArg (fun write => responses.flatMap write) (funext fun response => ?_)
    split <;> simp [Act.written, Launch.Doing.written]
  · dsimp only
    rw [List.any_flatMap, List.any_eq_false]
    intro response _
    split <;> simp [Act.isExit]

/-- A worker that is crashed reported its bundler, and ends. -/
theorem of_crashActs {group : UInt32} (started : after.bundlers = host.bundlers ++ [group]) :
    (crashActs host after).flatMap Act.written = Frame.stream .response [.bundling group] ∧
      (crashActs host after).getLast? = some (.doing (.exit (some crashStatus))) := by
  rw [crashActs, started, List.drop_left]
  exact ⟨by simp [Frame.stream, Act.written, Launch.Doing.written], rfl⟩

/-- A worker goes on to the commands after one that did not end it. -/
theorem acts_cons (tools : Tools) (command : Command) (commands : List Command) (host : Host σ) :
    acts tools (command :: commands) host =
      if ((mortal tools).hear command host).1.any Act.isExit then ((mortal tools).hear command host).1
      else ((mortal tools).hear command host).1 ++ acts tools commands (hostAfter tools command host) :=
  rfl

/-- A build that crashes a worker is the last that it does something for. -/
theorem acts_of_crash (crashed : crash? tools request host = some after) (commands : List Command) :
    hostAfter tools (.build request) host = after ∧
      acts tools (.build request :: commands) host = crashActs host after := by
  have hears : (mortal tools).hear (.build request) host = (crashActs host after, after) := by
    simp only [mortal, crashed]
  have exits : (crashActs host after).any Act.isExit = true := by
    rw [crashActs, List.any_append]
    exact Bool.or_true _
  rw [hostAfter, acts_cons, hears]
  exact ⟨rfl, if_pos exits⟩

/-- After a build that does not crash it, a worker goes on. -/
theorem acts_of_calm (calm : crash? tools request host = none) (commands : List Command) :
    hostAfter tools (.build request) host = ((build tools request).run host).2 ∧
      acts tools (.build request :: commands) host =
        ((buildActs tools request).run host).1 ++
          acts tools commands ((build tools request).run host).2 := by
  obtain ⟨left, -, lives⟩ := of_buildActs tools request host
  have hears : (mortal tools).hear (.build request) host = (buildActs tools request).run host := by
    simp only [mortal, calm]
    rfl
  rw [← left, acts_cons, hostAfter, hears]
  exact ⟨rfl, if_neg (by simp [lives])⟩

/-- What a worker does for commands is to write its answers and to end. -/
theorem answers_acts (tools : Tools) (commands : List Command) (host : Host σ) :
    ∃ answers status, Answers tools commands host answers status ∧
      (acts tools commands host).flatMap Act.written = Frame.stream .response answers ∧
      (acts tools commands host).getLast? = some (.doing (.exit (some status))) := by
  induction commands generalizing host with
  | nil => exact ⟨[], 0, .ended, rfl, rfl⟩
  | cons command commands ih =>
    cases command with
    | shutdown => exact ⟨[], 0, .shutdown, rfl, rfl⟩
    | ping =>
      obtain ⟨answers, status, answered, wrote, ends⟩ := ih host
      have goes : acts tools (.ping :: commands) host =
          .doing (.say .pong) :: acts tools commands host := rfl
      rw [goes]
      refine ⟨.pong :: answers, status, .ping answered, ?_, ?_⟩
      · rw [List.flatMap_cons, Frame.stream_cons, wrote]
        rfl
      · rw [List.getLast?_cons, ends]
        rfl
    | build request =>
      cases crashed : crash? tools request host with
      | some after =>
        obtain ⟨⟨group, started⟩, endless⟩ := of_crash? crashed
        obtain ⟨wrote, ends⟩ := of_crashActs started
        obtain ⟨last, goes⟩ := acts_of_crash crashed commands
        rw [goes]
        exact ⟨[.bundling group], crashStatus, .crash (last ▸ started) endless, wrote, ends⟩
      | none =>
        obtain ⟨groups, closing, after, ran, started, one, limited, closes⟩ := build_eq crashed
        obtain ⟨-, wrote, -⟩ := of_buildActs tools request host
        obtain ⟨last, goes⟩ := acts_of_calm crashed commands
        rw [ran] at last wrote goes
        obtain ⟨answers, status, answered, wrote', ends⟩ := ih after
        rw [goes]
        refine ⟨groups.map .bundling ++ closing :: answers, status,
          .build (last ▸ started) one limited closes (last ▸ answered), ?_, ?_⟩
        · rw [List.flatMap_append, wrote, wrote', ← Frame.stream_append, List.append_assoc]
          rfl
        · rw [List.getLast?_append, ends]
          rfl

/-- Whatever a worker reads, it answers the commands before the first fault of its input, up to one to
stop or to a build that crashes it. It writes nothing else, and ends. -/
theorem session_answers (tools : Tools) (input : List UInt8) (host : Host σ) :
    ∃ answers status, Answers tools (Frame.readAll .command input).1 host answers status ∧
      (ofInput tools input host).flatMap Act.written = Frame.stream .response answers ∧
      (ofInput tools input host).getLast? = some (.doing (.exit (some status))) :=
  answers_acts tools _ host

section Sample

/-- A build of the sample job whose bundler may run for more seconds than the clock counts. -/
def endlessRequest : BuildRequest :=
  .of Build.sampleJob Build.endlessSettings

/-- A build whose limit the clock cannot show the end of is not closed. -/
theorem endless_limit_unanswered :
    (Frame.readAll .command (Frame.write .command (.build endlessRequest))).1 =
        [.build endlessRequest] ∧
      ¬∃ (groups : List UInt32) (closing : Response), Closes endlessRequest.buildId closing ∧
        (ofInput Build.sampleTools (Frame.write .command (.build endlessRequest))
            Build.sampleHost).flatMap Act.written =
          Frame.stream .response (groups.map .bundling ++ [closing]) := by
  have read : (Frame.readAll .command (Frame.stream .command [.build endlessRequest])).1 =
      [.build endlessRequest] := by
    rw [Frame.readAll_stream Frame.Layout.command_lawful (by decide +kernel)]
  rw [Frame.stream_cons, Frame.stream, List.flatMap_nil, List.append_nil] at read
  have parts : endlessRequest.parts = .ok (Build.sampleJob, Build.endlessSettings) := by
    decide +kernel
  obtain ⟨after, crashes, started⟩ := Option.map_eq_some_iff.mp Build.crash?_endlessSettings
  have crashed : crash? Build.sampleTools endlessRequest Build.sampleHost = some after := by
    simp only [crash?, parts, crashes]
  have goes := (acts_of_crash crashed []).2
  have wrote : (crashActs Build.sampleHost after).flatMap Act.written =
      Frame.stream .response [.bundling 7] := (of_crashActs started).1
  refine ⟨read, ?_⟩
  rintro ⟨groups, closing, closes, closed⟩
  rw [ofInput, read, goes, wrote] at closed
  have same := Frame.messages_eq_of_stream_eq Frame.Layout.response_lawful closed (by decide +kernel)
  have last := congrArg List.getLast? same
  rw [List.getLast?_singleton, List.getLast?_concat] at last
  obtain rfl := Option.some.inj last
  cases closes

end Sample

end Session

end PageBuild.Worker
