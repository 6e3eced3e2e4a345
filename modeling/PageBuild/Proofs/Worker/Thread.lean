import Mathlib.Algebra.Ring.Nat
import PageBuild.Worker.Launch

/-!
# The thread of a launch

What one step of the thread can do is listed once (`Launch.Acts`), beside what the thread and the
timer do with the kill switch. Each of these steps leaves fewer of them to go until the worker says
more (`Launch.toGo`), so that thread and timer come to rest by themselves (`Launch.exists_rest`); the
thread then waits for the worker or is done (`Launch.Rests`).
-/
namespace PageBuild.Worker

/-- A process that has ended or was sent the killing signal. -/
def Process.Doomed (process : Process) : Prop :=
  process.isAlive = true → process.isCondemned = true

/-- A process that has ended is doomed. -/
theorem Process.Doomed.of_ended {process : Process} (ended : process.isAlive = false) :
    process.Doomed := fun alive => by
  rw [ended] at alive
  cases alive

namespace Handle

variable {handle next : Handle} {command : Command}

/-- Whether a handle is of the same process, which still runs if it did, and with all signals that it
was sent and no more output than before. -/
structure Follows (handle next : Handle) : Prop where
  ending_eq : next.process.ending = handle.process.ending
  condemned : handle.process.isCondemned = true → next.process.isCondemned = true
  output_le : next.process.output.length ≤ handle.process.output.length

/-- A handle that did nothing is of the same process. -/
theorem Follows.refl : handle.Follows handle := ⟨rfl, id, Nat.le_refl _⟩

/-- The handle of the same process is that of a running one if it was. -/
theorem Follows.isAlive_eq (follows : handle.Follows next) :
    next.process.isAlive = handle.process.isAlive := by
  rw [Process.isAlive, Process.isAlive, follows.ending_eq]

/-- A doomed process stays so. -/
theorem Follows.doomed (follows : handle.Follows next) (doomed : handle.process.Doomed) :
    next.process.Doomed := fun alive =>
  follows.condemned (doomed (follows.isAlive_eq ▸ alive))

/-- Sending a command changes only what the process is to read. -/
theorem send_process :
    (handle.send command).2.process.output = handle.process.output ∧
      (handle.send command).2.process.ending = handle.process.ending ∧
      (handle.send command).2.process.isListening = handle.process.isListening ∧
      (handle.send command).2.process.isCondemned = handle.process.isCondemned ∧
      (handle.send command).2.isKilled = handle.isKilled := by
  unfold send
  split
  · exact ⟨rfl, rfl, rfl, rfl, rfl⟩
  · split <;> exact ⟨rfl, rfl, rfl, rfl, rfl⟩

/-- Sending a command is no signal. -/
theorem follows_send : handle.Follows (handle.send command).2 := by
  obtain ⟨output, ending, -, condemned, -⟩ := @send_process handle command
  exact ⟨ending, fun before => condemned.trans before, Nat.le_of_eq (congrArg List.length output)⟩

/-- A command can be sent to a process that hears. -/
theorem send_eq_ok (kept : handle.isKilled = false) (hears : handle.process.hears = true) :
    (handle.send command).1 = .ok () := by
  simp [send, kept, hears]

/-- Only to a process that hears a command can be sent. -/
theorem hears_of_send (sent : (handle.send command).1 = .ok ()) : handle.process.hears = true := by
  unfold send at sent
  split at sent
  · cases sent
  · split at sent
    · assumption
    · cases sent

/-- What is left of a stream after a fault is no longer than the stream. -/
theorem length_afterFault_le (stream : List UInt8) (fault : Frame.Fault) :
    (Process.afterFault stream fault).length ≤ stream.length := by
  cases fault <;> simp [Process.afterFault]

/-- Reading takes bytes of the output, and nothing else. -/
theorem read_process (process : Process) :
    process.read.2.ending = process.ending ∧ process.read.2.isCondemned = process.isCondemned ∧
      process.read.2.output.length ≤ process.output.length ∧
      ∀ response, process.read.1 = .response response →
        process.read.2.output.length < process.output.length := by
  unfold Process.read
  split
  · rename_i response rest found
    have shorter := Frame.length_lt_of_read found
    exact ⟨rfl, rfl, Nat.le_of_lt shorter, fun _ _ => shorter⟩
  · split
    · exact ⟨rfl, rfl, Nat.le_refl _, fun _ said => by cases said⟩
    · exact ⟨rfl, rfl, length_afterFault_le _ _, fun _ said => by cases said⟩

/-- What a handle receives that did not kill its process is what is read. -/
theorem receive_eq (kept : handle.isKilled = false) :
    handle.receive = (handle.process.read.1, { handle with process := handle.process.read.2 }) := by
  simp [receive, kept]

/-- A handle that killed its process receives nothing. -/
theorem receive_of_isKilled (killed : handle.isKilled = true) :
    handle.receive = (.failed killedFailure, handle) := by
  simp [receive, killed]

/-- Receiving a response is no signal. -/
theorem follows_receive : handle.Follows handle.receive.2 := by
  cases killed : handle.isKilled with
  | true => rw [receive_of_isKilled killed]; exact .refl
  | false =>
    rw [receive_eq killed]
    obtain ⟨ending, condemned, output, -⟩ := read_process handle.process
    exact ⟨ending, fun before => condemned.trans before, output⟩

/-- A response takes bytes of the output. -/
theorem length_lt_of_receive {response : Response} (said : handle.receive.1 = .response response) :
    handle.receive.2.process.output.length < handle.process.output.length := by
  cases killed : handle.isKilled with
  | true => rw [receive_of_isKilled killed] at said; cases said
  | false =>
    rw [receive_eq killed] at said ⊢
    exact (read_process handle.process).2.2.2 response said

/-- A process that was asked to stop is not sent the killing signal by that. -/
theorem follows_dismiss : handle.Follows handle.dismiss := by
  obtain ⟨ending, condemned, output⟩ := @follows_send handle .shutdown
  exact ⟨ending, condemned, output⟩

/-- A process that is sent the killing signal goes on as before. -/
theorem follows_condemn : handle.Follows handle.condemn := by
  unfold condemn
  split
  · exact ⟨rfl, fun _ => rfl, Nat.le_refl _⟩
  · exact .refl

/-- A process that is sent the killing signal is doomed. -/
theorem doomed_condemn : handle.condemn.process.Doomed := by
  unfold condemn
  split
  · exact fun _ => rfl
  · rename_i ended
    exact .of_ended (by simpa using ended)

/-- The handle after an operation on the switch, which may send the process the killing signal. -/
def afterOp (handle : Handle) (op : KillSwitch.Op) : Handle :=
  if op = .send .worker then handle.condemn else handle

/-- An operation on the switch may condemn the process, and does nothing else to it. -/
theorem afterOp_eq (handle : Handle) (op : KillSwitch.Op) :
    handle.afterOp op = handle ∨
      handle.afterOp op = { handle with process := handle.process.condemn } := by
  unfold afterOp condemn
  split
  · split
    · exact .inr rfl
    · exact .inl rfl
  · exact .inl rfl

/-- An operation on the switch leaves the process as it is, but for the killing signal. -/
theorem follows_afterOp (op : KillSwitch.Op) : handle.Follows (handle.afterOp op) := by
  unfold afterOp
  split
  · exact follows_condemn
  · exact .refl

end Handle

namespace Launch

open KillSwitch (Op)

variable {launch next : Launch} {handle : Handle}

/-! ## Steps -/

/-- A step of the thread with the worker: from one stage and handle to others. -/
inductive Advances (request : BuildRequest) (handle : Handle) : Stage → Stage → Handle → Prop
  | greet (sent : (handle.send .ping).1 = .ok ()) :
    Advances request handle .greeting .meeting (handle.send .ping).2
  | unheard {failure : Failure} (refused : (handle.send .ping).1 = .error failure) :
    Advances request handle .greeting (.dismissing (.failed failure.message)) (handle.send .ping).2
  | meet (said : handle.receive.1 = .response .pong) :
    Advances request handle .meeting .recording handle.receive.2
  | stray {outcome : Outcome} (said : handle.receive.1 ≠ .pending) :
    Advances request handle .meeting (.dismissing outcome) handle.receive.2
  | order (sent : (handle.send (.build request)).1 = .ok ()) :
    Advances request handle .sending .reading (handle.send (.build request)).2
  | refuse {failure : Failure} (refused : (handle.send (.build request)).1 = .error failure) :
    Advances request handle .sending (.dismissing (.failed failure.message))
      (handle.send (.build request)).2
  | close {outcome : Outcome} {response : Response} (said : handle.receive.1 = .response response)
      (closes : Reaction.ofResponse response = .close outcome) :
    Advances request handle .reading (.dismissing outcome) handle.receive.2
  | lose {failure : Failure} (lost : handle.receive.1 = .failed failure) :
    Advances request handle .reading .waiting handle.receive.2
  | part {status : ExitStatus} (ended : handle.process.ending = some status) :
    Advances request handle .waiting (.dismissing (.exited status)) handle
  | dismiss {outcome : Outcome} :
    Advances request handle (.dismissing outcome) (.killing outcome) handle.dismiss
  | kill {outcome : Outcome} :
    Advances request handle (.killing outcome) (.reaping outcome) handle.condemn
  | reap {outcome : Outcome} {status : ExitStatus} (ended : handle.process.ending = some status) :
    Advances request handle (.reaping outcome) (.done outcome) handle

/-- What the thread does in one step. -/
inductive Acts (launch : Launch) : Launch → Prop
  /-- It uses the kill switch. -/
  | use {op : Op} {ops : List Op} (pending : launch.pending = op :: ops) :
    Acts launch
      { (launch.useSwitch (op :: ops)).1 with pending := (launch.useSwitch (op :: ops)).2 }
  /-- It hands over the kill switch. -/
  | record (idle : launch.pending = []) (stage : launch.stage = .recording) : Acts launch launch.record
  /-- It hears of a bundler. -/
  | track {handle : Handle} {group : UInt32} (idle : launch.pending = [])
      (has : launch.handle = some handle) (stage : launch.stage = .reading)
      (said : handle.receive.1 = .response (.bundling group)) :
    Acts launch
      { launch with handle := some handle.receive.2, pending := KillSwitch.track group }
  /-- It goes on with the worker. -/
  | advance {handle next : Handle} {stage : Stage} (idle : launch.pending = [])
      (has : launch.handle = some handle)
      (advances : Advances launch.request handle launch.stage stage next) :
    Acts launch { launch with handle := some next, stage }

/-- Whether the thread waits for the worker, or is done, or not begun. -/
inductive Rests (launch : Launch) (handle : Handle) : Prop
  | starting (stage : launch.stage = .starting)
  | hearing (stage : launch.stage = .meeting ∨ launch.stage = .reading)
      (silent : handle.receive.1 = .pending)
  | ending (stage : launch.stage = .waiting ∨ ∃ outcome, launch.stage = .reaping outcome)
      (alive : handle.process.isAlive = true)
  | done {outcome : Outcome} (stage : launch.stage = .done outcome)

/-- Sending a command goes on to the next stage or gives up. -/
theorem acts_of_send {command : Command} {stage : Stage} (idle : launch.pending = [])
    (has : launch.handle = some handle)
    (sent : (handle.send command).1 = .ok () →
      Advances launch.request handle launch.stage stage (handle.send command).2)
    (refused : ∀ {failure}, (handle.send command).1 = .error failure →
      Advances launch.request handle launch.stage (.dismissing (.failed failure.message))
        (handle.send command).2) :
    Acts launch (launch.send handle command stage) := by
  unfold Launch.send
  split
  · rename_i after same
    rw [same] at sent
    exact .advance idle has (sent rfl)
  · rename_i failure after same
    rw [same] at refused
    exact .advance idle has (refused rfl)

/-- Hearing the answer to the greeting goes on to the next stage or gives up. -/
theorem acts_of_meet (idle : launch.pending = []) (has : launch.handle = some handle)
    (stage : launch.stage = .meeting) (moved : launch.meet handle = some next) : Acts launch next := by
  unfold meet at moved
  split at moved <;> cases moved
  all_goals
    rename_i same
    obtain ⟨said, rfl⟩ := Prod.ext_iff.mp same
    apply Acts.advance idle has
    rw [stage]
  · exact .meet said
  · exact .stray (by simp [said])
  · exact .stray (by simp [said])

/-- Hearing what the worker says about the job notes a bundler, or goes on. -/
theorem acts_of_hear (idle : launch.pending = []) (has : launch.handle = some handle)
    (stage : launch.stage = .reading) (moved : launch.hear handle = some next) : Acts launch next := by
  unfold hear at moved
  split at moved
  · cases moved
  · rename_i response after same
    obtain ⟨said, rfl⟩ := Prod.ext_iff.mp same
    split at moved <;> cases moved
    · rename_i group reaction
      have bundling : response = .bundling group := by cases response <;> cases reaction; rfl
      exact .track idle has stage (bundling ▸ said)
    · rename_i closes
      exact .advance idle has (stage ▸ .close said closes)
  · rename_i failure after same
    obtain ⟨lost, rfl⟩ := Prod.ext_iff.mp same
    cases moved
    exact .advance idle has (stage ▸ .lose lost)

/-- Going on after the end of the worker keeps its handle. -/
theorem acts_of_reap {onward : ExitStatus → Stage} (idle : launch.pending = [])
    (has : launch.handle = some handle)
    (advances : ∀ {status}, handle.process.ending = some status →
      Advances launch.request handle launch.stage (onward status) handle)
    (moved : launch.reap handle onward = some next) : Acts launch next := by
  obtain ⟨status, ended, rfl⟩ := Option.map_eq_some_iff.mp moved
  have acts := Acts.advance idle has (advances ended)
  rwa [← has] at acts

/-- Every step of the thread is one of its acts. -/
theorem acts_of_threadStep (moved : launch.threadStep = some next) : Acts launch next := by
  unfold threadStep at moved
  split at moved
  · rename_i idle
    obtain ⟨handle, has, moved⟩ := Option.bind_eq_some_iff.mp moved
    unfold Launch.advance at moved
    split at moved
    · cases moved
    · rename_i stage
      cases moved
      exact acts_of_send idle has (fun sent => stage ▸ .greet sent) fun refused =>
        stage ▸ .unheard refused
    · exact acts_of_meet idle has ‹_› moved
    · cases moved
      exact .record idle ‹_›
    · rename_i stage
      cases moved
      exact acts_of_send idle has (fun sent => stage ▸ .order sent) fun refused =>
        stage ▸ .refuse refused
    · exact acts_of_hear idle has ‹_› moved
    · rename_i stage
      exact acts_of_reap idle has (fun ended => stage ▸ .part ended) moved
    · rename_i stage
      cases moved
      exact .advance idle has (stage ▸ .dismiss)
    · rename_i stage
      cases moved
      exact .advance idle has (stage ▸ .kill)
    · rename_i stage
      exact acts_of_reap idle has (fun ended => stage ▸ .reap ended) moved
    · cases moved
  · rename_i busy
    obtain ⟨op, ops, pending⟩ := List.exists_cons_of_ne_nil busy
    cases moved
    rw [pending]
    exact .use pending

/-- A thread that has no step has nothing to do with the switch, and rests. -/
theorem rests_of_threadStep (has : launch.handle = some handle) (still : launch.threadStep = none) :
    launch.pending = [] ∧ Rests launch handle := by
  have alive : ∀ {onward : ExitStatus → Stage}, launch.reap handle onward = none →
      handle.process.isAlive = true := by
    intro onward none
    rw [reap, Option.map_eq_none_iff] at none
    rw [Process.isAlive, none]
    rfl
  unfold threadStep at still
  split at still
  · rename_i idle
    refine ⟨idle, ?_⟩
    rw [has, Option.bind_some] at still
    unfold Launch.advance at still
    split at still
    · exact .starting ‹_›
    · cases still
    · rename_i stage
      unfold meet at still
      split at still <;> cases still
      rename_i same
      exact .hearing (.inl stage) (by rw [same])
    · cases still
    · cases still
    · rename_i stage
      unfold hear at still
      split at still
      · rename_i same
        exact .hearing (.inr stage) (by rw [same])
      · split at still <;> cases still
      · cases still
    · rename_i stage
      exact .ending (.inl stage) (alive still)
    · cases still
    · cases still
    · rename_i outcome stage
      exact .ending (.inr ⟨outcome, stage⟩) (alive still)
    · exact .done ‹_›
  · cases still

/-! ## Rest -/

/-- The number of stages that a thread may still go through. -/
def rank : Stage → Nat
  | .starting => 10
  | .greeting => 9
  | .meeting => 8
  | .recording => 7
  | .sending => 6
  | .reading => 5
  | .waiting => 4
  | .dismissing _ => 3
  | .killing _ => 2
  | .reaping _ => 1
  | .done _ => 0

/-- The most steps that an operation on the switch takes, with those that it leads to. -/
def weight : Op → Nat
  | .store _ => 1
  | .check _ => 3
  | .mark => 2
  | .take => 2
  | .send _ => 1

/-- The number of bytes that the worker wrote and that are still to be read. -/
def backlog (launch : Launch) : Nat :=
  (launch.handle.map fun handle => handle.process.output.length).getD 0

/-- The most steps that thread and timer take until the worker says more. -/
def toGo (launch : Launch) : Nat :=
  5 * (rank launch.stage + launch.backlog) + (launch.pending.map weight).sum +
    (launch.timer.map weight).sum

/-- An operation on the switch leaves less to do with it. -/
theorem sum_weight_advance_lt (switch : KillSwitch) (op : Op) (ops : List Op) :
    ((switch.advance (op :: ops)).2.map weight).sum < ((op :: ops).map weight).sum := by
  have left : (switch.advance (op :: ops)).2 = (switch.apply op).2 ++ ops := rfl
  have lighter : ((switch.apply op).2.map weight).sum < weight op := by
    cases op <;> simp only [KillSwitch.apply] <;> (try split) <;> simp [weight]
  rw [left, List.map_append, List.sum_append, List.map_cons, List.sum_cons]
  omega

/-- Using the switch may send the worker the killing signal. -/
theorem useSwitch_cons (op : Op) (ops : List Op) :
    launch.useSwitch (op :: ops) =
      ({ launch with
        switch := (launch.switch.advance (op :: ops)).1
        handle := launch.handle.map fun handle => handle.afterOp op },
        (launch.switch.advance (op :: ops)).2) := by
  cases op with
  | send signal =>
    cases signal with
    | worker => simp [useSwitch, Handle.afterOp]
    | call argument => simp [useSwitch, Handle.afterOp]
  | _ => simp [useSwitch, Handle.afterOp]

/-- An operation on the switch leaves as many bytes to be read. -/
theorem backlog_afterOp (op : Op) :
    ((launch.handle.map fun handle => handle.afterOp op).map fun handle =>
      handle.process.output.length).getD 0 = launch.backlog := by
  unfold backlog
  cases launch.handle with
  | none => rfl
  | some handle =>
    rcases handle.afterOp_eq op with same | same <;>
      simp only [Option.map_some, same, Option.getD_some, Process.condemn]

/-- A step of the timer uses the switch. -/
theorem of_timerStep (moved : launch.timerStep = some next) :
    ∃ op ops, launch.timer = op :: ops ∧
      next = { (launch.useSwitch (op :: ops)).1 with timer := (launch.useSwitch (op :: ops)).2 } := by
  unfold timerStep at moved
  cases timer : launch.timer with
  | nil =>
    rw [timer] at moved
    cases moved
  | cons op ops =>
    rw [timer] at moved
    exact ⟨op, ops, rfl, (Option.some.inj moved).symm⟩

/-- A timer that has no step has nothing to do with the switch. -/
theorem timer_eq_nil (still : launch.timerStep = none) : launch.timer = [] := by
  unfold timerStep at still
  split at still
  · assumption
  · cases still

/-- A step with the worker is of the same process. -/
theorem Advances.follows {request : BuildRequest} {stage stage' : Stage} {next : Handle}
    (advances : Advances request handle stage stage' next) : handle.Follows next := by
  cases advances with
  | greet | unheard | order | refuse => exact Handle.follows_send
  | meet | stray | close | lose => exact Handle.follows_receive
  | part | reap => exact .refl
  | dismiss => exact Handle.follows_dismiss
  | kill => exact Handle.follows_condemn

/-- A step with the worker goes on to a later stage. -/
theorem Advances.rank_lt {request : BuildRequest} {stage stage' : Stage} {next : Handle}
    (advances : Advances request handle stage stage' next) : rank stage' < rank stage := by
  cases advances <;> simp [rank]

/-- Every act of the thread leaves less to do. -/
theorem Acts.toGo_lt (acts : Acts launch next) : next.toGo < launch.toGo := by
  cases acts with
  | @use op ops pending =>
    have lighter := sum_weight_advance_lt launch.switch op ops
    simp only [toGo, useSwitch_cons, backlog, pending]
    rw [backlog_afterOp, backlog]
    omega
  | record idle stage =>
    have short : (launch.record.pending.map weight).sum ≤ 4 := by
      unfold Launch.record
      dsimp only
      split <;> decide
    simp only [toGo, idle, stage] at short ⊢
    simp only [Launch.record, backlog, rank, List.map_nil, List.sum_nil] at short ⊢
    omega
  | @track handle group idle has stage said =>
    have shorter := Handle.length_lt_of_receive said
    simp only [toGo, backlog, has, idle, KillSwitch.track, weight, Option.map_some, Option.getD_some,
      List.map_cons, List.map_nil, List.sum_cons, List.sum_nil]
    omega
  | @advance handle next stage idle has advances =>
    have later := advances.rank_lt
    have output := advances.follows.output_le
    simp only [toGo, backlog, has, Option.map_some, Option.getD_some]
    omega

/-- Every step of the timer leaves less to do. -/
theorem toGo_lt_of_timerStep (moved : launch.timerStep = some next) : next.toGo < launch.toGo := by
  obtain ⟨op, ops, timer, rfl⟩ := of_timerStep moved
  have lighter := sum_weight_advance_lt launch.switch op ops
  simp only [toGo, useSwitch_cons, backlog, timer]
  rw [backlog_afterOp, backlog]
  omega

/-- Thread and timer come to rest by themselves. -/
theorem exists_rest (launch : Launch) :
    ∃ moves : List Move, (∀ move ∈ moves, move = .thread ∨ move = .timer) ∧
      ∃ rest, launch.run moves = some rest ∧ rest.threadStep = none ∧ rest.timerStep = none := by
  induction toGo : launch.toGo using Nat.strongRecOn generalizing launch with
  | ind count ih =>
    have onward : ∀ {move : Move} {next : Launch}, move = .thread ∨ move = .timer →
        launch.step move = some next → next.toGo < launch.toGo →
        ∃ moves : List Move, (∀ move ∈ moves, move = .thread ∨ move = .timer) ∧
          ∃ rest, launch.run moves = some rest ∧ rest.threadStep = none ∧ rest.timerStep = none := by
      intro move next parent moved less
      obtain ⟨moves, parents, rest, ran, still⟩ := ih next.toGo (toGo ▸ less) next rfl
      refine ⟨move :: moves, List.forall_mem_cons.mpr ⟨parent, parents⟩, rest, ?_, still⟩
      rw [run, moved, Option.bind_some, ran]
    cases thread : launch.threadStep with
    | some next => exact onward (.inl rfl) thread (acts_of_threadStep thread).toGo_lt
    | none =>
      cases timer : launch.timerStep with
      | some next => exact onward (.inr rfl) timer (toGo_lt_of_timerStep timer)
      | none => exact ⟨[], by simp, launch, rfl, thread, timer⟩

end Launch

end PageBuild.Worker
