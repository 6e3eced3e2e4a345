import PageBuild.Proofs.Frame.Stream
import PageBuild.Proofs.Worker.Expiry

/-!
# What a worker says about its job

The thread of a launch reads a stream that the worker may still write to. What it has read stays read
as the stream grows (`Leads.append`), so that the stream as far as it was written decides what the thread
makes of it: it notes the bundlers that are reported first and comes to the outcome of the first other
response, or of the end of the worker where there is none (`Classified`). Every move of a launch keeps
this account (`Launch.Reads.step`); who moves when does not matter (`Launch.responses_classified`).
-/
namespace PageBuild.Worker

open PageBuild.Frame (readAll)

/-! ## Reading ahead -/

/-- The reports of bundlers at the beginning of a stream lead from the whole stream to a rest. -/
inductive Leads (bytes : List UInt8) : List UInt32 → List UInt8 → Prop
  | nothing : Leads bytes [] bytes
  | report {groups : List UInt32} {group : UInt32} {middle rest : List UInt8}
      (leads : Leads bytes groups middle)
      (found : Frame.read .response middle = .ok (.bundling group, rest)) :
      Leads bytes (groups ++ [group]) rest

/-- The outcome that a thread came to by a stream, of which it left some bytes, and by how the worker
ended. -/
inductive Concludes (bytes : List UInt8) (groups : List UInt32) (unread : List UInt8)
    (ending : Option ExitStatus) : Outcome → Prop
  | closed {middle : List UInt8} {response : Response} {outcome : Outcome}
      (leads : Leads bytes groups middle)
      (found : Frame.read .response middle = .ok (response, unread))
      (closes : Reaction.ofResponse response = .close outcome) :
      Concludes bytes groups unread ending outcome
  | lost {rest : List UInt8} {fault : Frame.Fault} {status : ExitStatus}
      (leads : Leads bytes groups rest) (cut : Frame.read .response rest = .error fault)
      (ended : ending = some status) :
      Concludes bytes groups unread ending (.exited status)

/-- What the responses of a worker that ended with some status come to: the bundlers that are noted,
the outcome, and the responses that are left. -/
inductive Classified (status : ExitStatus) :
    List Response → List UInt32 → Outcome → List Response → Prop
  | bundling {group : UInt32} {messages : List Response} {groups : List UInt32} {outcome : Outcome}
      {rest : List Response} (others : Classified status messages groups outcome rest) :
      Classified status (.bundling group :: messages) (group :: groups) outcome rest
  | finished {result : BuildResult} {rest : List Response} :
      Classified status (.finished result :: rest) [] (.completed result) rest
  | error {message : String} {rest : List Response} :
      Classified status (.error message :: rest) [] (.failed message) rest
  | pong {rest : List Response} :
      Classified status (.pong :: rest) [] (.failed "unexpected response from worker: Pong") rest
  | lost : Classified status [] [] (.exited status) []

section Stream

variable {bytes rest unread : List UInt8} {groups : List UInt32} {ending : Option ExitStatus}
  {status : ExitStatus} {outcome : Outcome} {messages : List Response}

/-- What was read stays read while more is written. -/
theorem Leads.append (leads : Leads bytes groups rest) (more : List UInt8) :
    Leads (bytes ++ more) groups (rest ++ more) := by
  induction leads with
  | nothing => exact .nothing
  | report _ found ih => exact .report ih (Frame.read_append found more)

/-- The reports are the first messages of a stream, and the rest of it holds the others. -/
theorem Leads.readAll_eq (leads : Leads bytes groups rest) :
    readAll .response bytes =
      (groups.map .bundling ++ (readAll .response rest).1, (readAll .response rest).2) := by
  induction leads with
  | nothing => rfl
  | report _ found ih =>
    rw [ih, Frame.readAll_of_read found]
    simp

/-- The reports take a beginning of a stream. -/
theorem Leads.isSuffix (leads : Leads bytes groups rest) : rest <:+ bytes := by
  induction leads with
  | nothing => exact List.suffix_refl _
  | report _ found ih => exact (Frame.isSuffix_of_read found).trans ih

/-- Bundlers that are reported first are noted. -/
theorem Classified.after_reports {after rest : List Response}
    (classified : Classified status after [] outcome rest) (groups : List UInt32) :
    Classified status (groups.map .bundling ++ after) groups outcome rest := by
  induction groups with
  | nil => exact classified
  | cons group groups ih => exact .bundling ih

/-- A response that closes the job is the last that is read. -/
theorem Classified.of_closes {response : Response} {rest : List Response}
    (closes : Reaction.ofResponse response = .close outcome) :
    Classified status (response :: rest) [] outcome rest := by
  cases response with
  | finished result => cases closes; exact .finished
  | error message => cases closes; exact .error
  | pong => cases closes; exact .pong
  | bundling group => cases closes

end Stream

namespace Process

variable {process : Process}

/-- A response is read from the first frame of the output. -/
theorem found_of_response {response : Response} (said : process.read.1 = .response response) :
    ∃ rest, Frame.read .response process.output = .ok (response, rest) ∧
      process.read.2 = { process with output := rest } := by
  unfold read at said ⊢
  split
  · rename_i other rest found
    rw [found] at said
    cases said
    exact ⟨rest, found, rfl⟩
  · rename_i fault cut
    rw [cut] at said
    dsimp only at said
    split at said <;> cases said

/-- Nothing can be read when the output is at fault, for good. -/
theorem fault_of_failed {failure : Failure} (lost : process.read.1 = .failed failure) :
    ∃ fault, Frame.read .response process.output = .error fault ∧
      (isMendable fault = true → process.isAlive = false) := by
  unfold read at lost
  split at lost
  · cases lost
  · rename_i fault cut
    refine ⟨fault, cut, fun mendable => ?_⟩
    by_contra alive
    rw [if_pos (by simp [mendable, alive])] at lost
    cases lost

/-- More is waited for while the output is cut short. -/
theorem fault_of_pending (silent : process.read.1 = .pending) :
    ∃ fault, Frame.read .response process.output = .error fault := by
  unfold read at silent
  split at silent
  · cases silent
  · exact ⟨_, ‹_›⟩

end Process

namespace Launch

open KillSwitch (Op)

/-! ## What is written and what is noted -/

/-- The bytes that a worker writes by what it does. -/
def Doing.written : Doing → List UInt8
  | say response => Frame.write .response response
  | spill bytes => bytes
  | _ => []

/-- The bytes that are written with a move. -/
def Move.written : Move → List UInt8
  | worker doing => doing.written
  | _ => []

/-- The groups that the thread stores in the kill switch with a move. -/
def noted (launch : Launch) : Move → List UInt32
  | .thread => (launch.pending.head?.map Op.stored).getD []
  | _ => []

/-- The groups that the thread stores in the kill switch with a sequence of moves, in order. -/
def notedOf (launch : Launch) : List Move → List UInt32
  | [] => []
  | move :: moves =>
    launch.noted move ++
      match launch.step move with
      | some next => next.notedOf moves
      | none => []

/-- A worker that does something writes its bytes after the others, and is as it was. -/
theorem Doing.apply_eq {process after : Process} {doing : Doing}
    (applied : doing.apply process = some after) :
    after.output = process.output ++ doing.written ∧ after.isCondemned = process.isCondemned := by
  cases doing <;> simp only [Doing.apply] at applied
  case listen => split at applied <;> cases applied; simp [Doing.written]
  case die => split at applied <;> cases applied; simp [Doing.written, Process.exit]
  all_goals
    cases applied
    simp [Doing.written, Process.write, Process.stopListening, Process.exit]

/-! ## The invariant -/

/-- What the thread made of a stream so far, by its stage. -/
inductive Heeds (bytes : List UInt8) (groups : List UInt32) (handle : Handle) : Stage → Prop
  | reading (kept : handle.isKilled = false) (leads : Leads bytes groups handle.process.output) :
      Heeds bytes groups handle .reading
  /-- The stream is at fault, for good. -/
  | waiting {rest : List UInt8} {fault : Frame.Fault} (leads : Leads bytes groups rest)
      (cut : Frame.read .response rest = .error fault)
      (final : Process.isMendable fault = true → handle.process.isAlive = false) :
      Heeds bytes groups handle .waiting
  | dismissing {outcome : Outcome}
      (concludes : Concludes bytes groups handle.process.output handle.process.ending outcome) :
      Heeds bytes groups handle (.dismissing outcome)
  | killing {outcome : Outcome}
      (concludes : Concludes bytes groups handle.process.output handle.process.ending outcome) :
      Heeds bytes groups handle (.killing outcome)
  | reaping {outcome : Outcome}
      (concludes : Concludes bytes groups handle.process.output handle.process.ending outcome)
      (doomed : handle.process.Doomed) :
      Heeds bytes groups handle (.reaping outcome)
  | done {outcome : Outcome}
      (concludes : Concludes bytes groups handle.process.output handle.process.ending outcome)
      (ended : handle.process.isAlive = false) :
      Heeds bytes groups handle (.done outcome)

/-- Whether the thread of a launch has made what it should of a stream: the groups that were reported
are noted or about to be noted. -/
structure Reads (bytes : List UInt8) (noted : List UInt32) (launch : Launch) : Prop where
  heeds : ∃ handle, launch.handle = some handle ∧
    Heeds bytes (noted ++ storedBy launch.pending) handle launch.stage
  busy : launch.pending ≠ [] → launch.stage = .reading

section Steps

variable {bytes : List UInt8} {groups noted : List UInt32} {launch next : Launch}
  {handle after : Handle} {stage later : Stage} {move : Move} {moves : List Move}

/-- Only the bytes that are left and the end of the process matter, once a signal was sent or not. -/
theorem Heeds.of_condemn (heeds : Heeds bytes groups handle stage) :
    Heeds bytes groups { handle with process := handle.process.condemn } stage := by
  cases heeds with
  | reading kept leads => exact .reading kept leads
  | waiting leads cut final => exact .waiting leads cut final
  | dismissing concludes => exact .dismissing concludes
  | killing concludes => exact .killing concludes
  | reaping concludes doomed => exact .reaping concludes fun _ => rfl
  | done concludes ended => exact .done concludes ended

/-- An operation on the switch does not matter. -/
theorem Heeds.afterOp (heeds : Heeds bytes groups handle stage) (op : Op) :
    Heeds bytes groups (handle.afterOp op) stage := by
  rcases handle.afterOp_eq op with same | same <;> rw [same]
  · exact heeds
  · exact heeds.of_condemn

/-- What a worker that runs writes is read later, or left unread. -/
theorem Heeds.of_doing {process : Process} {doing : Doing}
    (heeds : Heeds bytes groups handle stage) (alive : handle.process.isAlive = true)
    (applied : doing.apply handle.process = some process) :
    Heeds (bytes ++ doing.written) groups { handle with process } stage := by
  obtain ⟨output, condemned⟩ := Doing.apply_eq applied
  have concludes : ∀ {outcome},
      Concludes bytes groups handle.process.output handle.process.ending outcome →
      Concludes (bytes ++ doing.written) groups process.output process.ending outcome := by
    intro outcome concludes
    rw [output]
    cases concludes with
    | closed leads found closes =>
      exact .closed (leads.append _) (Frame.read_append found _) closes
    | lost _ _ ended => simp [Process.isAlive, ended] at alive
  cases heeds with
  | reading kept leads => exact .reading kept (output ▸ leads.append doing.written)
  | @waiting rest fault leads cut final =>
    have broken : Process.isMendable fault ≠ true := fun mendable => by
      rw [final mendable] at alive
      cases alive
    have cut := Frame.read_append_of_fault cut (by rintro rfl; exact broken rfl)
      (by rintro rfl; exact broken rfl) doing.written
    exact .waiting (leads.append doing.written) cut fun mendable => absurd mendable broken
  | dismissing before => exact .dismissing (concludes before)
  | killing before => exact .killing (concludes before)
  | reaping before doomed =>
    exact .reaping (concludes before) fun _ => condemned.trans (doomed alive)
  | done _ ended =>
    rw [ended] at alive
    cases alive

/-- The thread goes on with the worker. -/
theorem Heeds.advance {request : BuildRequest} (heeds : Heeds bytes groups handle stage)
    (advances : Advances request handle stage later after) : Heeds bytes groups after later := by
  cases advances with
  | greet | unheard | meet | stray | order | refuse => cases heeds
  | close said closes =>
    cases heeds with
    | reading kept leads =>
      rw [Handle.receive_eq kept] at said ⊢
      obtain ⟨rest, found, read⟩ := Process.found_of_response said
      rw [read]
      exact .dismissing (.closed leads found closes)
  | lose lost =>
    cases heeds with
    | reading kept leads =>
      rw [Handle.receive_eq kept] at lost ⊢
      obtain ⟨fault, cut, final⟩ := Process.fault_of_failed lost
      have same := (Handle.read_process handle.process).1
      exact .waiting leads cut fun mendable => by
        rw [Process.isAlive, same]
        exact final mendable
  | part ended =>
    cases heeds with
    | waiting leads cut => exact .dismissing (.lost leads cut ended)
  | dismiss =>
    cases heeds with
    | dismissing concludes =>
      obtain ⟨output, ending, -⟩ := @Handle.send_process handle .shutdown
      exact .killing (by rw [Handle.dismiss, output, ending]; exact concludes)
  | kill =>
    cases heeds with
    | killing concludes =>
      refine .reaping ?_ Handle.doomed_condemn
      unfold Handle.condemn
      split <;> exact concludes
  | reap ended =>
    cases heeds with
    | reaping concludes => exact .done concludes (by rw [Process.isAlive, ended]; rfl)

/-- Thread or timer uses the switch. -/
theorem Reads.use (reads : Reads bytes noted launch) (op : Op) {switch : KillSwitch}
    {pending timer : List Op} {more : List UInt32}
    (same : noted ++ storedBy launch.pending = more ++ storedBy pending)
    (busy : pending ≠ [] → launch.stage = .reading) :
    Reads bytes more
      { launch with
        handle := launch.handle.map fun handle => handle.afterOp op, switch, pending, timer } where
  heeds := by
    obtain ⟨handle, has, heeds⟩ := reads.heeds
    exact ⟨_, by simp only [has, Option.map_some], same ▸ heeds.afterOp op⟩
  busy := busy

/-- The thread takes a step. -/
theorem Reads.act (reads : Reads bytes noted launch) (acts : Acts launch next) :
    Reads bytes (noted ++ launch.noted .thread) next := by
  obtain ⟨handle, has, heeds⟩ := reads.heeds
  cases acts with
  | @use op ops pending =>
    have stores : launch.noted .thread = op.stored := by simp [Launch.noted, pending]
    have stage := reads.busy (by simp [pending])
    rw [useSwitch_cons, stores]
    refine reads.use op ?_ fun _ => stage
    rw [pending, List.append_assoc, stored_append_storedBy]
  | record idle stage =>
    rw [stage] at heeds
    cases heeds
  | @track other group idle has' stage said =>
    obtain rfl : handle = other := Option.some.inj (has.symm.trans has')
    have stores : launch.noted .thread = [] := by simp [Launch.noted, idle]
    rw [stage, idle, storedBy, List.flatMap_nil, List.append_nil] at heeds
    rw [stores, List.append_nil]
    cases heeds with
    | reading kept leads =>
      rw [Handle.receive_eq kept] at said ⊢
      obtain ⟨rest, found, read⟩ := Process.found_of_response said
      refine ⟨⟨_, rfl, ?_⟩, fun _ => stage⟩
      rw [read]
      exact stage ▸ .reading kept (leads.report found)
  | @advance other after later idle has' advances =>
    obtain rfl : handle = other := Option.some.inj (has.symm.trans has')
    have stores : launch.noted .thread = [] := by simp [Launch.noted, idle]
    rw [stores, List.append_nil]
    exact ⟨⟨after, rfl, heeds.advance advances⟩, fun busy => absurd idle busy⟩

/-- Every move of a launch is accounted for. -/
theorem Reads.step (reads : Reads bytes noted launch) (moved : launch.step move = some next) :
    Reads (bytes ++ move.written) (noted ++ launch.noted move) next := by
  obtain ⟨handle, has, heeds⟩ := reads.heeds
  cases move with
  | thread => simpa only [Move.written, List.append_nil] using reads.act (acts_of_threadStep moved)
  | timer =>
    obtain ⟨op, ops, -, rfl⟩ := of_timerStep moved
    rw [useSwitch_cons]
    simp only [Move.written, Launch.noted, List.append_nil]
    exact reads.use op rfl reads.busy
  | start cause =>
    change (if launch.stage = .starting then some (launch.start cause) else none) = some next at moved
    split at moved
    · rename_i stage
      rw [stage] at heeds
      cases heeds
    · cases moved
  | expire =>
    simp only [Move.written, Launch.noted, List.append_nil]
    change launch.expire = some next at moved
    unfold Launch.expire at moved
    split at moved <;> cases moved
    exact ⟨⟨handle, has, heeds⟩, reads.busy⟩
  | join =>
    simp only [Move.written, Launch.noted, List.append_nil]
    change launch.join = some next at moved
    unfold Launch.join at moved
    split at moved <;> cases moved
    exact ⟨⟨handle, has, heeds⟩, reads.busy⟩
  | worker doing =>
    simp only [Move.written, Launch.noted, List.append_nil]
    obtain ⟨other, has', moved⟩ := Option.bind_eq_some_iff.mp moved
    obtain rfl : handle = other := Option.some.inj (has.symm.trans has')
    split at moved
    · rename_i alive
      obtain ⟨process, applied, rfl⟩ := Option.map_eq_some_iff.mp moved
      exact ⟨⟨_, rfl, heeds.of_doing alive applied⟩, reads.busy⟩
    · cases moved
  | endGroup group =>
    simp only [Move.written, Launch.noted, List.append_nil]
    cases moved
    exact ⟨⟨handle, has, heeds⟩, reads.busy⟩

/-- Every run of a launch is accounted for. -/
theorem Reads.run (reads : Reads bytes noted launch) (ran : launch.run moves = some next) :
    Reads (bytes ++ moves.flatMap Move.written) (noted ++ launch.notedOf moves) next := by
  induction moves generalizing bytes noted launch with
  | nil =>
    cases ran
    simpa [notedOf] using reads
  | cons move moves ih =>
    obtain ⟨after, moved, ran⟩ := Option.bind_eq_some_iff.mp ran
    rw [notedOf, moved, List.flatMap_cons, ← List.append_assoc, ← List.append_assoc]
    exact ih (reads.step moved) ran

/-- A thread that is done came to its outcome by the stream, and the worker has ended. -/
theorem Reads.done {outcome : Outcome} (reads : Reads bytes noted launch)
    (done : launch.stage = .done outcome) :
    ∃ handle status rest, launch.handle = some handle ∧ handle.process.ending = some status ∧
      Classified status (readAll .response bytes).1 noted outcome rest ∧
      ((∀ status, outcome ≠ .exited status) →
        handle.process.output <:+ bytes ∧ (readAll .response handle.process.output).1 = rest) := by
  obtain ⟨handle, has, heeds⟩ := reads.heeds
  have idle : launch.pending = [] := by
    by_contra busy
    rw [reads.busy busy] at done
    cases done
  rw [done, idle, storedBy, List.flatMap_nil, List.append_nil] at heeds
  cases heeds with
  | done concludes ended =>
    obtain ⟨status, ending⟩ : ∃ status, handle.process.ending = some status := by
      simpa [Process.isAlive, Option.isNone_iff_eq_none, ← Option.isSome_iff_exists,
        Option.isSome_iff_ne_none] using ended
    cases concludes with
    | @closed middle response outcome leads found closes =>
      refine ⟨handle, status, (readAll .response handle.process.output).1, has, ending, ?_, fun _ =>
        ⟨(Frame.isSuffix_of_read found).trans leads.isSuffix, rfl⟩⟩
      rw [leads.readAll_eq, Frame.readAll_of_read found]
      exact (Classified.of_closes closes).after_reports noted
    | @lost rest fault status leads cut same =>
      refine ⟨handle, status, [], has, same, ?_, fun other => absurd rfl (other status)⟩
      rw [leads.readAll_eq, Frame.readAll_of_fault cut]
      exact Classified.lost.after_reports noted

/-- What thread and timer do writes nothing. -/
theorem written_of_parents (parents : ∀ move ∈ moves, move = .thread ∨ move = .timer) :
    moves.flatMap Move.written = [] := by
  refine List.flatMap_eq_nil_iff.mpr fun move member => ?_
  rcases parents move member with rfl | rfl <;> rfl

/-- A launch that reads comes to its outcome by what is forced, once a response closed the job or the
worker has ended. -/
theorem Reads.exists_done (reads : Reads bytes noted launch)
    (final : (∃ message ∈ (readAll .response bytes).1, ∀ group, message ≠ .bundling group) ∨
      ∃ handle, launch.handle = some handle ∧ handle.process.isAlive = false) :
    ∃ moves : List Move, (∀ move ∈ moves, move.IsForced) ∧
      ∃ last outcome, launch.run moves = some last ∧ last.stage = .done outcome := by
  obtain ⟨moves, parents, rest, ran, thread, -⟩ := exists_rest launch
  obtain ⟨handle, has, -⟩ := reads.heeds
  obtain ⟨⟨after, owned, same⟩, -⟩ := Overdue.parents_run has parents ran
  have forced := Overdue.forced_of_parents parents
  obtain ⟨⟨other, owned', heeds⟩, -⟩ := reads.run ran
  obtain rfl : after = other := Option.some.inj (owned.symm.trans owned')
  rw [written_of_parents parents, List.append_nil] at heeds
  -- With nothing but reports to read, the worker has ended.
  have gone : ∀ {groups : List UInt32} {middle : List UInt8} {fault : Frame.Fault},
      Leads bytes groups middle → Frame.read .response middle = .error fault →
      after.process.isAlive = false := by
    intro groups middle fault leads cut
    rcases final with ⟨message, said, closing⟩ | ⟨first, had, ended⟩
    · rw [leads.readAll_eq, Frame.readAll_of_fault cut, List.append_nil] at said
      obtain ⟨group, -, rfl⟩ := List.mem_map.mp said
      exact absurd rfl (closing group)
    · obtain rfl : handle = first := Option.some.inj (has.symm.trans had)
      rw [same, ended]
  obtain ⟨idle, rests⟩ := rests_of_threadStep owned thread
  cases rests with
  | starting stage =>
    rw [stage] at heeds
    cases heeds
  | hearing stage silent =>
    rcases stage with stage | stage <;> rw [stage] at heeds
    · cases heeds
    cases heeds with
    | reading kept leads =>
      rw [Handle.receive_eq kept] at silent
      obtain ⟨fault, cut⟩ := Process.fault_of_pending silent
      have alive := Process.isAlive_of_pending silent
      rw [gone leads cut] at alive
      cases alive
  | ending stage alive =>
    rcases stage with stage | ⟨outcome, stage⟩ <;> rw [stage] at heeds
    · cases heeds with
      | waiting leads cut =>
        rw [gone leads cut] at alive
        cases alive
    cases heeds with
    | reaping concludes doomed =>
      -- The worker is killed, and the thread goes on.
      have condemned := doomed alive
      have reaped : rest.run [.worker .die, .thread] = some
          { rest with
            handle := some { after with process := after.process.exit none }
            events := rest.events ++ [.exited none]
            stage := .done outcome } := by
        simp [Launch.run, Launch.step, workerStep, owned, alive, Doing.apply, condemned, Doing.events,
          threadStep, idle, Launch.advance, stage, reap, Process.exit]
      have killed : ∀ move ∈ [Move.worker .die, .thread], move.IsForced := by
        simp [Move.IsForced.die, Move.IsForced.thread]
      exact ⟨moves ++ [.worker .die, .thread], List.forall_mem_append.mpr ⟨forced, killed⟩, _, outcome,
        by rw [run_append, ran, Option.bind_some, reaped], rfl⟩
  | @done outcome stage => exact ⟨moves, forced, rest, outcome, ran, stage⟩

end Steps

/-! ## Launches that read -/

/-- The stream that a worker writes decides what a launch that waits for it makes of it, however its
bytes, the steps of thread and timer and the end of the worker follow each other. The bundlers that are
reported first are noted, once each and in order. The first other response closes the job, and what
follows it is left unread; without one, the job is closed by the end of the worker. The worker has ended
whenever the thread is done, and the thread can go on to that as soon as a response closed the job or the
worker ended. -/
theorem responses_classified (launch last : Launch) (handle : Handle) (moves : List Move)
    (messages : List Response) (reading : launch.stage = .reading) (idle : launch.pending = [])
    (has : launch.handle = some handle) (kept : handle.isKilled = false)
    (ran : launch.run moves = some last)
    (said : (readAll .response (handle.process.output ++ moves.flatMap Move.written)).1 = messages) :
    (∀ outcome, last.stage = .done outcome → ∃ after status rest,
      last.handle = some after ∧ after.process.ending = some status ∧
      Classified status messages (launch.notedOf moves) outcome rest ∧
      ((∀ status, outcome ≠ .exited status) →
        after.process.output <:+ handle.process.output ++ moves.flatMap Move.written ∧
        (readAll .response after.process.output).1 = rest)) ∧
    ((∃ message ∈ messages, ∀ group, message ≠ .bundling group) ∨
        (∃ after, last.handle = some after ∧ after.process.isAlive = false) →
      ∃ more : List Move, (∀ move ∈ more, move.IsForced) ∧
        ∃ final outcome, last.run more = some final ∧ final.stage = .done outcome) := by
  have begun : Reads handle.process.output [] launch := by
    refine ⟨⟨handle, has, ?_⟩, fun _ => reading⟩
    rw [idle, reading]
    exact .reading kept .nothing
  have reads := begun.run ran
  rw [List.nil_append] at reads
  subst said
  exact ⟨fun outcome done => reads.done done, reads.exists_done⟩

/-- The worker reports two bundlers and refuses the job, and says more that nobody reads. -/
def refusedMessages : List Response := [.bundling 7, .bundling 8, .error "no template", .pong]

/-- The worker says all of it at once and is killed after the thread has read what closes the job. -/
def refusedRun : List Move :=
  refusedMessages.map (fun message => .worker (.say message)) ++ List.replicate 9 .thread ++
    [.worker .die, .thread]

/-- What follows the refusal of a job is left unread. -/
theorem responses_classified_refused :
    ∃ launch last after status, plainLaunch.run (reported.take 7) = some launch ∧
      launch.run refusedRun = some last ∧ last.stage = .done (.failed "no template") ∧
      last.handle = some after ∧ after.process.ending = some status ∧
      Classified status refusedMessages [7, 8] (.failed "no template") [.pong] ∧
      (readAll .response after.process.output).1 = [.pong] := by
  have started : (plainLaunch.run (reported.take 7)).map (fun launch =>
      (launch.stage, launch.pending, launch.handle.map fun handle =>
        (handle.isKilled, handle.process.output))) = some (.reading, [], some (false, [])) := by
    decide +kernel
  obtain ⟨launch, began, same⟩ := Option.map_eq_some_iff.mp started
  obtain ⟨reading, same⟩ := Prod.mk.inj same
  obtain ⟨idle, same⟩ := Prod.mk.inj same
  obtain ⟨handle, has, same⟩ := Option.map_eq_some_iff.mp same
  obtain ⟨kept, empty⟩ := Prod.mk.inj same
  have ended : ((plainLaunch.run (reported.take 7)).bind fun launch =>
      (launch.run refusedRun).map fun last => (last.stage, launch.notedOf refusedRun)) =
      some (.done (.failed "no template"), [7, 8]) := by
    decide +kernel
  rw [began, Option.bind_some] at ended
  obtain ⟨last, ran, same⟩ := Option.map_eq_some_iff.mp ended
  obtain ⟨done, noted⟩ := Prod.mk.inj same
  have said : (readAll .response (handle.process.output ++ refusedRun.flatMap Move.written)).1 =
      refusedMessages := by
    have short : ∀ message ∈ refusedMessages,
        (Frame.Layout.response.encode message).length ≤ Frame.maxBody := by
      decide +kernel
    rw [empty]
    exact congrArg Prod.fst (Frame.readAll_stream Frame.Layout.response_lawful short)
  obtain ⟨classified, -⟩ :=
    responses_classified launch last handle refusedRun refusedMessages reading idle has kept ran said
  obtain ⟨after, status, rest, owned, ending, made, left⟩ := classified _ done
  obtain ⟨-, unread⟩ := left (by simp)
  rw [noted] at made
  obtain rfl : rest = [.pong] := by
    cases made with
    | bundling made =>
      cases made with
      | bundling made =>
        cases made
        rfl
  exact ⟨launch, last, after, status, began, ran, done, owned, ending, made, unread⟩

end Launch

end PageBuild.Worker
