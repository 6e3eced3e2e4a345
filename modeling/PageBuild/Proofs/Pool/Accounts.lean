import PageBuild.Proofs.Pool.Order

/-!
# The account of all submissions

No submission is lost, none is run or answered twice, and none is answered with what became of
another (`Accounted`). Each part is one of the flows of a pool, read by the numbers of submissions.
-/
namespace PageBuild.Pool

/-- The submissions that were given a slot and are not answered: their job is to be launched, or
runs, or has ended. -/
def unsettled (pool : Pool) : List Nat :=
  (pool.unstarted ++ pool.atWork).map Ticket.number ++ pool.due.map Reply.number

/-- The account of what became of each submission. -/
structure Accounted (pool : Pool) : Prop where
  /-- Every submission is refused or accepted, in the order of their numbers. -/
  submitted_eq : pool.submitted = List.range pool.submissions
  /-- Accepted submissions have different numbers. -/
  accepted_once : (pool.accepted.map Ticket.number).Nodup
  /-- Accepted submissions wait, or have a slot and no answer, or have their answer. -/
  accepted_parts :
    (pool.accepted.map Ticket.number).Perm
      (pool.queue.map Ticket.number ++ pool.unsettled ++ pool.settled.map Reply.number)
  /-- Those that do not wait are those that were given a slot. -/
  admitted_parts :
    (pool.admitted.map Ticket.number).Perm (pool.unsettled ++ pool.settled.map Reply.number)
  /-- No submission is launched twice. -/
  launched_once : (pool.launches.map Ticket.number).Nodup
  /-- Only accepted submissions are launched, each with its own job. -/
  launched_accepted : ∀ ticket ∈ pool.launches, ticket ∈ pool.accepted
  /-- No submission ends twice. -/
  ended_once : (pool.endings.map fun (ticket, _) => ticket.number).Nodup
  /-- Only launched submissions end. -/
  ended_launched : ∀ ticket ending, (ticket, ending) ∈ pool.endings → ticket ∈ pool.launches
  /-- No submission is answered twice. -/
  settled_once : (pool.settled.map Reply.number).Nodup
  /-- An answer tells how the job of its own submission ended. -/
  settled_ended : ∀ reply ∈ pool.settled, ∃ ticket ending, (ticket, ending) ∈ pool.endings ∧
    reply.number = ticket.number ∧
    reply.verdict =
      match ending with
      | .reported (.completed result) => .ok result
      | .reported (.failed message) => .error (.workerFailed message)
      | .reported (.exited status) => .error (.workerCrashed status)
      | .aborted => .error (.workerCrashed none)

variable {capacity : Nat} {pool : Pool}

/-- The submissions whose job ended are those with an answer, due or given. -/
theorem endings_number_perm (reached : Reached capacity pool) :
    (pool.endings.map fun (ticket, _) => ticket.number).Perm
      (pool.due.map Reply.number ++ pool.settled.map Reply.number) := by
  have answered := (endings_perm_due reached).map Reply.number
  rwa [List.map_map, List.map_append] at answered

/-- The submissions that were given a slot are those without and those with an answer. -/
theorem admitted_number_perm (reached : Reached capacity pool) :
    (pool.admitted.map Ticket.number).Perm
      (pool.unsettled ++ pool.settled.map Reply.number) := by
  have started := (admitted_perm_unstarted reached).map Ticket.number
  have ran := (launches_perm_atWork reached).map Ticket.number
  rw [List.map_append] at started ran
  rw [List.map_map] at ran
  have ended := endings_number_perm reached
  calc
    (pool.admitted.map Ticket.number).Perm _ := started
    List.Perm _ (pool.unstarted.map Ticket.number ++ (pool.atWork.map Ticket.number ++
        (pool.due.map Reply.number ++ pool.settled.map Reply.number))) :=
      (ran.trans (ended.append_left _)).append_left _
    _ = pool.unsettled ++ pool.settled.map Reply.number := by
      simp only [unsettled, List.map_append, List.append_assoc]

/-- What a submitter is told, for each way in which a job ends. -/
theorem verdict_eq (ending : Ending) :
    ending.verdict =
      match ending with
      | .reported (.completed result) => .ok result
      | .reported (.failed message) => .error (.workerFailed message)
      | .reported (.exited status) => .error (.workerCrashed status)
      | .aborted => .error (.workerCrashed none) := by
  cases ending with
  | reported outcome => cases outcome <;> rfl
  | aborted => rfl

/-- An answer that was given is the verdict on the end of the job of its submission. -/
theorem exists_ending_of_settled (reached : Reached capacity pool) {reply : Reply}
    (settled : reply ∈ pool.settled) :
    ∃ ticket ending, (ticket, ending) ∈ pool.endings ∧ reply.number = ticket.number ∧
      reply.verdict = ending.verdict := by
  have given := (endings_perm_due reached).mem_iff.mpr (List.mem_append_right _ settled)
  obtain ⟨⟨ticket, ending⟩, ended, rfl⟩ := List.mem_map.mp given
  exact ⟨ticket, ending, ended, rfl, rfl⟩

/-- A job with a flaw is refused for it, and nothing else changes. -/
theorem step_submit_of_flawed (pool : Pool) {job : Job} {failure : Failure}
    (flawed : job.validate = .error failure) :
    (∃ flaw : JobFlaw, failure = .invalidJob flaw.message) ∧
      pool.step (.submit job) =
        some { pool with
          submissions := pool.submissions + 1,
          events := pool.events ++ [.refused pool.submissions failure] } := by
  constructor
  · unfold Job.validate at flawed
    split at flawed <;> cases flawed
    exact ⟨_, rfl⟩
  · simp [step, submit, flawed, record]

/-- In every pool reached all submissions are accounted for: they are parted into those that wait,
those that have a slot and no answer and those that have one, each is launched and answered once
at most, and an answer tells how the own job ended. A submission with a flaw is answered with that
flaw and changes neither the queue nor the count of taken slots. -/
theorem submissions_accounted (reached : Reached capacity pool) :
    pool.Accounted ∧
      ∀ job failure, job.validate = .error failure →
        (∃ flaw : JobFlaw, failure = .invalidJob flaw.message) ∧
          ∃ next, pool.step (.submit job) = some next ∧
            next.answers = pool.answers ++ [⟨pool.submissions, .error failure⟩] ∧
            next.queue = pool.queue ∧ next.running = pool.running ∧
            next.schedulers = pool.schedulers ∧ next.tasks = pool.tasks := by
  have admitted := admitted_number_perm reached
  have parts : (pool.accepted.map Ticket.number).Perm
      (pool.queue.map Ticket.number ++ pool.unsettled ++ pool.settled.map Reply.number) := by
    rw [accepted_eq_admitted_append_queue reached, List.map_append, List.append_assoc]
    exact List.perm_append_comm.trans (admitted.append_left _)
  have settledOnce : (pool.settled.map Reply.number).Nodup :=
    (List.sublist_append_right _ _).nodup (parts.nodup_iff.mp (accepted_nodup reached))
  constructor
  · exact
      { submitted_eq := submitted_eq_range reached
        accepted_once := accepted_nodup reached
        accepted_parts := parts
        admitted_parts := admitted
        launched_once := launches_nodup reached
        launched_accepted := fun _ launched => mem_accepted_of_mem_launches reached launched
        ended_once := endings_nodup reached
        ended_launched := fun _ _ ended => mem_launches_of_mem_endings reached ended
        settled_once := settledOnce
        settled_ended := fun reply settled => by
          obtain ⟨ticket, ending, ended, own, told⟩ := exists_ending_of_settled reached settled
          exact ⟨ticket, ending, ended, own, told.trans (verdict_eq ending)⟩ }
  · intro job failure flawed
    obtain ⟨reason, stepped⟩ := step_submit_of_flawed pool flawed
    exact ⟨reason, _, stepped, by simp [answers], rfl, rfl, rfl, rfl⟩

/-- Of two jobs for one slot the aborted one is answered, the other waits, and a third submission
without an identity is refused. -/
theorem submissions_accounted_contest :
    ∃ pool, (ofCapacity 1).run contest = some pool ∧ pool.Accounted ∧
      pool.settled.map Reply.number = [0] ∧ pool.queue.map Ticket.number = [1] ∧
      ∃ next, pool.step (.submit ⟨"{}", "", ⟨"t"⟩, .fat, false, none, none⟩) = some next ∧
        next.queue = pool.queue ∧ next.running = pool.running := by
  have ran : (ofCapacity 1).run contest = some _ := rfl
  obtain ⟨accounted, refused⟩ := submissions_accounted (reached_iff_run.mpr ⟨_, ran⟩)
  obtain ⟨_, next, stepped, _, queue, running, _⟩ :=
    refused ⟨"{}", "", ⟨"t"⟩, .fat, false, none, none⟩ (.invalidJob "buildId is required") rfl
  exact ⟨_, ran, accounted, rfl, rfl, next, stepped, queue, running⟩

end PageBuild.Pool
