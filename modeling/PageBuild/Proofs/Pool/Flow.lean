import PageBuild.Pool.Rest
import PageBuild.Proofs.Pool.Change

/-!
# Flows through a pool

Jobs and answers pass through a pool: some events bring one in, others take it out, and in between
a thread carries it. A `Flow` names the events and the carriers and has to balance in each change
by itself; `Flow.conserved` then says of every pool reached that what came in is what is carried
and what went out, each as often. Four flows follow: of slots, of jobs up to their launch, of jobs
up to the end of their worker, and of answers.
-/
namespace PageBuild.Pool

/-- The picture of a list is the picture of its head and the picture of its tail. -/
theorem filterMap_cons_toList {α β : Type} (f : α → Option β) (head : α) (tail : List α) :
    (head :: tail).filterMap f = (f head).toList ++ tail.filterMap f := by
  cases found : f head <;> simp [found]

/-- Things that pass through a pool, with the balance of each change. -/
structure Flow (α : Type) where
  /-- What a thread that searches the queue carries. -/
  held? : Scheduler → Option α
  /-- What the thread of a job carries. -/
  kept? : Task → Option α
  /-- What an event brings in. -/
  into? : Event → Option α
  /-- What an event takes out. -/
  out? : Event → Option α
  refuse : ∀ number failure,
    (into? (.refused number failure)).toList.Perm (out? (.refused number failure)).toList := by
      intros; exact .refl _
  accept : ∀ ticket,
    (into? (.accepted ticket)).toList.Perm
      ((held? ⟨.looking, none⟩).toList ++ (out? (.accepted ticket)).toList) := by
        intros; exact .refl _
  stop : ∀ reply, (held? ⟨.looking, reply⟩).toList.Perm (held? ⟨.over, reply⟩).toList := by
    intros; exact .refl _
  seat : ∀ ticket reply,
    ((held? ⟨.looking, reply⟩).toList ++ (into? (.admitted ticket)).toList).Perm
      ((held? ⟨.holding ticket, reply⟩).toList ++ (out? (.admitted ticket)).toList) := by
        intros; exact .refl _
  spawn : ∀ ticket reply,
    (held? ⟨.holding ticket, reply⟩).toList.Perm
      ((kept? ⟨ticket, .waiting⟩).toList ++ (held? ⟨.looking, reply⟩).toList) := by
        intros; exact .refl _
  leave : (held? ⟨.over, none⟩).toList.Perm [] := by
    intros; exact .refl _
  answer : ∀ reply : Reply,
    ((into? (.settled reply.number reply.verdict)).toList ++
        (held? ⟨.over, some reply⟩).toList).Perm
      (out? (.settled reply.number reply.verdict)).toList := by
        intros; exact .refl _
  turn : ∀ ticket before event after, Turn ticket before event after →
    ((into? event).toList ++ (kept? ⟨ticket, before⟩).toList).Perm
      ((kept? ⟨ticket, after⟩).toList ++ (out? event).toList) := by
        rintro _ _ _ _ ⟨⟩ <;> exact .refl _
  release : ∀ ticket stage reply, Due ticket stage reply →
    ((into? (.released ticket)).toList ++ (kept? ⟨ticket, stage⟩).toList).Perm
      ((held? ⟨.looking, reply⟩).toList ++ (out? (.released ticket)).toList) := by
        rintro _ _ _ ⟨⟩ <;> exact .refl _

namespace Flow

variable {α : Type}

/-- What has come in, in order. -/
def entered (flow : Flow α) (pool : Pool) : List α := pool.events.filterMap flow.into?

/-- What is carried. -/
def carried (flow : Flow α) (pool : Pool) : List α :=
  pool.schedulers.filterMap flow.held? ++ pool.tasks.filterMap flow.kept?

/-- What has gone out, in order. -/
def gone (flow : Flow α) (pool : Pool) : List α := pool.events.filterMap flow.out?

/-- A change keeps the balance of a flow. -/
theorem balanced_of_change [DecidableEq α] (flow : Flow α) {pool next : Pool}
    (change : Change pool next) {thing : α}
    (balanced : (flow.entered pool).count thing =
      (flow.carried pool).count thing + (flow.gone pool).count thing) :
    (flow.entered next).count thing =
      (flow.carried next).count thing + (flow.gone next).count thing := by
  cases change with
  | @refuse job failure flawed =>
    have law := (flow.refuse pool.submissions failure).count_eq thing
    simp [entered, carried, gone, record, filterMap_cons_toList] at balanced law ⊢
    omega
  | @accept job sound =>
    have law := (flow.accept ⟨pool.submissions, job⟩).count_eq thing
    simp [entered, carried, gone, record, filterMap_cons_toList] at balanced law ⊢
    omega
  | @stop front back reply place idle =>
    have law := (flow.stop reply).count_eq thing
    simp [entered, carried, gone, place, filterMap_cons_toList] at balanced law ⊢
    omega
  | @seat front back reply ticket queue place room first =>
    have law := (flow.seat ticket reply).count_eq thing
    simp [entered, carried, gone, record, place, filterMap_cons_toList] at balanced law ⊢
    omega
  | @spawn front back reply ticket place =>
    have law := (flow.spawn ticket reply).count_eq thing
    simp [entered, carried, gone, place, filterMap_cons_toList] at balanced law ⊢
    omega
  | @leave front back place =>
    have law := flow.leave.count_eq thing
    simp [entered, carried, gone, place, filterMap_cons_toList] at balanced law ⊢
    omega
  | @answer front back reply place =>
    have law := (flow.answer reply).count_eq thing
    simp [entered, carried, gone, record, place, filterMap_cons_toList] at balanced law ⊢
    omega
  | @turn front back ticket before after event place turned =>
    have law := (flow.turn ticket before event after turned).count_eq thing
    simp [entered, carried, gone, record, place, filterMap_cons_toList] at balanced law ⊢
    omega
  | @release front back ticket stage reply place due =>
    have law := (flow.release ticket stage reply due).count_eq thing
    simp [entered, carried, gone, record, place, filterMap_cons_toList] at balanced law ⊢
    omega

/-- What came in is carried or has gone out. -/
theorem conserved (flow : Flow α) {capacity : Nat} {pool : Pool}
    (reached : Reached capacity pool) :
    (flow.entered pool).Perm (flow.carried pool ++ flow.gone pool) := by
  classical
  -- Threads move about in their lists, so the parts are compared count by count.
  simp only [List.perm_iff_count, List.count_append]
  intro thing
  induction reached with
  | fresh => rfl
  | step reached stepped balanced => exact flow.balanced_of_change (change_of_step stepped) balanced

end Flow

/-! ## What is on its way through a pool -/

/-- The job that a thread took out of the queue and made no thread for. -/
def Scheduler.held? (scheduler : Scheduler) : Option Ticket :=
  match scheduler.search with
  | .holding ticket => some ticket
  | _ => none

/-- A job whose worker is still to be started. -/
def Task.unstarted? (task : Task) : Option Ticket :=
  match task.stage with
  | .waiting => some task.ticket
  | _ => none

/-- A job whose worker runs. -/
def Task.running? (task : Task) : Option Ticket :=
  match task.stage with
  | .running => some task.ticket
  | _ => none

/-- The answer that the thread of a job has to give, or that is lost with it. -/
def Task.due? (task : Task) : Option Reply :=
  match task.stage with
  | .ended outcome => some ⟨task.ticket.number, (Ending.reported outcome).verdict⟩
  | .unwinding false => some ⟨task.ticket.number, Ending.aborted.verdict⟩
  | _ => none

/-- The jobs that hold a slot: those whose thread is still to be made, and those with a thread. -/
def seated (pool : Pool) : List Ticket :=
  pool.schedulers.filterMap Scheduler.held? ++ pool.tasks.map Task.ticket

/-- The jobs that hold a slot and were not launched. -/
def unstarted (pool : Pool) : List Ticket :=
  pool.schedulers.filterMap Scheduler.held? ++ pool.tasks.filterMap Task.unstarted?

/-- The jobs whose worker runs. -/
def atWork (pool : Pool) : List Ticket := pool.tasks.filterMap Task.running?

/-- The answers that are settled by the end of a job and not given. -/
def due (pool : Pool) : List Reply :=
  pool.schedulers.filterMap Scheduler.reply ++ pool.tasks.filterMap Task.due?

/-! ## What has happened in a pool -/

/-- The submissions that were accepted, in order. -/
def accepted (pool : Pool) : List Ticket :=
  pool.events.filterMap fun
    | .accepted ticket => some ticket
    | _ => none

/-- The jobs that were given a slot, in order. -/
def admitted (pool : Pool) : List Ticket :=
  pool.events.filterMap fun
    | .admitted ticket => some ticket
    | _ => none

/-- The ends of jobs, in order. -/
def endings (pool : Pool) : List (Ticket × Ending) :=
  pool.events.filterMap fun
    | .ended ticket ending => some (ticket, ending)
    | _ => none

/-- The jobs whose slot was given up, in order. -/
def released (pool : Pool) : List Ticket :=
  pool.events.filterMap fun
    | .released ticket => some ticket
    | _ => none

/-- The answers given to accepted submissions, in order. -/
def settled (pool : Pool) : List Reply :=
  pool.events.filterMap fun
    | .settled number verdict => some ⟨number, verdict⟩
    | _ => none

/-! ## The four flows -/

/-- Slots go from the admission of a job to their release. -/
def Flow.slots : Flow Ticket where
  held? := Scheduler.held?
  kept? task := some task.ticket
  into?
    | .admitted ticket => some ticket
    | _ => none
  out?
    | .released ticket => some ticket
    | _ => none

/-- Jobs go from their admission to their launch. -/
def Flow.starts : Flow Ticket where
  held? := Scheduler.held?
  kept? := Task.unstarted?
  into?
    | .admitted ticket => some ticket
    | _ => none
  out?
    | .launched ticket => some ticket
    | _ => none

/-- Jobs go from their launch to their end. -/
def Flow.runs : Flow Ticket where
  held? _ := none
  kept? := Task.running?
  into?
    | .launched ticket => some ticket
    | _ => none
  out?
    | .ended ticket _ => some ticket
    | _ => none

/-- Answers go from the end of a job to its submitter. -/
def Flow.answers : Flow Reply where
  held? := Scheduler.reply
  kept? := Task.due?
  into?
    | .ended ticket ending => some ⟨ticket.number, ending.verdict⟩
    | _ => none
  out?
    | .settled number verdict => some ⟨number, verdict⟩
    | _ => none

section Reached

variable {capacity : Nat} {pool : Pool}

/-- A job that was given a slot holds it or gave it up. -/
theorem admitted_perm_seated (reached : Reached capacity pool) :
    pool.admitted.Perm (pool.seated ++ pool.released) := by
  have balance := Flow.slots.conserved reached
  rwa [Flow.carried, show Flow.slots.kept? = some ∘ Task.ticket from rfl,
    List.filterMap_eq_map] at balance

/-- A job that was given a slot is still to be launched or was launched. -/
theorem admitted_perm_unstarted (reached : Reached capacity pool) :
    pool.admitted.Perm (pool.unstarted ++ pool.launches) :=
  Flow.starts.conserved reached

/-- A job that was launched runs or has ended. -/
theorem launches_perm_atWork (reached : Reached capacity pool) :
    pool.launches.Perm (pool.atWork ++ pool.endings.map Prod.fst) := by
  have balance := Flow.runs.conserved reached
  have idle : pool.schedulers.filterMap Flow.runs.held? = [] :=
    List.filterMap_eq_nil_iff.mpr fun _ _ => rfl
  have ended : pool.endings.map Prod.fst = Flow.runs.gone pool := by
    rw [endings, Flow.gone, List.map_filterMap]
    refine congrFun (congrArg List.filterMap (funext fun event => ?_)) _
    cases event <;> rfl
  rwa [Flow.carried, idle, List.nil_append, ← ended] at balance

/-- The verdict on the end of a job is due or was given. -/
theorem endings_perm_due (reached : Reached capacity pool) :
    (pool.endings.map fun (ticket, ending) => (⟨ticket.number, ending.verdict⟩ : Reply)).Perm
      (pool.due ++ pool.settled) := by
  have balance := Flow.answers.conserved reached
  have ended : (pool.endings.map fun (ticket, ending) =>
      (⟨ticket.number, ending.verdict⟩ : Reply)) = Flow.answers.entered pool := by
    rw [endings, Flow.entered, List.map_filterMap]
    refine congrFun (congrArg List.filterMap (funext fun event => ?_)) _
    cases event <;> rfl
  rwa [← ended] at balance

end Reached

end PageBuild.Pool
