import PageBuild.Proofs.Pool.Capacity

/-!
# No job is forgotten in the queue

A thread that put a job into the queue or gave up a slot lets go of the lock before it searches
the queue, and another thread may end its search on what it saw in between. Still, a job only
waits beside a free slot while some thread has a look to take that will find both.
-/
namespace PageBuild.Pool

variable {capacity : Nat} {pool : Pool}

/-- A thread that is going to look at the queue again is among the threads that search. -/
def HasSearch (pool : Pool) : Prop := ∃ scheduler ∈ pool.schedulers, scheduler.search ≠ .over

/-- A thread that ended its search is not the one that is going to look again. -/
theorem hasSearch_of_over {pool : Pool} {front back : List Scheduler} {reply : Option Reply}
    (place : pool.schedulers = front ++ ⟨.over, reply⟩ :: back) (searched : pool.HasSearch) :
    ∃ scheduler ∈ front ++ back, scheduler.search ≠ .over := by
  obtain ⟨scheduler, present, active⟩ := searched
  rw [place, List.mem_append, List.mem_cons] at present
  refine ⟨scheduler, ?_, active⟩
  rcases present with before | rfl | after
  · exact List.mem_append_left _ before
  · exact absurd rfl active
  · exact List.mem_append_right _ after

/-- While a job waits beside a free slot, some thread is going to look at the queue. -/
theorem hasSearch_of_waiting (reached : Reached capacity pool) (waiting : pool.queue ≠ [])
    (room : pool.running < pool.capacity) : pool.HasSearch := by
  induction reached with
  | fresh => exact absurd rfl waiting
  | @step pool next move reached stepped searched =>
    cases change_of_step stepped with
    | refuse => exact searched waiting room
    | accept => exact ⟨⟨.looking, none⟩, by simp [record], by simp⟩
    | stop place idle => exact absurd (idle room) waiting
    | @seat front back reply ticket => exact ⟨⟨.holding ticket, reply⟩, by simp [record], by simp⟩
    | @spawn front back reply => exact ⟨⟨.looking, reply⟩, by simp, by simp⟩
    | leave place => exact hasSearch_of_over place (searched waiting room)
    | answer place => exact hasSearch_of_over place (searched waiting room)
    | turn => exact searched waiting room
    | @release front back ticket stage reply =>
      exact ⟨⟨.looking, reply⟩, by simp [record], by simp⟩

/-- A look that finds a free slot and a waiting job takes both. -/
theorem look_takes_first {pool : Pool} {index : Nat} {reply : Option Reply} {ticket : Ticket}
    {queue : List Ticket} (found : pool.schedulers[index]? = some ⟨.looking, reply⟩)
    (first : pool.queue = ticket :: queue) (room : pool.running < pool.capacity) :
    ∃ next, pool.step (.look index) = some next ∧ next.queue = queue ∧
      next.schedulers[index]? = some ⟨.holding ticket, reply⟩ := by
  have inside : index < pool.schedulers.length := (List.getElem?_eq_some_iff.mp found).1
  refine ⟨pool.look index ⟨.looking, reply⟩, by simp [step, found, scheduleStep], ?_⟩
  simp [look, setSearch, record, Nat.not_le.mpr room, first, inside]

/-- A thread that is going to look again takes the first waiting job and a free slot for it, at
once or after making the thread of the job that it holds. -/
theorem search_takes_first {ticket : Ticket} {queue : List Ticket} (searched : pool.HasSearch)
    (first : pool.queue = ticket :: queue) (room : pool.running < pool.capacity) :
    ∃ index next, (pool.run [.look index] = some next ∨
        pool.run [.spawn index, .look index] = some next) ∧
      next.queue = queue ∧ ∃ reply, next.schedulers[index]? = some ⟨.holding ticket, reply⟩ := by
  obtain ⟨⟨search, reply⟩, present, active⟩ := searched
  obtain ⟨index, found⟩ := List.mem_iff_getElem?.mp present
  refine ⟨index, ?_⟩
  cases search with
  | looking =>
    obtain ⟨next, looked, rest, taken⟩ := look_takes_first found first room
    exact ⟨next, .inl (by simp [run, looked]), rest, reply, taken⟩
  | holding held =>
    have inside : index < pool.schedulers.length := (List.getElem?_eq_some_iff.mp found).1
    -- Making the thread of the job that is held frees the search for another look.
    have spawned : pool.step (.spawn index) =
        some (pool.spawn index ⟨.holding held, reply⟩ held) := by
      simp [step, found, scheduleStep]
    have looking : (pool.spawn index ⟨.holding held, reply⟩ held).schedulers[index]? =
        some ⟨.looking, reply⟩ := by
      simp [spawn, setSearch, inside]
    obtain ⟨next, looked, rest, taken⟩ := look_takes_first looking first room
    exact ⟨next, .inr (by simp [run, spawned, looked]), rest, reply, taken⟩
  | _ => exact absurd rfl active

/-- When no thread is in a search of the queue or on its way to one, no job waits or all slots are
taken; and whenever a job waits beside a free slot, some thread has a look left that takes both. -/
theorem queue_nil_or_full (reached : Reached capacity pool) :
    ((∀ scheduler ∈ pool.schedulers, scheduler.search = .over) →
        pool.queue = [] ∨ pool.running = max capacity 1) ∧
      ∀ ticket queue, pool.queue = ticket :: queue → pool.running < max capacity 1 →
        ∃ index next, (pool.run [.look index] = some next ∨
            pool.run [.spawn index, .look index] = some next) ∧
          next.queue = queue ∧
          ∃ reply, next.schedulers[index]? = some ⟨.holding ticket, reply⟩ := by
  have fixed := capacity_eq reached
  constructor
  · intro quiet
    have bound := running_le_capacity reached
    rcases Nat.lt_or_ge pool.running pool.capacity with room | full
    · refine .inl (Decidable.byContradiction fun waiting => ?_)
      obtain ⟨scheduler, present, active⟩ := hasSearch_of_waiting reached waiting room
      exact active (quiet scheduler present)
    · exact .inr (by omega)
  · intro ticket queue first room
    rw [← fixed] at room
    have waiting : pool.queue ≠ [] := by simp [first]
    exact search_takes_first (hasSearch_of_waiting reached waiting room) first room

/-- Of two jobs for one slot one waits, no thread searches, and the slot is taken. -/
theorem queue_nil_or_full_contest :
    ∃ pool, (ofCapacity 1).run contest = some pool ∧
      (∀ scheduler ∈ pool.schedulers, scheduler.search = .over) ∧ pool.queue ≠ [] ∧
      (pool.queue = [] ∨ pool.running = max 1 1) := by
  have ran : (ofCapacity 1).run contest = some _ := rfl
  have quiet := (queue_nil_or_full (reached_iff_run.mpr ⟨_, ran⟩)).1
  have done : ∀ scheduler ∈ ([⟨.over, none⟩, ⟨.over, none⟩] : List Scheduler),
      scheduler.search = .over := by simp
  exact ⟨_, ran, done, List.cons_ne_nil _ _, quiet done⟩

end PageBuild.Pool
