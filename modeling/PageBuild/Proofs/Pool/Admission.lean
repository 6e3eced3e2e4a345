import PageBuild.Proofs.Pool.Order

/-!
# The order of admission

What is accepted is read off the moves of a run (`arrivals`), without the events that a pool keeps. A
step of any thread takes the first waiting job, or takes none and only lets a job join the queue
(`takes_or_keeps`); so jobs are given slots in the order in which they arrive, and the others wait in
it, whatever the threads do in between.
-/
namespace PageBuild.Pool

variable {capacity number : Nat} {pool next : Pool} {move : Move} {moves : List Move}

/-- The submissions among moves that are accepted, in order, when the first one has a number. -/
def arrivals (number : Nat) : List Move → List Ticket
  | [] => []
  | .submit job :: moves =>
    match job.validate with
    | .error _ => arrivals (number + 1) moves
    | .ok () => ⟨number, job⟩ :: arrivals (number + 1) moves
  | _ :: moves => arrivals number moves

/-- Whether a step takes a job from the head of the queue and a free slot for it. -/
structure Takes (pool next : Pool) (ticket : Ticket) : Prop where
  first : pool.queue = ticket :: next.queue
  room : pool.running < pool.capacity
  running_eq : next.running = pool.running + 1
  admitted_eq : next.admitted = pool.admitted ++ [ticket]

/-- Whether a step takes no job, and lets jobs join the queue at its end. -/
structure Keeps (pool next : Pool) (joined : List Ticket) : Prop where
  queue_eq : next.queue = pool.queue ++ joined
  running_le : next.running ≤ pool.running
  admitted_eq : next.admitted = pool.admitted

/-- A change that is no submission takes the first job or none. -/
theorem takes_or_keeps_of_change (change : Change pool next)
    (none : next.submissions = pool.submissions) :
    (∃ ticket, Takes pool next ticket) ∨ Keeps pool next [] := by
  cases change with
  | refuse | accept => simp [record] at none
  | @seat front back reply ticket queue place room first =>
    exact .inl ⟨ticket, first, room, rfl, by simp [record, admitted]⟩
  | stop | spawn | leave | answer =>
    exact .inr ⟨by simp [record], Nat.le_refl _, by simp [record, admitted]⟩
  | release => exact .inr ⟨by simp [record], Nat.sub_le _ _, by simp [record, admitted]⟩
  | turn place turned =>
    exact .inr ⟨by simp [record], Nat.le_refl _, by cases turned <;> simp [record, admitted]⟩

/-- A thread that searches the queue submits nothing. -/
theorem submissions_of_scheduleStep {index : Nat} {scheduler : Scheduler}
    (stepped : pool.scheduleStep index scheduler move = some next) :
    next.submissions = pool.submissions := by
  unfold scheduleStep at stepped
  split at stepped <;> cases stepped
  · unfold look
    split
    · rfl
    · split <;> rfl
  · rfl
  · unfold leave
    split <;> rfl

/-- The thread of a job submits nothing. -/
theorem submissions_of_taskStep {index : Nat} {task : Task}
    (stepped : pool.taskStep index task move = some next) :
    next.submissions = pool.submissions := by
  unfold taskStep at stepped
  split at stepped <;> cases stepped <;> rfl

/-- What a step does to the order of jobs, and how many submissions it counts. -/
theorem takes_or_keeps (stepped : pool.step move = some next) :
    ((∃ ticket, Takes pool next ticket) ∧ arrivals pool.submissions [move] = [] ∨
      Keeps pool next (arrivals pool.submissions [move])) ∧
    arrivals pool.submissions (move :: moves) =
      arrivals pool.submissions [move] ++ arrivals next.submissions moves := by
  have quiet : next.submissions = pool.submissions → arrivals pool.submissions [move] = [] →
      ((∃ ticket, Takes pool next ticket) ∧ arrivals pool.submissions [move] = [] ∨
        Keeps pool next (arrivals pool.submissions [move])) := by
    intro same none
    rw [none]
    exact (takes_or_keeps_of_change (change_of_step stepped) same).imp (fun takes => ⟨takes, rfl⟩) id
  cases move with
  | submit job =>
    cases stepped
    unfold submit
    cases sound : job.validate with
    | error failure =>
      refine ⟨.inr ⟨?_, Nat.le_refl _, ?_⟩, ?_⟩ <;> simp [arrivals, record, admitted, sound]
    | ok =>
      refine ⟨.inr ⟨?_, Nat.le_refl _, ?_⟩, ?_⟩ <;> simp [arrivals, record, admitted, sound]
  | look index | spawn index | leave index =>
    obtain ⟨scheduler, found, made⟩ := Option.bind_eq_some_iff.mp stepped
    have same := submissions_of_scheduleStep made
    exact ⟨quiet same rfl, by rw [same]; rfl⟩
  | launch index | finish index outcome | abort index | abandon index | release index =>
    obtain ⟨task, found, made⟩ := Option.bind_eq_some_iff.mp stepped
    have same := submissions_of_taskStep made
    exact ⟨quiet same rfl, by rw [same]; rfl⟩

/-- A run moves jobs from the queue to the admitted ones, behind which new ones join. -/
theorem order_of_run (ran : pool.run moves = some next) :
    next.admitted ++ next.queue =
      pool.admitted ++ pool.queue ++ arrivals pool.submissions moves := by
  induction moves generalizing pool with
  | nil =>
    cases ran
    exact (List.append_nil _).symm
  | cons move moves ih =>
    obtain ⟨middle, stepped, ran⟩ := Option.bind_eq_some_iff.mp ran
    obtain ⟨change, later⟩ := @takes_or_keeps _ _ _ moves stepped
    rw [ih ran, later]
    rcases change with ⟨⟨ticket, takes⟩, none⟩ | keeps
    · simp [takes.admitted_eq, takes.first, none]
    · simp [keeps.admitted_eq, keeps.queue_eq]

/-- At every moment of a run, the jobs that were given a slot are a first part of those accepted so
far, in the order of their submission, and the queue is the rest in that order. Whatever thread moves
next, it takes the first job of the queue and a slot, or takes none and lets an accepted job join at
the end. -/
theorem admitted_in_order (capacity : Nat) (moves : List Move) (pool : Pool)
    (ran : (ofCapacity capacity).run moves = some pool) :
    pool.accepted = arrivals 0 moves ∧
    pool.admitted ++ pool.queue = arrivals 0 moves ∧
    ∀ move next, pool.step move = some next →
      (∃ ticket, Takes pool next ticket) ∨ Keeps pool next (arrivals pool.submissions [move]) := by
  have order := order_of_run ran
  refine ⟨?_, order, fun move next stepped => ?_⟩
  · rw [accepted_eq_admitted_append_queue (reached_iff_run.mpr ⟨moves, ran⟩), order]
    rfl
  · exact (@takes_or_keeps _ _ _ [] stepped).1.imp (fun ⟨takes, _⟩ => takes) id

/-- Three submissions to one slot, of which the second has no identity. -/
def crowd : List Move :=
  [.submit ⟨"{}", "a", ⟨"t"⟩, .fat, false, none, none⟩,
    .submit ⟨"{}", "", ⟨"t"⟩, .fat, false, none, none⟩, .look 0,
    .submit ⟨"{}", "c", ⟨"t"⟩, .fat, false, none, none⟩, .look 1]

/-- The first of three has the slot, the second was refused and the third waits; the thread that was
late took none. -/
theorem admitted_in_order_crowd :
    ∃ pool, (ofCapacity 1).run crowd = some pool ∧
      pool.admitted.map Ticket.number = [0] ∧ pool.queue.map Ticket.number = [2] ∧
      pool.admitted ++ pool.queue = arrivals 0 crowd ∧
      ∀ next, pool.step (.spawn 0) = some next →
        (∃ ticket, Takes pool next ticket) ∨ Keeps pool next [] := by
  have ran : (ofCapacity 1).run crowd = some _ := rfl
  obtain ⟨_, order, later⟩ := admitted_in_order 1 crowd _ ran
  exact ⟨_, ran, rfl, rfl, order, fun next stepped => later _ next stepped⟩

end PageBuild.Pool
