import PageBuild.Proofs.Pool.Order

/-!
# The capacity of a pool

The count of taken slots is kept by hand: raised by the search that takes a job, lowered by the
thread that gives its slot up, each under its own hold of the lock. Here it is compared with the
jobs that hold a slot (`seated`), whose number it always is, and with the number of slots.
-/
namespace PageBuild.Pool

variable {capacity : Nat} {pool : Pool}

/-- The number of slots never changes, and is one at least. -/
theorem capacity_eq (reached : Reached capacity pool) : pool.capacity = max capacity 1 := by
  induction reached with
  | fresh => rfl
  | step reached stepped fixed => cases change_of_step stepped <;> exact fixed

/-- No slot is taken beyond those that there are. -/
theorem running_le_capacity (reached : Reached capacity pool) : pool.running ≤ pool.capacity := by
  induction reached with
  | fresh => exact Nat.zero_le _
  | @step pool next move reached stepped bound =>
    cases change_of_step stepped with
    | seat place room first => exact room
    | release => exact Nat.le_trans (Nat.sub_le _ _) bound
    | _ => exact bound

/-- The count of taken slots is the number of the jobs that hold one. -/
theorem running_eq_length_seated (reached : Reached capacity pool) :
    pool.running = pool.seated.length := by
  induction reached with
  | fresh => rfl
  | @step pool next move reached stepped counted =>
    unfold seated at counted ⊢
    cases change_of_step stepped with
    | refuse => simpa [record] using counted
    | accept => simpa [record, filterMap_cons_toList, Scheduler.held?] using counted
    | stop place | leave place | answer place =>
      simpa [record, place, filterMap_cons_toList, Scheduler.held?] using counted
    | seat place | spawn place =>
      simp [record, place, filterMap_cons_toList, Scheduler.held?] at counted ⊢
      omega
    | turn place => simpa [record, place] using counted
    | release place =>
      simp [record, place, filterMap_cons_toList, Scheduler.held?] at counted ⊢
      omega

/-- Only a job that holds a slot gives one up, and the count is lowered by one, or stays when it
is zero. -/
theorem running_of_release {index : Nat} {next : Pool}
    (stepped : pool.step (.release index) = some next) :
    pool.tasks ≠ [] ∧ next.running = pool.running - 1 := by
  obtain ⟨⟨ticket, stage⟩, found, stepped⟩ := Option.bind_eq_some_iff.mp stepped
  refine ⟨List.ne_nil_of_mem (List.mem_of_getElem? found), ?_⟩
  cases stage with
  | waiting | running => cases stepped
  | ended outcome =>
    cases stepped
    rfl
  | unwinding replied =>
    cases replied <;> cases stepped
    rfl

/-- The count of taken slots never exceeds the capacity, and is the number of the jobs that hold a
slot, each of them once; so a job that gives up its slot lowers the count by one. Looking at the
load shows these numbers and is no step. -/
theorem running_counts_seated (reached : Reached capacity pool) :
    pool.running ≤ max capacity 1 ∧
      pool.running = pool.seated.length ∧
      (pool.seated.map Ticket.number).Nodup ∧
      pool.health = ⟨pool.seated.length, pool.queue.length, max capacity 1⟩ ∧
      ∀ index next, pool.step (.release index) = some next →
        1 ≤ pool.running ∧ next.running + 1 = pool.running := by
  have bound := running_le_capacity reached
  have fixed := capacity_eq reached
  have counted := running_eq_length_seated reached
  refine ⟨fixed ▸ bound, counted, seated_nodup reached, ?_, fun index next stepped => ?_⟩
  · simp only [health, counted, fixed]
  · obtain ⟨busy, lowered⟩ := running_of_release stepped
    have taken : 1 ≤ pool.running := by
      have := List.length_pos_iff.mpr busy
      simp only [counted, seated, List.length_append, List.length_map]
      omega
    exact ⟨taken, by omega⟩

/-- Of two jobs for one slot the aborted one holds it while the other waits. -/
theorem running_counts_seated_contest :
    ∃ pool, (ofCapacity 1).run contest = some pool ∧ pool.health = ⟨1, 1, 1⟩ ∧
      pool.running ≤ max 1 1 ∧ pool.running = pool.seated.length ∧
      ∀ next, pool.step (.release 0) = some next → next.running + 1 = pool.running := by
  have ran : (ofCapacity 1).run contest = some _ := rfl
  obtain ⟨bound, counted, _, _, lowered⟩ := running_counts_seated (reached_iff_run.mpr ⟨_, ran⟩)
  exact ⟨_, ran, rfl, bound, counted, fun next stepped => (lowered 0 next stepped).2⟩

end PageBuild.Pool
