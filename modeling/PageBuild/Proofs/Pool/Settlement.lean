import Mathlib.Data.List.Nodup
import PageBuild.Proofs.Pool.Accounts
import PageBuild.Proofs.Pool.Capacity

/-!
# Slots of settled jobs

A thread that ends with its worker gives up the slot first and answers after that, so whoever hears of
it finds the slot free. A thread that is aborted drops the reply before the slot: its submitter may
hear of the end while the job is still counted (`aborted_holds_slot`). No other job is counted once it
is settled, and the slot of this one is free after the next step of its thread.
-/
namespace PageBuild.Pool

variable {capacity : Nat} {pool next : Pool} {ticket : Ticket} {ending : Ending} {reply : Reply}

/-- Whether a job gave up its slot and is no longer counted. -/
structure Freed (pool : Pool) (ticket : Ticket) : Prop where
  released : ticket ∈ pool.released
  not_seated : ticket ∉ pool.seated

/-- Elements of two lists that together repeat no key have different keys. -/
theorem key_ne_of_nodup {α κ : Type} {key : α → κ} {xs ys : List α} {x y : α}
    (distinct : (xs.map key ++ ys.map key).Nodup) (first : x ∈ xs) (second : y ∈ ys) :
    key x ≠ key y :=
  (List.nodup_append.mp distinct).2.2 _ (List.mem_map_of_mem first) _ (List.mem_map_of_mem second)

/-! ## Where a job stands -/

/-- A job whose slot was given up is not counted. -/
theorem freed_of_released (reached : Reached capacity pool) (released : ticket ∈ pool.released) :
    pool.Freed ticket := by
  have distinct := ((admitted_perm_seated reached).map Ticket.number).nodup_iff.mp
    (admitted_nodup reached)
  rw [List.map_append] at distinct
  exact ⟨released, fun seated => key_ne_of_nodup distinct seated released rfl⟩

/-- A job that ended is not still to be launched. -/
theorem not_unstarted_of_ended (reached : Reached capacity pool)
    (ended : (ticket, ending) ∈ pool.endings) : ticket ∉ pool.unstarted := by
  have distinct := ((admitted_perm_unstarted reached).map Ticket.number).nodup_iff.mp
    (admitted_nodup reached)
  rw [List.map_append] at distinct
  exact fun unstarted =>
    key_ne_of_nodup distinct unstarted (mem_launches_of_mem_endings reached ended) rfl

/-- The worker of a job that ended does not run. -/
theorem not_atWork_of_ended (reached : Reached capacity pool)
    (ended : (ticket, ending) ∈ pool.endings) : ticket ∉ pool.atWork := by
  have distinct := ((launches_perm_atWork reached).map Ticket.number).nodup_iff.mp
    (launches_nodup reached)
  rw [List.map_append] at distinct
  exact fun working => key_ne_of_nodup distinct working (List.mem_map_of_mem ended) rfl

/-- An answer that was given is not due. -/
theorem number_ne_of_due (reached : Reached capacity pool) {other : Reply} (due : other ∈ pool.due)
    (settled : reply ∈ pool.settled) : other.number ≠ reply.number :=
  key_ne_of_nodup ((endings_number_perm reached).nodup_iff.mp (endings_nodup reached)) due settled

/-- A thread unwinds because it was aborted. -/
theorem aborted_of_unwinding (reached : Reached capacity pool) {replied : Bool}
    (unwinding : ⟨ticket, .unwinding replied⟩ ∈ pool.tasks) : (ticket, .aborted) ∈ pool.endings := by
  induction reached generalizing replied with
  | fresh => cases unwinding
  | @step pool next move reached stepped traced =>
    cases change_of_step stepped with
    | refuse | accept | seat | answer => simpa [endings, record] using traced unwinding
    | stop | leave => exact traced unwinding
    | spawn => exact traced (by simpa using unwinding)
    | @release front back other stage answer place due =>
      have before : ⟨ticket, .unwinding replied⟩ ∈ pool.tasks := by
        rw [place, List.mem_append, List.mem_cons]
        exact (List.mem_append.mp unwinding).imp id .inr
      simpa [endings, record] using traced before
    | @turn front back other before after event place turned =>
      have kept : ∀ {replied}, ⟨ticket, .unwinding replied⟩ ∈ pool.tasks →
          (ticket, .aborted) ∈ endings
            (record { pool with tasks := front ++ ⟨other, after⟩ :: back } event) := by
        intro replied unwinding
        have known := traced unwinding
        simp only [endings, record, List.filterMap_append, List.mem_append] at known ⊢
        exact .inl known
      rcases List.mem_append.mp unwinding with early | late
      · exact kept (by rw [place]; exact List.mem_append_left _ early)
      rcases List.mem_cons.mp late with moved | late
      · obtain ⟨rfl, rfl⟩ := Task.mk.inj moved
        cases turned with
        | abort => simp [endings, record]
        | abandon => exact @kept false (by rw [place]; simp)
      · exact kept (by rw [place]; exact List.mem_append_right _ (List.mem_cons_of_mem _ late))

/-- A settled job that holds a slot unwinds and has given up its reply. -/
theorem unwinding_of_settled (reached : Reached capacity pool) (settled : reply ∈ pool.settled)
    (ended : (ticket, ending) ∈ pool.endings) (own : reply.number = ticket.number)
    (seated : ticket ∈ pool.seated) : ⟨ticket, .unwinding true⟩ ∈ pool.tasks := by
  have unstarted := not_unstarted_of_ended reached ended
  have answered : ∀ verdict, ⟨ticket.number, verdict⟩ ∉ pool.due :=
    fun verdict due => number_ne_of_due reached due settled own.symm
  rcases List.mem_append.mp seated with held | threaded
  · exact absurd (List.mem_append_left _ held) unstarted
  obtain ⟨⟨_, stage⟩, task, rfl⟩ := List.mem_map.mp threaded
  cases stage with
  | waiting =>
    exact (unstarted (List.mem_append_right _ (List.mem_filterMap.mpr ⟨_, task, rfl⟩))).elim
  | running =>
    exact (not_atWork_of_ended reached ended (List.mem_filterMap.mpr ⟨_, task, rfl⟩)).elim
  | ended outcome =>
    exact (answered _ (List.mem_append_right _ (List.mem_filterMap.mpr ⟨_, task, rfl⟩))).elim
  | unwinding replied =>
    cases replied with
    | false =>
      exact (answered _ (List.mem_append_right _ (List.mem_filterMap.mpr ⟨_, task, rfl⟩))).elim
    | true => exact task

/-! ## What a settled job still holds -/

/-- The next step of a thread that gave up its reply gives up the slot. -/
theorem exists_release (reached : Reached capacity pool)
    (unwinding : ⟨ticket, .unwinding true⟩ ∈ pool.tasks) :
    ∃ index next, pool.tasks[index]? = some ⟨ticket, .unwinding true⟩ ∧
      pool.step (.release index) = some next ∧ next.Freed ticket ∧
      next.running + 1 = pool.running := by
  obtain ⟨index, found⟩ := List.mem_iff_getElem?.mp unwinding
  have stepped : pool.step (.release index) = some (pool.release index ⟨ticket, .unwinding true⟩ none) := by
    simp [step, found, taskStep]
  have released : ticket ∈ (pool.release index ⟨ticket, .unwinding true⟩ none).released := by
    simp [release, record, Pool.released]
  have seated : ticket ∈ pool.seated :=
    List.mem_append_right _ (List.mem_map_of_mem unwinding)
  have taken : 0 < pool.running := by
    rw [running_eq_length_seated reached]
    exact List.length_pos_of_mem seated
  have lowered := (running_of_release stepped).2
  exact ⟨index, _, found, stepped, freed_of_released (reached.step stepped) released, by omega⟩

/-- A job whose submitter can hear of its end has given up its slot and is no longer counted, unless
its thread was aborted and has dropped the reply and not the slot yet; then the next step of that
thread gives up the slot. A job whose worker ended is never counted once it is settled. -/
theorem settled_freed_or_unwinding (reached : Reached capacity pool) :
    pool.running = pool.seated.length ∧
    ∀ reply ∈ pool.settled, ∃ ticket ending, (ticket, ending) ∈ pool.endings ∧
      reply.number = ticket.number ∧ reply.verdict = ending.verdict ∧
      (pool.Freed ticket ∨
        ending = .aborted ∧ ∃ index next, pool.tasks[index]? = some ⟨ticket, .unwinding true⟩ ∧
          pool.step (.release index) = some next ∧ next.Freed ticket ∧
          next.running + 1 = pool.running) := by
  refine ⟨running_eq_length_seated reached, fun reply settled => ?_⟩
  obtain ⟨ticket, ending, ended, own, told⟩ := exists_ending_of_settled reached settled
  refine ⟨ticket, ending, ended, own, told, ?_⟩
  have admitted : ticket ∈ pool.admitted :=
    (admitted_perm_unstarted reached).mem_iff.mpr
      (List.mem_append_right _ (mem_launches_of_mem_endings reached ended))
  rcases List.mem_append.mp ((admitted_perm_seated reached).mem_iff.mp admitted) with seated | released
  · have unwinding := unwinding_of_settled reached settled ended own seated
    have same : (ticket, ending) = (ticket, Ending.aborted) :=
      List.inj_on_of_nodup_map (endings_nodup reached) ended
        (aborted_of_unwinding reached unwinding) rfl
    exact .inr ⟨congrArg Prod.snd same, exists_release reached unwinding⟩
  · exact .inl (freed_of_released reached released)

/-- The aborted one of two jobs for one slot is answered and gives up the slot next. -/
theorem settled_freed_or_unwinding_contest :
    ∃ pool, (ofCapacity 1).run contest = some pool ∧ pool.running = 1 ∧
      ∀ reply ∈ pool.settled, ∃ ticket, reply.number = ticket.number ∧
        (pool.Freed ticket ∨ ∃ index next, pool.step (.release index) = some next ∧
          next.Freed ticket ∧ next.running + 1 = pool.running) := by
  have ran : (ofCapacity 1).run contest = some _ := rfl
  obtain ⟨_, each⟩ := settled_freed_or_unwinding (reached_iff_run.mpr ⟨_, ran⟩)
  refine ⟨_, ran, rfl, fun reply settled => ?_⟩
  obtain ⟨ticket, _, _, own, _, state⟩ := each reply settled
  refine ⟨ticket, own, state.imp id fun ⟨_, index, next, _, stepped, freed, lowered⟩ => ?_⟩
  exact ⟨index, next, stepped, freed, lowered⟩

/-- The submitter of an aborted job has its answer while the job holds the only slot. -/
theorem aborted_holds_slot :
    ∃ pool, (ofCapacity 1).run contest = some pool ∧
      (∃ reply ∈ pool.settled, ∃ ticket ∈ pool.seated, reply.number = ticket.number) ∧
      pool.health.running = 1 := by
  have ran : (ofCapacity 1).run contest = some _ := rfl
  exact ⟨_, ran, ⟨_, .head _, _, .head _, rfl⟩, rfl⟩

end PageBuild.Pool
