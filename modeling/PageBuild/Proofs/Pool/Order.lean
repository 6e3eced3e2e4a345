import PageBuild.Proofs.Pool.Flow

/-!
# The order of submissions

Submissions are numbered as they come, and jobs are given slots in the order in which they were
accepted: those accepted are those admitted, followed by those that wait. With the flows this tells
all jobs and answers in a pool apart by the number of their submission.
-/
namespace PageBuild.Pool

/-- The number of the submission that an event refuses or accepts. -/
def Event.submission? : Event → Option Nat
  | .refused number _ => some number
  | .accepted ticket => some ticket.number
  | _ => none

/-- The submissions that were refused or accepted, in order. -/
def submitted (pool : Pool) : List Nat := pool.events.filterMap Event.submission?

variable {capacity : Nat} {pool : Pool}

/-- Every submission is refused or accepted, and numbered as it comes. -/
theorem submitted_eq_range (reached : Reached capacity pool) :
    pool.submitted = List.range pool.submissions := by
  induction reached with
  | fresh => rfl
  | step reached stepped numbered =>
    unfold submitted at numbered ⊢
    cases change_of_step stepped with
    | refuse => simp [record, Event.submission?, List.range_succ, numbered]
    | accept => simp [record, Event.submission?, List.range_succ, numbered]
    | stop | spawn | leave => exact numbered
    | seat | answer | release =>
      simpa [record, filterMap_cons_toList, Event.submission?] using numbered
    | turn place turned =>
      cases turned <;> simpa [record, filterMap_cons_toList, Event.submission?] using numbered

/-- Jobs are admitted in the order in which they were accepted, and the others wait in it. -/
theorem accepted_eq_admitted_append_queue (reached : Reached capacity pool) :
    pool.accepted = pool.admitted ++ pool.queue := by
  induction reached with
  | fresh => rfl
  | step reached stepped ordered =>
    unfold accepted admitted at ordered ⊢
    cases change_of_step stepped with
    | refuse => simpa [record] using ordered
    | accept => simp [record, ordered]
    | stop | spawn | leave => exact ordered
    | seat place room first => simp [record, ordered, first]
    | answer | release => simpa [record] using ordered
    | turn place turned => cases turned <;> simpa [record] using ordered

/-- Fewer pictures of the same elements are a part of the list of all pictures. -/
theorem filterMap_sublist_filterMap {α β : Type} {f g : α → Option β}
    (fewer : ∀ x y, f x = some y → g x = some y) (list : List α) :
    (list.filterMap f).Sublist (list.filterMap g) := by
  induction list with
  | nil => exact .slnil
  | cons head tail ih =>
    rw [filterMap_cons_toList f, filterMap_cons_toList g]
    refine List.Sublist.append ?_ ih
    cases found : f head with
    | none => exact List.nil_sublist _
    | some picture =>
      simp only [fewer head picture found, List.Sublist.refl]

/-- Accepted submissions have different numbers. -/
theorem accepted_nodup (reached : Reached capacity pool) :
    (pool.accepted.map Ticket.number).Nodup := by
  have distinct : pool.submitted.Nodup := by
    rw [submitted_eq_range reached]
    exact List.nodup_range
  refine List.Sublist.nodup ?_ distinct
  rw [accepted, List.map_filterMap]
  refine filterMap_sublist_filterMap (fun event number found => ?_) pool.events
  cases event <;> simp_all [Event.submission?]

/-- Admitted jobs have different numbers. -/
theorem admitted_nodup (reached : Reached capacity pool) :
    (pool.admitted.map Ticket.number).Nodup := by
  have distinct := accepted_nodup reached
  rw [accepted_eq_admitted_append_queue reached, List.map_append] at distinct
  exact (List.sublist_append_left _ _).nodup distinct

/-- Jobs that hold slots have different numbers. -/
theorem seated_nodup (reached : Reached capacity pool) :
    (pool.seated.map Ticket.number).Nodup := by
  have distinct := ((admitted_perm_seated reached).map Ticket.number).nodup_iff.mp
    (admitted_nodup reached)
  rw [List.map_append] at distinct
  exact (List.sublist_append_left _ _).nodup distinct

/-- Launched jobs have different numbers. -/
theorem launches_nodup (reached : Reached capacity pool) :
    (pool.launches.map Ticket.number).Nodup := by
  have distinct := ((admitted_perm_unstarted reached).map Ticket.number).nodup_iff.mp
    (admitted_nodup reached)
  rw [List.map_append] at distinct
  exact (List.sublist_append_right _ _).nodup distinct

/-- Jobs that ended have different numbers. -/
theorem endings_nodup (reached : Reached capacity pool) :
    (pool.endings.map fun (ticket, _) => ticket.number).Nodup := by
  have distinct := ((launches_perm_atWork reached).map Ticket.number).nodup_iff.mp
    (launches_nodup reached)
  rw [List.map_append, List.map_map] at distinct
  exact (List.sublist_append_right _ _).nodup distinct

/-- A job that was launched was accepted. -/
theorem mem_accepted_of_mem_launches (reached : Reached capacity pool) {ticket : Ticket}
    (launched : ticket ∈ pool.launches) : ticket ∈ pool.accepted := by
  have admitted : ticket ∈ pool.admitted :=
    (admitted_perm_unstarted reached).mem_iff.mpr (List.mem_append_right _ launched)
  rw [accepted_eq_admitted_append_queue reached]
  exact List.mem_append_left _ admitted

/-- A job that ended was launched. -/
theorem mem_launches_of_mem_endings (reached : Reached capacity pool) {ticket : Ticket}
    {ending : Ending} (ended : (ticket, ending) ∈ pool.endings) : ticket ∈ pool.launches :=
  (launches_perm_atWork reached).mem_iff.mpr
    (List.mem_append_right _ (List.mem_map_of_mem ended))

end PageBuild.Pool
