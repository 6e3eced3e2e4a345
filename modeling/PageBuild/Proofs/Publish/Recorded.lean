import PageBuild.Proofs.Publish.Uploads

/-!
# Recorded stores

Any store can be watched: `Store.recorded` does what the store does and remembers which file it was
to keep under which key, and whether it did. Uploads that work out leave a record of every file
under each of its keys.
-/
namespace PageBuild

variable {σ τ : Type}

/-- A put, and whether it worked out. -/
structure Deposit where
  key : String
  file : Path
  isKept : Bool
  deriving DecidableEq, Repr

/-- A host with another state of its store. -/
def Host.withStore (host : Host σ) (store : τ) : Host τ :=
  ⟨host.files, host.log, host.now, host.uptime, host.bundlers, store⟩

/-- A store that remembers its puts, in order. -/
def Store.recorded (store : Store σ) : Store (σ × List Deposit) where
  put key file cache := ExceptT.mk fun host =>
    let (result, after) := (store.put key file cache).run (host.withStore host.store.1)
    (result, after.withStore (after.store, host.store.2 ++ [⟨key, file, result.isOk⟩]))
  list start limit := ExceptT.mk fun host =>
    let (result, after) := (store.list start limit).run (host.withStore host.store.1)
    (result, after.withStore (after.store, host.store.2))
  baseUrl := store.baseUrl

variable {store : Store σ} {host after : Host (σ × List Deposit)}

/-- A put is remembered. -/
theorem Store.deposits_put {key : String} {file : Path} {cache : String}
    {result : Except Failure Unit} (put : (store.recorded.put key file cache).run host = (result, after)) :
    after.store.2 = host.store.2 ++ [⟨key, file, result.isOk⟩] := by
  obtain ⟨rfl, rfl⟩ := Prod.mk.inj put
  rfl

/-- Narration leaves the store alone. -/
theorem HostM.store_narrate (level : Level) (text : String) (host : Host σ) :
    ((narrate level text).run host).2.store = host.store := by
  rw [run_narrate]
  cases host.log <;> rfl

namespace Uploads

variable {uploads next : Uploads} {files : List (Path × List String)} {start : List Deposit}

/-- Whether every file is recorded under each of its keys, or left to be put, unless an upload has
failed. -/
def Accounted (files : List (Path × List String)) (start : List Deposit)
    (state : Uploads × Host (σ × List Deposit)) : Prop :=
  ∃ made, state.2.store.2 = start ++ made ∧
    (state.1.failure = none → ∀ pair ∈ files, ∀ key ∈ pair.2,
      ⟨key, pair.1, true⟩ ∈ made ∨ state.1.Left pair.1 key)

/-- A change adds to the record. -/
theorem record_of_change (change : Change store.recorded (uploads, host) (next, after)) :
    ∃ more, after.store.2 = host.store.2 ++ more := by
  cases change with
  | take | skip => exact ⟨[], (List.append_nil _).symm⟩
  | last put | put put =>
    rw [HostM.info, HostM.store_narrate, Store.deposits_put put]
    exact ⟨_, rfl⟩
  | fail put =>
    rw [Store.deposits_put put]
    exact ⟨_, rfl⟩

/-- A change leaves every file accounted for. -/
theorem Accounted.of_change {state later : Uploads × Host (σ × List Deposit)}
    (accounted : Accounted files start state) (change : Change store.recorded state later) :
    Accounted files start later := by
  obtain ⟨made, log, accounts⟩ := accounted
  obtain ⟨more, added⟩ := record_of_change change
  refine ⟨made ++ more, by rw [added, log, List.append_assoc], fun fine pair member key keyed => ?_⟩
  by_cases failed : state.1.failure = none
  · rcases accounts failed pair member key keyed with kept | left
    · exact .inl (List.mem_append_left _ kept)
    · rcases left.of_change change with left | failed | ⟨middle, put, narrated⟩
      · exact .inr left
      · exact absurd fine failed
      · refine .inl (List.mem_append_right _ ?_)
        have record := Store.deposits_put put
        have same : later.2.store = middle.store := by
          rw [narrated, HostM.info, HostM.store_narrate]
        rw [← same, added, List.append_cancel_left_eq] at record
        rw [record]
        exact List.mem_singleton_self _
  · exact absurd fine (failure_stays change failed)

/-- Uploads that work out put every file under each of its keys. -/
theorem deposits_of_run_ok {policy : Policy} {workers : Nat}
    (ran : (run store.recorded policy workers files).run host = (.ok (), after)) :
    ∃ made, after.store.2 = host.store.2 ++ made ∧
      ∀ pair ∈ files, ∀ key ∈ pair.2, ⟨key, pair.1, true⟩ ∈ made := by
  obtain ⟨last, changes, fine, done⟩ := exists_changes_of_run_ok ran
  have accounted : Accounted files host.store.2 (last, after) := by
    generalize (last, after) = state at changes
    induction changes with
    | refl => exact ⟨[], by simp, fun _ pair member key keyed => .inr (left_ofFiles member keyed)⟩
    | tail _ change ih => exact ih.of_change change
  obtain ⟨made, log, accounts⟩ := accounted
  exact ⟨made, log, fun pair member key keyed =>
    (accounts fine pair member key keyed).resolve_right (done pair.1 key)⟩

end Uploads

end PageBuild
