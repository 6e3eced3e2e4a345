import Mathlib.Algebra.Ring.Nat
import Mathlib.Logic.Relation
import PageBuild.Proofs.Build.Host
import PageBuild.Publish.Publish

/-!
# Uploads under any policy

`Uploads.Change` lists once what a step of the workers does, whichever step the policy chooses.
Every step takes work off the uploads, so that the steps that are granted suffice, and the workers
stop only where nothing is left to be done or an upload has failed (`Uploads.exists_steps`). What
holds of uploads is proved by induction over the changes.
-/
namespace PageBuild.Uploads

open PageBuild.Action (Moves)

variable {σ : Type} {store : Store σ} {uploads next : Uploads} {host after : Host σ}

/-! ## Picks -/

/-- Whether a pick can be acted on. -/
def Open (uploads : Uploads) : Pick → Prop
  | .take index => index < uploads.waiting.length
  | .put index => index < uploads.taken.length
  | .stop => uploads.taken = [] ∧ (uploads.waiting = [] ∨ uploads.failure.isSome = true)

/-- What the workers are allowed to do can be acted on. -/
theorem open_of_allows {workers : Nat} {pick : Pick} (allowed : uploads.allows workers pick = true) :
    uploads.Open pick := by
  cases pick with
  | take index =>
    simp only [allows, Bool.and_eq_true, decide_eq_true_eq] at allowed
    exact allowed.1
  | put index => simpa [allows, Open] using allowed
  | stop => simpa [allows, Open] using allowed

/-- What happens when the choice is not open can be acted on. -/
theorem open_default (uploads : Uploads) : uploads.Open uploads.default := by
  rw [default]
  split
  · rename_i busy
    exact List.length_pos_iff.mpr (by simpa using busy)
  · rename_i idle
    split
    · rename_i ended
      exact ⟨by simpa using idle, by simpa using ended⟩
    · rename_i left
      simp only [Bool.or_eq_true, not_or] at left
      exact List.length_pos_iff.mpr (by simpa using left.1)

/-- Whatever the policy, what happens can be acted on. -/
theorem open_choose (policy : Policy) (workers step : Nat) (uploads : Uploads) :
    uploads.Open (choose policy workers step uploads) := by
  rw [choose]
  split
  · rename_i allowed
    exact open_of_allows allowed
  · exact uploads.open_default

/-! ## Changes -/

/-- What one step of the workers does to uploads and to the host. -/
inductive Change (store : Store σ) : Uploads × Host σ → Uploads × Host σ → Prop
  /-- A worker takes a file. -/
  | take {upload : Upload} {front back taken : List Upload} {failure : Option (Nat × Failure)}
      {host : Host σ} :
    Change store (⟨front ++ upload :: back, taken, failure⟩, host)
      (⟨front ++ back, taken ++ [upload], failure⟩, host)
  /-- A file without keys is done. -/
  | skip {place : Nat} {file : Path} {waiting front back : List Upload}
      {failure : Option (Nat × Failure)} {host : Host σ} :
    Change store (⟨waiting, front ++ ⟨place, file, []⟩ :: back, failure⟩, host)
      (⟨waiting, front ++ back, failure⟩, host)
  /-- A file is put under its last key. -/
  | last {place : Nat} {file : Path} {key : String} {waiting front back : List Upload}
      {failure : Option (Nat × Failure)} {host middle : Host σ}
      (put : (store.put key file file.cacheControl).run host = (.ok (), middle)) :
    Change store (⟨waiting, front ++ ⟨place, file, [key]⟩ :: back, failure⟩, host)
      (⟨waiting, front ++ back, failure⟩, ((HostM.info ("Uploaded " ++ key)).run middle).2)
  /-- A file is put under a key and has others left. -/
  | put {place : Nat} {file : Path} {key second : String} {keys : List String}
      {waiting front back : List Upload} {failure : Option (Nat × Failure)} {host middle : Host σ}
      (put : (store.put key file file.cacheControl).run host = (.ok (), middle)) :
    Change store (⟨waiting, front ++ ⟨place, file, key :: second :: keys⟩ :: back, failure⟩, host)
      (⟨waiting, front ++ ⟨place, file, second :: keys⟩ :: back, failure⟩,
        ((HostM.info ("Uploaded " ++ key)).run middle).2)
  /-- A file cannot be put under a key. -/
  | fail {place : Nat} {file : Path} {key : String} {keys : List String}
      {waiting front back : List Upload} {earlier : Option (Nat × Failure)} {failure : Failure}
      {host after : Host σ}
      (put : (store.put key file file.cacheControl).run host = (.error failure, after)) :
    Change store (⟨waiting, front ++ ⟨place, file, key :: keys⟩ :: back, earlier⟩, host)
      (Uploads.fail ⟨waiting, front ++ back, earlier⟩ place (publishFailure file failure), after)

/-- An element of a list between those before and after it. -/
theorem exists_around {α : Type} {items : List α} {index : Nat} (within : index < items.length) :
    ∃ item front back, items = front ++ item :: back ∧ items[index]? = some item ∧
      items.eraseIdx index = front ++ back ∧
        ∀ other, items.set index other = front ++ other :: back := by
  refine ⟨items[index], items.take index, items.drop (index + 1), ?_, ?_, ?_, fun other => ?_⟩
  · simp
  · exact List.getElem?_eq_getElem within
  · exact List.eraseIdx_eq_take_drop_succ items index
  · exact List.set_eq_take_append_cons_drop.trans (if_pos within)

/-- To put a file under its next key is a change. -/
theorem exists_putNext {index : Nat} {upload : Upload} {waiting taken front back : List Upload}
    {failure : Option (Nat × Failure)} (parts : taken = front ++ upload :: back)
    (erased : taken.eraseIdx index = front ++ back)
    (exchanged : ∀ other, taken.set index other = front ++ other :: back) (host : Host σ) :
    ∃ next after,
      (putNext store index upload ⟨waiting, taken, failure⟩).run host = (.ok next, after) ∧
        Change store (⟨waiting, taken, failure⟩, host) (next, after) := by
  obtain ⟨place, file, keys⟩ := upload
  rw [parts]
  cases keys with
  | nil =>
    refine ⟨_, _, ?_, .skip⟩
    simp only [putNext, ← parts, erased]
    rfl
  | cons key keys =>
    obtain ⟨result, middle, put⟩ : ∃ result middle,
        (store.put key file file.cacheControl).run host = (result, middle) := ⟨_, _, rfl⟩
    have attempted : (HostM.attempt (store.put key file file.cacheControl)).run host =
        (.ok result, middle) := by
      rw [HostM.run_attempt, put]
    cases result with
    | error cause =>
      refine ⟨_, _, ?_, .fail put⟩
      simp only [putNext]
      rw [Action.run_bind_of_ok attempted, ← parts, erased]
      rfl
    | ok _ =>
      cases keys with
      | nil =>
        refine ⟨_, _, ?_, .last put⟩
        simp only [putNext]
        rw [Action.run_bind_of_ok attempted, ← parts]
        simp only [erased]
        rfl
      | cons second keys =>
        refine ⟨_, _, ?_, .put put⟩
        simp only [putNext]
        rw [Action.run_bind_of_ok attempted, ← parts]
        simp only [exchanged]
        rfl

/-- A pick that can be acted on is a change. -/
theorem exists_change (store : Store σ) {pick : Pick} (possible : uploads.Open pick) (going : pick ≠ .stop)
    (host : Host σ) :
    ∃ next after, (step store pick uploads).run host = (.ok next, after) ∧
      Change store (uploads, host) (next, after) := by
  obtain ⟨waiting, taken, failure⟩ := uploads
  cases pick with
  | stop => exact absurd rfl going
  | take index =>
    obtain ⟨upload, front, back, parts, found, erased, -⟩ := exists_around possible
    dsimp only at parts found erased
    refine ⟨⟨front ++ back, taken ++ [upload], failure⟩, host, ?_, ?_⟩
    · simp only [step, found, erased]
      rfl
    · rw [parts]
      exact .take
  | put index =>
    obtain ⟨upload, front, back, parts, found, erased, exchanged⟩ := exists_around possible
    dsimp only at parts found erased exchanged
    obtain ⟨next, after, ran, change⟩ :
        ∃ next after,
          (putNext store index upload ⟨waiting, taken, failure⟩).run host = (.ok next, after) ∧
            Change store (⟨waiting, taken, failure⟩, host) (next, after) :=
      exists_putNext parts erased exchanged host
    refine ⟨next, after, ?_, change⟩
    simp only [step, found]
    exact ran

/-! ## Runs -/

/-- The most steps that are left. -/
def stepsLeft (uploads : Uploads) : Nat :=
  (uploads.waiting.map fun upload => upload.keys.length + 2).sum +
    (uploads.taken.map fun upload => upload.keys.length + 1).sum

/-- A sum that is gathered step by step. -/
theorem foldl_add_eq (extra start : Nat) (uploads : List Upload) :
    uploads.foldl (fun steps upload => steps + upload.keys.length + extra) start =
      start + (uploads.map fun upload => upload.keys.length + extra).sum := by
  induction uploads generalizing start with
  | nil => rfl
  | cons upload uploads ih =>
    rw [List.foldl_cons, ih, List.map_cons, List.sum_cons]
    omega

/-- More steps are granted than are left. -/
theorem stepsLeft_lt_bound (uploads : Uploads) : uploads.stepsLeft < uploads.bound := by
  rw [bound, foldl_add_eq, foldl_add_eq, stepsLeft]
  omega

/-- A failure changes no more than the failure that stands. -/
theorem lists_fail (uploads : Uploads) (place : Nat) (failure : Failure) :
    (uploads.fail place failure).waiting = uploads.waiting ∧
      (uploads.fail place failure).taken = uploads.taken := by
  rw [fail]
  split
  · split <;> exact ⟨rfl, rfl⟩
  · exact ⟨rfl, rfl⟩

/-- What is left of uploads does not depend on failures. -/
theorem stepsLeft_fail (place : Nat) (failure : Failure) :
    (uploads.fail place failure).stepsLeft = uploads.stepsLeft := by
  obtain ⟨waiting, taken⟩ := uploads.lists_fail place failure
  rw [stepsLeft, stepsLeft, waiting, taken]

/-- Every change takes work off the uploads. -/
theorem stepsLeft_lt_of_change (change : Change store (uploads, host) (next, after)) :
    next.stepsLeft < uploads.stepsLeft := by
  cases change with
  | take => simp [stepsLeft]; omega
  | skip => simp [stepsLeft]
  | last put => simp [stepsLeft]
  | put put => simp [stepsLeft]
  | fail put =>
    rw [stepsLeft_fail]
    simp only [stepsLeft, List.map_append, List.map_cons, List.sum_append, List.sum_cons, List.length_cons]
    omega

/-- The steps that are granted suffice for the workers to stop by themselves. -/
theorem exists_steps (store : Store σ) (policy : Policy) (workers : Nat) {fuel : Nat} (enough : uploads.stepsLeft < fuel)
    (host : Host σ) :
    ∃ last after, (steps store policy workers fuel uploads).run host = (.ok last, after) ∧
      Relation.ReflTransGen (Change store) (uploads, host) (last, after) ∧ last.Open .stop := by
  induction fuel generalizing uploads host with
  | zero => exact absurd enough (Nat.not_lt_zero _)
  | succ fuel ih =>
    have possible := open_choose policy workers fuel uploads
    by_cases stops : choose policy workers fuel uploads = .stop
    · rw [stops] at possible
      refine ⟨uploads, host, ?_, .refl, possible⟩
      rw [steps, stops]
      rfl
    · obtain ⟨next, middle, ran, change⟩ := exists_change store possible stops host
      obtain ⟨last, after, rest, changes, ended⟩ :=
        ih (Nat.lt_of_lt_of_le (stepsLeft_lt_of_change change) (Nat.le_of_lt_succ enough)) middle
      refine ⟨last, after, ?_, .head change changes, ended⟩
      rw [steps]
      split
      · rename_i found
        exact absurd found stops
      · rw [Action.run_bind_of_ok ran, rest]

/-- A run of uploads goes from change to change until the workers stop, and fails where an upload
has failed. -/
theorem exists_run (store : Store σ) (policy : Policy) (workers : Nat)
    (files : List (Path × List String)) (host : Host σ) :
    ∃ last after, Relation.ReflTransGen (Change store) (ofFiles files, host) (last, after) ∧
      last.Open .stop ∧
      (run store policy workers files).run host =
        (match last.failure with
          | some (_, failure) => .error failure
          | none => .ok (), after) := by
  obtain ⟨last, after, ran, changes, ended⟩ :=
    exists_steps store policy workers (stepsLeft_lt_bound (ofFiles files)) host
  refine ⟨last, after, changes, ended, ?_⟩
  rw [run, Action.run_bind_of_ok ran]
  cases last.failure with
  | none => rfl
  | some found => rfl

/-! ## What is put -/

/-- Whether only some files are left to be put under some keys. -/
def Within (allowed : Path → String → Prop) (uploads : Uploads) : Prop :=
  ∀ upload ∈ uploads.waiting ++ uploads.taken, ∀ key ∈ upload.keys, allowed upload.file key

variable {allowed : Path → String → Prop}

/-- The uploads of files are of these files under these keys. -/
theorem within_ofFiles {files : List (Path × List String)}
    (only : ∀ pair ∈ files, ∀ key ∈ pair.2, allowed pair.1 key) :
    (ofFiles files).Within allowed := by
  intro upload member
  simp only [ofFiles, List.append_nil, List.mem_mapIdx] at member
  obtain ⟨index, within, rfl⟩ := member
  exact only _ (List.getElem_mem within)

/-- A failure adds nothing to put. -/
theorem within_fail {place : Nat} {failure : Failure} :
    (uploads.fail place failure).Within allowed ↔ uploads.Within allowed := by
  obtain ⟨waiting, taken⟩ := uploads.lists_fail place failure
  rw [Within, Within, waiting, taken]

/-- A change adds nothing to put. -/
theorem Within.of_change (within : uploads.Within allowed)
    (change : Change store (uploads, host) (next, after)) : next.Within allowed := by
  cases change with
  | take =>
    refine fun upload member => within upload ?_
    simp only [List.mem_append, List.mem_cons, List.not_mem_nil, or_false] at member ⊢
    tauto
  | skip | last =>
    refine fun upload member => within upload ?_
    simp only [List.mem_append, List.mem_cons] at member ⊢
    tauto
  | fail =>
    refine within_fail.mpr fun upload member => within upload ?_
    simp only [List.mem_append, List.mem_cons] at member ⊢
    tauto
  | put =>
    intro upload member key unput
    simp only [List.mem_append, List.mem_cons] at member
    rcases member with waits | before | rfl | behind
    · exact within upload (by simp [waits]) key unput
    · exact within upload (by simp [before]) key unput
    · exact within ⟨_, _, _⟩ (List.mem_append_right _ (List.mem_append_right _ List.mem_cons_self))
        key (List.mem_cons_of_mem _ unput)
    · exact within upload (by simp [behind]) key unput

/-- A file that is put by a change is one that is left to be put. -/
theorem Within.of_taken {waiting front back : List Upload} {place : Nat} {file : Path} {key : String}
    {keys : List String} {failure : Option (Nat × Failure)}
    (within : Within allowed ⟨waiting, front ++ ⟨place, file, key :: keys⟩ :: back, failure⟩) :
    allowed file key :=
  within ⟨place, file, key :: keys⟩ (by simp) key List.mem_cons_self

/-- A change moves the host as a put and a line of narration do. -/
theorem moves_of_change {relation : Host σ → Host σ → Prop} [IsPreorder (Host σ) relation]
    (puts : ∀ file key, allowed file key → Moves relation (store.put key file file.cacheControl))
    (narrates : ∀ text, Moves relation (HostM.info text : HostM σ Unit))
    (within : uploads.Within allowed) (change : Change store (uploads, host) (next, after)) :
    relation host after := by
  cases change with
  | take | skip => exact refl_of relation host
  | last put | put put =>
    have moved := puts _ _ within.of_taken host
    rw [put] at moved
    exact trans_of relation moved (narrates _ _)
  | fail put =>
    have moved := puts _ _ within.of_taken host
    rw [put] at moved
    exact moved

/-- Uploads move the host as their puts and narration do. -/
theorem moves_run {relation : Host σ → Host σ → Prop} [IsPreorder (Host σ) relation]
    (puts : ∀ file key, allowed file key → Moves relation (store.put key file file.cacheControl))
    (narrates : ∀ text, Moves relation (HostM.info text : HostM σ Unit)) {policy : Policy}
    {workers : Nat} {files : List (Path × List String)}
    (only : ∀ pair ∈ files, ∀ key ∈ pair.2, allowed pair.1 key) :
    Moves relation (run store policy workers files) := by
  intro host
  obtain ⟨last, after, changes, -, ran⟩ := exists_run store policy workers files host
  have moved : ∀ state, Relation.ReflTransGen (Change store) (ofFiles files, host) state →
      state.1.Within allowed ∧ relation host state.2 := by
    intro state changes
    induction changes with
    | refl => exact ⟨within_ofFiles only, refl_of relation host⟩
    | tail _ change ih =>
      exact ⟨ih.1.of_change change,
        trans_of relation ih.2 (moves_of_change puts narrates ih.1 change)⟩
  rw [ran]
  exact (moved _ changes).2

/-- The failure that stands after a change is the one before it or that of a put. -/
theorem failure_of_change {place : Nat} {failure : Failure}
    (within : uploads.Within allowed) (change : Change store (uploads, host) (next, after))
    (failed : next.failure = some (place, failure)) :
    uploads.failure = some (place, failure) ∨
      ∃ file key before cause later, allowed file key ∧
        (store.put key file file.cacheControl).run before = (.error cause, later) ∧
        failure = publishFailure file cause := by
  cases change with
  | take | skip | last | put => exact .inl failed
  | fail put =>
    rw [fail] at failed
    split at failed
    · split at failed
      · exact .inl failed
      · obtain ⟨-, rfl⟩ := Prod.mk.inj (Option.some.inj failed)
        exact .inr ⟨_, _, _, _, _, within.of_taken, put, rfl⟩
    · obtain ⟨-, rfl⟩ := Prod.mk.inj (Option.some.inj failed)
      exact .inr ⟨_, _, _, _, _, within.of_taken, put, rfl⟩

/-- Uploads fail only as one of their puts does. -/
theorem failure_of_run {policy : Policy} {workers : Nat} {files : List (Path × List String)}
    (only : ∀ pair ∈ files, ∀ key ∈ pair.2, allowed pair.1 key) {failure : Failure}
    (ran : (run store policy workers files).run host = (.error failure, after)) :
    ∃ file key before cause later, allowed file key ∧
      (store.put key file file.cacheControl).run before = (.error cause, later) ∧
      failure = publishFailure file cause := by
  obtain ⟨last, final, changes, -, ran'⟩ := exists_run store policy workers files host
  have failed : ∀ state, Relation.ReflTransGen (Change store) (ofFiles files, host) state →
      state.1.Within allowed ∧ ∀ place failure, state.1.failure = some (place, failure) →
        ∃ file key before cause later, allowed file key ∧
          (store.put key file file.cacheControl).run before = (.error cause, later) ∧
          failure = publishFailure file cause := by
    intro state changes
    induction changes with
    | refl => exact ⟨within_ofFiles only, fun _ _ none => by cases none⟩
    | tail _ change ih =>
      refine ⟨ih.1.of_change change, fun place failure found => ?_⟩
      rcases failure_of_change ih.1 change found with before | put
      · exact ih.2 place failure before
      · exact put
  rw [ran] at ran'
  cases found : last.failure with
  | none =>
    rw [found] at ran'
    cases ran'
  | some item =>
    obtain ⟨place, other⟩ := item
    rw [found] at ran'
    cases ran'
    exact (failed _ changes).2 place _ found

/-- Whether a file is left to be put under a key. -/
def Left (uploads : Uploads) (file : Path) (key : String) : Prop :=
  ∃ upload ∈ uploads.waiting ++ uploads.taken, upload.file = file ∧ key ∈ upload.keys

/-- Every file is left to be put under each of its keys at first. -/
theorem left_ofFiles {files : List (Path × List String)} {pair : Path × List String} {key : String}
    (member : pair ∈ files) (keyed : key ∈ pair.2) : (ofFiles files).Left pair.1 key := by
  obtain ⟨index, within, rfl⟩ := List.mem_iff_getElem.mp member
  refine ⟨⟨index, files[index].1, files[index].2⟩, ?_, rfl, keyed⟩
  simp only [ofFiles, List.append_nil, List.mem_mapIdx]
  exact ⟨index, within, rfl⟩

/-- An upload that failed leaves a failure. -/
theorem failure_fail (uploads : Uploads) (place : Nat) (failure : Failure) :
    (uploads.fail place failure).failure ≠ none := by
  rw [fail]
  split
  · rename_i earlier other found
    split <;> simp [found]
  · simp

/-- A file that is left to be put under a key is put there, is left again, or an upload fails. -/
theorem Left.of_change {file : Path} {key : String} (left : uploads.Left file key)
    (change : Change store (uploads, host) (next, after)) :
    next.Left file key ∨ next.failure ≠ none ∨
      ∃ middle, (store.put key file file.cacheControl).run host = (.ok (), middle) ∧
        after = ((HostM.info ("Uploaded " ++ key)).run middle).2 := by
  obtain ⟨upload, member, rfl, keyed⟩ := left
  cases change with
  | take =>
    refine .inl ⟨upload, ?_, rfl, keyed⟩
    simp only [List.mem_append, List.mem_cons, List.not_mem_nil, or_false] at member ⊢
    tauto
  | skip =>
    simp only [List.mem_append, List.mem_cons] at member
    rcases member with waits | before | rfl | behind
    · exact .inl ⟨upload, by simp [waits], rfl, keyed⟩
    · exact .inl ⟨upload, by simp [before], rfl, keyed⟩
    · cases keyed
    · exact .inl ⟨upload, by simp [behind], rfl, keyed⟩
  | last put =>
    simp only [List.mem_append, List.mem_cons] at member
    rcases member with waits | before | rfl | behind
    · exact .inl ⟨upload, by simp [waits], rfl, keyed⟩
    · exact .inl ⟨upload, by simp [before], rfl, keyed⟩
    · rw [List.mem_singleton.mp keyed]
      exact .inr (.inr ⟨_, put, rfl⟩)
    · exact .inl ⟨upload, by simp [behind], rfl, keyed⟩
  | put put =>
    simp only [List.mem_append, List.mem_cons] at member
    rcases member with waits | before | rfl | behind
    · exact .inl ⟨upload, by simp [waits], rfl, keyed⟩
    · exact .inl ⟨upload, by simp [before], rfl, keyed⟩
    · rcases List.mem_cons.mp keyed with rfl | keyed
      · exact .inr (.inr ⟨_, put, rfl⟩)
      · exact .inl ⟨⟨_, _, _⟩, List.mem_append_right _ (List.mem_append_right _ List.mem_cons_self),
          rfl, keyed⟩
    · exact .inl ⟨upload, by simp [behind], rfl, keyed⟩
  | fail put => exact .inr (.inl (failure_fail _ _ _))

/-- Uploads that work out go on, without a failure, until nothing is left to be put. -/
theorem exists_changes_of_run_ok {policy : Policy} {workers : Nat}
    {files : List (Path × List String)}
    (ran : (run store policy workers files).run host = (.ok (), after)) :
    ∃ last, Relation.ReflTransGen (Change store) (ofFiles files, host) (last, after) ∧
      last.failure = none ∧ ∀ file key, ¬last.Left file key := by
  obtain ⟨last, final, changes, ended, ran'⟩ := exists_run store policy workers files host
  rw [ran] at ran'
  cases found : last.failure with
  | some item =>
    rw [found] at ran'
    cases ran'
  | none =>
    rw [found] at ran'
    cases ran'
    refine ⟨last, changes, found, ?_⟩
    rintro file key ⟨upload, left, -⟩
    rw [Open, found] at ended
    simp [ended.1, ended.2.resolve_right (by simp)] at left

/-- A failure stays. -/
theorem failure_stays (change : Change store (uploads, host) (next, after))
    (failed : uploads.failure ≠ none) : next.failure ≠ none := by
  cases change with
  | take | skip | last | put => exact failed
  | fail put => exact failure_fail _ _ _

end PageBuild.Uploads

namespace PageBuild.Publisher

variable {σ : Type} {host after : Host σ}

/-! ## What there is to upload -/

/-- Files are listed only where they can be walked. -/
theorem of_run_listFiles {directory : Path} {files : List Path}
    (listed : (listFiles directory : HostM σ (List Path)).run host = (.ok files, after)) :
    ∃ walked, files = walked.map (·.path) ∧ host.files.listFiles directory = .ok walked ∧
      after = host := by
  obtain ⟨walked, middle, looked, listed⟩ := Action.of_run_bind_ok listed
  rw [HostM.run_onFiles_look] at looked
  cases listed
  cases found : host.files.listFiles directory with
  | error cause =>
    rw [found] at looked
    cases looked
  | ok items =>
    rw [found] at looked
    cases looked
    exact ⟨walked, rfl, rfl, rfl⟩

end PageBuild.Publisher
