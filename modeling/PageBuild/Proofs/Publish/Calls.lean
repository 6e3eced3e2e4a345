import PageBuild.Proofs.Publish.Recorded

/-!
# Calls of a store

A store can be watched closely: `Store.watched` does what the store does and remembers every call of a
put with its result. Whatever the policy, the calls of uploads are those of each file, and what is
called for a file is called in order, up to the first put that fails (`Uploads.exists_calls`).
-/
namespace PageBuild

variable {σ : Type}

/-- A call of a put, and its result. -/
structure PutCall where
  key : String
  file : Path
  cache : String
  result : Except Failure Unit

/-- The call that puts a file under a key, with the cache header of the file. -/
def PutCall.of (file : Path) (key : String) (result : Except Failure Unit) : PutCall :=
  ⟨key, file, file.cacheControl, result⟩

/-- A store that remembers the calls of its puts, in order. -/
def Store.watched (store : Store σ) : Store (σ × List PutCall) where
  put key file cache := ExceptT.mk fun host =>
    let (result, after) := (store.put key file cache).run (host.withStore host.store.1)
    (result, after.withStore (after.store, host.store.2 ++ [⟨key, file, cache, result⟩]))
  list start limit := ExceptT.mk fun host =>
    let (result, after) := (store.list start limit).run (host.withStore host.store.1)
    (result, after.withStore (after.store, host.store.2))
  baseUrl := store.baseUrl

/-- A call is remembered. -/
theorem Store.calls_put {store : Store σ} {host after : Host (σ × List PutCall)} {file : Path}
    {key : String} {result : Except Failure Unit}
    (put : (store.watched.put key file file.cacheControl).run host = (result, after)) :
    after.store.2 = host.store.2 ++ [.of file key result] := by
  obtain ⟨rfl, rfl⟩ := Prod.mk.inj put
  rfl

/-! ## Calls by place -/

section CallsOf

variable {ι : Type} [DecidableEq ι] {made : List (ι × PutCall)} {more : List PutCall}
  {place other : ι} {call : PutCall}

/-- The calls that were made for a place, in order. -/
def callsOf (made : List (ι × PutCall)) (place : ι) : List PutCall :=
  (made.filter fun item => item.1 = place).map Prod.snd

/-- Calls for a place are its last ones. -/
theorem callsOf_append_same :
    callsOf (made ++ more.map (place, ·)) place = callsOf made place ++ more := by
  simp [callsOf, List.filter_map, Function.comp_def]

/-- Calls for another place are none of a place. -/
theorem callsOf_append_other (apart : place ≠ other) :
    callsOf (made ++ more.map (other, ·)) place = callsOf made place := by
  simp [callsOf, List.filter_map, Function.comp_def, apart.symm]

/-- A call is one of those of its place. -/
theorem mem_callsOf : call ∈ callsOf made place ↔ (place, call) ∈ made := by
  simp [callsOf]

/-- The calls for a place are those for its name where places are told apart by their names. -/
theorem callsOf_map {κ : Type} [DecidableEq κ] {name : ι → κ}
    (apart : ∀ item ∈ made, name item.1 = name place → item.1 = place) :
    callsOf (made.map (Prod.map name id)) (name place) = callsOf made place := by
  rw [callsOf, callsOf, List.filter_map, List.map_map]
  have same : made.filter ((fun item => decide (item.1 = name place)) ∘ Prod.map name id) =
      made.filter fun item => decide (item.1 = place) := by
    refine List.filter_congr fun item member => decide_eq_decide.mpr ⟨apart item member, ?_⟩
    exact congrArg name
  rw [same]
  rfl

end CallsOf

namespace Uploads

variable {file : Path} {key : String} {keys done : List String} {calls : List PutCall}

/-- The calls of a file that was put under keys. -/
def keptCalls (file : Path) (keys : List String) : List PutCall :=
  keys.map fun key => .of file key (.ok ())

/-- Whether the calls of a file put it under keys in order, up to the first that fails. -/
inductive Pursued (file : Path) : List String → List PutCall → Prop
  | done : Pursued file [] []
  | kept {key : String} {keys : List String} {calls : List PutCall} (rest : Pursued file keys calls) :
    Pursued file (key :: keys) (.of file key (.ok ()) :: calls)
  | failed {key : String} {keys : List String} (cause : Failure) :
    Pursued file (key :: keys) [.of file key (.error cause)]

/-- What is pursued after some puts is pursued with them. -/
theorem Pursued.after (rest : Pursued file keys calls) (done : List String) :
    Pursued file (done ++ keys) (keptCalls file done ++ calls) := by
  induction done with
  | nil => exact rest
  | cons key done ih => exact .kept ih

/-- Where no put fails the file was put under each key. -/
theorem Pursued.eq_keptCalls (pursued : Pursued file keys calls)
    (fine : ∀ call ∈ calls, call.result = .ok ()) : calls = keptCalls file keys := by
  induction pursued with
  | done => rfl
  | kept rest ih => rw [ih fun call member => fine call (List.mem_cons_of_mem _ member)]; rfl
  | failed cause => cases fine _ (List.mem_singleton_self _)

/-- The calls of a file that is put under two keys. -/
theorem Pursued.cases_pair {first second : String} (pursued : Pursued file [first, second] calls) :
    (∃ cause, calls = [.of file first (.error cause)]) ∨
      ∃ last, calls = [.of file first (.ok ()), .of file second last] := by
  cases pursued with
  | failed cause => exact .inl ⟨cause, rfl⟩
  | kept rest =>
    cases rest with
    | failed cause => exact .inr ⟨.error cause, rfl⟩
    | kept rest =>
      cases rest with
      | done => exact .inr ⟨.ok (), rfl⟩

/-! ## Accounts of calls -/

variable {files : List (Path × List String)} {made : List (Nat × PutCall)}
  {waiting taken front back : List Upload} {upload : Upload}

/-- Whether an upload is what some puts of its file have left, all of which worked out. -/
structure IsLeft (files : List (Path × List String)) (made : List (Nat × PutCall)) (done : List String)
    (upload : Upload) : Prop where
  listed : files[upload.place]? = some (upload.file, done ++ upload.keys)
  calls : callsOf made upload.place = keptCalls upload.file done

/-- Whether the calls made are those of the files at their places: none for a file that waits, those so far,
which worked out, for a file that was taken, and all for any other. -/
structure Accounts (files : List (Path × List String)) (made : List (Nat × PutCall))
    (waiting taken : List Upload) : Prop where
  placed : ∀ item ∈ made, item.1 < files.length
  once : ((waiting ++ taken).map Upload.place).Nodup
  waits : ∀ upload ∈ waiting, IsLeft files made [] upload
  begun : ∀ upload ∈ taken, ∃ done, IsLeft files made done upload
  ended : ∀ place file keys, files[place]? = some (file, keys) →
    place ∉ (waiting ++ taken).map Upload.place → Pursued file keys (callsOf made place)

variable {more : List PutCall}

/-- The places of all uploads are that of one of them and those of the others. -/
theorem perm_middle (waiting front back : List Upload) (upload : Upload) :
    ((waiting ++ (front ++ upload :: back)).map Upload.place).Perm
      (upload.place :: (waiting ++ (front ++ back)).map Upload.place) := by
  rw [← List.append_assoc, ← List.append_assoc, ← List.map_cons]
  exact List.perm_middle.map Upload.place

/-- A file is taken. -/
theorem Accounts.take (accounts : Accounts files made (front ++ upload :: back) taken) :
    Accounts files made (front ++ back) (taken ++ [upload]) := by
  have same : (((front ++ upload :: back) ++ taken).map Upload.place).Perm
      (((front ++ back) ++ (taken ++ [upload])).map Upload.place) := by
    refine List.Perm.map _ ?_
    rw [List.append_assoc, List.cons_append, ← List.append_assoc (front ++ back)]
    refine List.perm_middle.trans ?_
    rw [← List.append_assoc]
    exact (List.perm_append_singleton upload _).symm
  refine ⟨accounts.placed, same.nodup_iff.mp accounts.once, ?_, ?_, ?_⟩
  · rintro other member
    refine accounts.waits other ?_
    simp only [List.mem_append, List.mem_cons] at member ⊢
    tauto
  · rintro other member
    rcases List.mem_append.mp member with before | here
    · exact accounts.begun other before
    · rw [List.mem_singleton.mp here]
      exact ⟨[], accounts.waits upload (List.mem_append_right _ List.mem_cons_self)⟩
  · intro place file keys listed gone
    exact accounts.ended place file keys listed fun member => gone (same.mem_iff.mp member)

section Taken

variable (accounts : Accounts files made waiting (front ++ upload :: back))

include accounts

/-- Calls for a file that was taken change nothing for the others. -/
theorem Accounts.isLeft_other {other : Upload} (member : other ∈ waiting ++ (front ++ back))
    (left : IsLeft files made done other) :
    IsLeft files (made ++ more.map (upload.place, ·)) done other := by
  have once := (perm_middle waiting front back upload).nodup_iff.mp accounts.once
  have apart : other.place ≠ upload.place := fun same =>
    (List.nodup_cons.mp once).1 (same ▸ List.mem_map_of_mem member)
  exact ⟨left.listed, (callsOf_append_other apart).trans left.calls⟩

/-- A file that was taken was put under some of its keys. -/
theorem Accounts.exists_isLeft : ∃ done, IsLeft files made done upload :=
  accounts.begun upload (List.mem_append_right _ List.mem_cons_self)

/-- Calls for a file that was taken are made for a place of the files. -/
theorem Accounts.placed_more : ∀ item ∈ made ++ more.map (upload.place, ·), item.1 < files.length := by
  obtain ⟨done, left⟩ := accounts.exists_isLeft
  intro item member
  rcases List.mem_append.mp member with before | new
  · exact accounts.placed item before
  · obtain ⟨call, -, rfl⟩ := List.mem_map.mp new
    exact (List.getElem?_eq_some_iff.mp left.listed).1

/-- A file that was taken is put under its next key and goes on. -/
theorem Accounts.proceed (parts : upload.keys = key :: keys) :
    Accounts files (made ++ [.of upload.file key (.ok ())].map (upload.place, ·)) waiting
      (front ++ { upload with keys } :: back) := by
  obtain ⟨done, left⟩ := accounts.exists_isLeft
  have places : (waiting ++ (front ++ { upload with keys } :: back)).map Upload.place =
      (waiting ++ (front ++ upload :: back)).map Upload.place := by simp
  refine ⟨accounts.placed_more, places ▸ accounts.once, ?_, ?_, ?_⟩
  · exact fun other member =>
      accounts.isLeft_other (List.mem_append_left _ member) (accounts.waits other member)
  · intro other member
    simp only [List.mem_append, List.mem_cons] at member
    rcases member with before | rfl | behind
    · obtain ⟨done, left⟩ := accounts.begun other (List.mem_append_left _ before)
      exact ⟨done, accounts.isLeft_other (by simp [before]) left⟩
    · refine ⟨done ++ [key], ?_, ?_⟩
      · rw [List.append_assoc, List.singleton_append, ← parts]
        exact left.listed
      · rw [callsOf_append_same, left.calls, keptCalls, keptCalls, List.map_append]
        rfl
    · obtain ⟨done, left⟩ := accounts.begun other (by simp [behind])
      exact ⟨done, accounts.isLeft_other (by simp [behind]) left⟩
  · intro place file keys listed gone
    rw [places] at gone
    rw [callsOf_append_other]
    · exact accounts.ended place file keys listed gone
    · rintro rfl
      exact gone (by simp)

/-- The last calls for a file that was taken end it. -/
theorem Accounts.leave (pursued : Pursued upload.file upload.keys more) :
    Accounts files (made ++ more.map (upload.place, ·)) waiting (front ++ back) := by
  obtain ⟨done, left⟩ := accounts.exists_isLeft
  have middle := perm_middle waiting front back upload
  refine ⟨accounts.placed_more, (List.nodup_cons.mp (middle.nodup_iff.mp accounts.once)).2, ?_, ?_, ?_⟩
  · exact fun other member =>
      accounts.isLeft_other (List.mem_append_left _ member) (accounts.waits other member)
  · intro other member
    obtain ⟨done, left⟩ := accounts.begun other (by
      simp only [List.mem_append, List.mem_cons] at member ⊢
      tauto)
    exact ⟨done, accounts.isLeft_other (List.mem_append_right _ member) left⟩
  · intro place file keys listed gone
    -- A place without an upload is that of the file, or was one before.
    by_cases here : place = upload.place
    · subst here
      obtain ⟨rfl, rfl⟩ := Prod.mk.inj (Option.some.inj (listed.symm.trans left.listed))
      rw [callsOf_append_same, left.calls]
      exact pursued.after done
    · rw [callsOf_append_other here]
      refine accounts.ended place file keys listed fun member => ?_
      rcases List.mem_cons.mp (middle.mem_iff.mp member) with same | other
      · exact here same
      · exact gone other

end Taken

/-! ## Failures of calls -/

/-- A failed put is a failure to publish. -/
theorem exists_publishFailure (file : Path) (cause : Failure) :
    ∃ reason, publishFailure file cause = .publish reason := by
  cases cause <;> exact ⟨_, rfl⟩

/-- Whether a failure comes of the calls made: there is none where every put worked out, and else it is
that of a put. -/
def Explains (made : List (Nat × PutCall)) : Option (Nat × Failure) → Prop
  | none => ∀ item ∈ made, item.2.result = .ok ()
  | some (_, failure) =>
    ∃ item ∈ made, ∃ cause, item.2.result = .error cause ∧ failure = publishFailure item.2.file cause

/-- A put that works out changes no failure. -/
theorem Explains.kept {failure : Option (Nat × Failure)} {place : Nat}
    (explains : Explains made failure) :
    Explains (made ++ [.of file key (.ok ())].map (place, ·)) failure := by
  cases failure with
  | none =>
    intro item member
    rcases List.mem_append.mp member with before | new
    · exact explains item before
    · rw [List.mem_singleton.mp new]
      rfl
  | some found =>
    obtain ⟨item, member, failed⟩ := explains
    exact ⟨item, List.mem_append_left _ member, failed⟩

/-- A put that fails explains the failure that uploads stand at after it. -/
theorem Explains.failed {earlier : Option (Nat × Failure)} {place : Nat} {cause : Failure}
    (explains : Explains made earlier) :
    Explains (made ++ [.of file key (.error cause)].map (place, ·))
      (Uploads.fail ⟨waiting, taken, earlier⟩ place (publishFailure file cause)).failure := by
  have new : Explains (made ++ [.of file key (.error cause)].map (place, ·))
      (some (place, publishFailure file cause)) :=
    ⟨_, List.mem_append_right _ (List.mem_singleton_self _), cause, rfl, rfl⟩
  cases earlier with
  | none => exact new
  | some found =>
    rw [fail]
    dsimp only
    split
    · obtain ⟨item, member, failed⟩ := explains
      exact ⟨item, List.mem_append_left _ member, failed⟩
    · exact new

/-! ## Runs -/

variable {store : Store σ} {start : List PutCall} {uploads next : Uploads}
  {host after : Host (σ × List PutCall)}

/-- Whether a store remembers, after some calls, just those that account for the uploads and for their
failure. -/
def Followed (files : List (Path × List String)) (start : List PutCall) (uploads : Uploads)
    (host : Host (σ × List PutCall)) : Prop :=
  ∃ made, host.store.2 = start ++ made.map Prod.snd ∧
    Accounts files made uploads.waiting uploads.taken ∧ Explains made uploads.failure

/-- A call that is remembered is added to those made. -/
theorem calls_append {place : Nat} {call : PutCall} (before : calls = start ++ made.map Prod.snd) :
    calls ++ [call] = start ++ (made ++ [call].map (place, ·)).map Prod.snd := by
  simp [before]

/-- A change is followed. -/
theorem Followed.of_change (followed : Followed files start uploads host)
    (change : Change store.watched (uploads, host) (next, after)) :
    Followed files start next after := by
  obtain ⟨made, called, accounts, explains⟩ := followed
  cases change with
  | take => exact ⟨made, called, accounts.take, explains⟩
  | skip => exact ⟨made, called, by simpa using accounts.leave .done, explains⟩
  | last put =>
    -- The put under the last key is at once the end of the file.
    rw [Followed, HostM.info, HostM.store_narrate]
    exact ⟨_, (Store.calls_put put).trans (calls_append called), accounts.leave (.kept .done),
      explains.kept⟩
  | put put =>
    rw [Followed, HostM.info, HostM.store_narrate]
    exact ⟨_, (Store.calls_put put).trans (calls_append called), accounts.proceed rfl, explains.kept⟩
  | fail put =>
    refine ⟨_, (Store.calls_put put).trans (calls_append called), ?_, explains.failed⟩
    rw [(lists_fail _ _ _).1, (lists_fail _ _ _).2]
    exact accounts.leave (.failed _)

/-- The files stand at their places. -/
theorem places_ofFiles (files : List (Path × List String)) :
    (ofFiles files).waiting.map Upload.place = List.range files.length := by
  simp [ofFiles, List.mapIdx_eq_zipIdx_map, Function.comp_def, List.range_eq_range']

/-- Before any call is made all files wait. -/
theorem followed_ofFiles (files : List (Path × List String)) (host : Host (σ × List PutCall)) :
    Followed files host.store.2 (ofFiles files) host := by
  refine ⟨[], by simp, ⟨by simp, ?_, ?_, by simp [ofFiles], ?_⟩, by simp [Explains, ofFiles]⟩
  · simpa [ofFiles] using places_ofFiles files ▸ List.nodup_range
  · intro upload waits
    obtain ⟨place, within, rfl⟩ := List.mem_mapIdx.mp waits
    exact ⟨List.getElem?_eq_getElem within, rfl⟩
  · intro place file keys listed gone
    have within := (List.getElem?_eq_some_iff.mp listed).1
    rw [List.map_append, places_ofFiles] at gone
    exact absurd (List.mem_append_left _ (List.mem_range.mpr within)) gone

/-- Whether calls and a result are what uploads of files come to. The calls are made for files only; those
for each file are none or go through its keys in order, up to the first that fails. Either no call
failed and every file was put under all of its keys, or the result is the failure of a call. -/
structure Concluded (files : List (Path × List String)) (made : List (Nat × PutCall))
    (result : Except Failure Unit) : Prop where
  placed : ∀ item ∈ made, item.1 < files.length
  each : ∀ place file keys, files[place]? = some (file, keys) →
    callsOf made place = [] ∨ Pursued file keys (callsOf made place)
  outcome :
    (result = .ok () ∧ (∀ item ∈ made, item.2.result = .ok ()) ∧
      ∀ place file keys, files[place]? = some (file, keys) → callsOf made place = keptCalls file keys) ∨
    ∃ item ∈ made, ∃ cause, item.2.result = .error cause ∧
      result = .error (publishFailure item.2.file cause)

/-- Where the workers stop, the calls that account for the uploads conclude them. -/
theorem Accounts.conclude (accounts : Accounts files made uploads.waiting uploads.taken)
    (explains : Explains made uploads.failure) (stopped : uploads.Open .stop) :
    Concluded files made
      (match uploads.failure with
        | some (_, failure) => .error failure
        | none => .ok ()) := by
  obtain ⟨idle, rest⟩ := stopped
  have each : ∀ place file keys, files[place]? = some (file, keys) →
      callsOf made place = [] ∨ Pursued file keys (callsOf made place) := by
    intro place file keys listed
    by_cases waits : place ∈ (uploads.waiting ++ uploads.taken).map Upload.place
    · rw [idle, List.append_nil] at waits
      obtain ⟨upload, member, rfl⟩ := List.mem_map.mp waits
      exact .inl (accounts.waits upload member).calls
    · exact .inr (accounts.ended place file keys listed waits)
  refine ⟨accounts.placed, each, ?_⟩
  cases failure : uploads.failure with
  | some found =>
    rw [failure] at explains
    obtain ⟨item, member, cause, failed, same⟩ := explains
    exact .inr ⟨item, member, cause, failed, congrArg Except.error same⟩
  | none =>
    rw [failure] at explains rest
    have none_left : uploads.waiting = [] := rest.resolve_right (by simp)
    refine .inl ⟨rfl, explains, fun place file keys listed => ?_⟩
    refine (accounts.ended place file keys listed (by simp [none_left, idle])).eq_keptCalls ?_
    exact fun call member => explains (place, call) (mem_callsOf.mp member)

/-- Whatever the policy, the calls that a run of uploads makes and its result are what uploads of the files
come to. -/
theorem exists_calls (store : Store σ) (policy : Policy) (workers : Nat)
    (files : List (Path × List String)) (host : Host (σ × List PutCall)) :
    ∃ result after made, (run store.watched policy workers files).run host = (result, after) ∧
      after.store.2 = host.store.2 ++ made.map Prod.snd ∧ Concluded files made result := by
  obtain ⟨last, after, changes, stopped, ran⟩ := exists_run store.watched policy workers files host
  have followed : Followed files host.store.2 last after := by
    generalize reached : (last, after) = state at changes
    have every : Followed files host.store.2 state.1 state.2 := by
      clear reached
      induction changes with
      | refl => exact followed_ofFiles files host
      | tail _ change ih => exact ih.of_change change
    rw [← reached] at every
    exact every
  obtain ⟨made, called, accounts, explains⟩ := followed
  exact ⟨_, after, made, ran, called, accounts.conclude explains stopped⟩

end Uploads

end PageBuild
