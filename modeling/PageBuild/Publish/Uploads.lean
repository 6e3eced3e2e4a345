import PageBuild.Publish.Store

/-!
# Uploads

Files are uploaded by a number of workers at once. A worker takes a file that waits and puts it
under its keys, one after the other, up to the first that fails. Once an upload has failed no
file needs to be taken any more; the files already taken are carried on with. In which order the
workers proceed is the choice of a policy.
-/
namespace PageBuild

/-- A file with the keys it is still to be put under. -/
structure Upload where
  /-- The place of the file among all files. -/
  place : Nat
  file : Path
  keys : List String
  deriving DecidableEq, Repr

/-- Uploads under way. -/
structure Uploads where
  /-- The files that no worker has taken. -/
  waiting : List Upload
  /-- The files that workers have taken. -/
  taken : List Upload
  /-- The failure of the foremost file that failed, with its place. -/
  failure : Option (Nat × Failure)
  deriving DecidableEq, Repr

namespace Uploads

/-- What happens next. -/
inductive Pick where
  /-- A worker takes a file that waits. -/
  | take (index : Nat)
  /-- A worker puts a file that it has taken under its next key. -/
  | put (index : Nat)
  /-- The workers stop. -/
  | stop
  deriving DecidableEq, Repr

/-- The choice of what happens next, from the number of steps so far and the uploads. -/
abbrev Policy := Nat → Uploads → Pick

/-- The policy that uploads one file after the other and stops at the first failure. -/
def Policy.inOrder : Policy := fun _ _ => .stop

/-- Whether a choice is open to a number of workers; zero leaves their number open. -/
def allows (uploads : Uploads) (workers : Nat) : Pick → Bool
  | .take index =>
    index < uploads.waiting.length && (workers = 0 || uploads.taken.length < workers)
  | .put index => index < uploads.taken.length
  | .stop => uploads.taken.isEmpty && (uploads.waiting.isEmpty || uploads.failure.isSome)

/-- What happens when the choice is not open: the first file taken goes on, then the workers
stop if they may, and then the first file is taken. -/
def default (uploads : Uploads) : Pick :=
  if !uploads.taken.isEmpty then .put 0
  else if uploads.waiting.isEmpty || uploads.failure.isSome then .stop
  else .take 0

/-- What happens under a policy. -/
def choose (policy : Policy) (workers step : Nat) (uploads : Uploads) : Pick :=
  let pick := policy step uploads
  if uploads.allows workers pick then pick else uploads.default

/-- A failure to put a file, as a failure to publish. -/
def publishFailure (file : Path) : Failure → Failure
  | .publish reason => .publish reason
  | other => .publish (file.text ++ ": " ++ other.message)

/-- The uploads after the failure of a file. -/
def fail (uploads : Uploads) (place : Nat) (failure : Failure) : Uploads :=
  match uploads.failure with
  | some (earlier, _) =>
    if earlier < place then uploads else { uploads with failure := some (place, failure) }
  | none => { uploads with failure := some (place, failure) }

variable {σ : Type}

/-- Put a file that was taken under its next key. -/
def putNext (store : Store σ) (index : Nat) (upload : Upload) (uploads : Uploads) :
    HostM σ Uploads := do
  match upload.keys with
  | [] => return { uploads with taken := uploads.taken.eraseIdx index }
  | key :: keys =>
    match ← HostM.attempt (store.put key upload.file upload.file.cacheControl) with
    | .ok () =>
      HostM.info ("Uploaded " ++ key)
      if keys.isEmpty then return { uploads with taken := uploads.taken.eraseIdx index }
      else return { uploads with taken := uploads.taken.set index { upload with keys } }
    | .error failure =>
      return { uploads with taken := uploads.taken.eraseIdx index }.fail upload.place
        (publishFailure upload.file failure)

/-- One step of the workers. -/
def step (store : Store σ) (pick : Pick) (uploads : Uploads) : HostM σ Uploads := do
  match pick with
  | .stop => return uploads
  | .take index =>
    match uploads.waiting[index]? with
    | none => return uploads
    | some upload =>
      return { uploads with
        waiting := uploads.waiting.eraseIdx index
        taken := uploads.taken ++ [upload] }
  | .put index =>
    match uploads.taken[index]? with
    | none => return uploads
    | some upload => putNext store index upload uploads

/-- The steps of the workers until they stop, up to a number of steps. -/
def steps (store : Store σ) (policy : Policy) (workers : Nat) : Nat → Uploads → HostM σ Uploads
  | 0, uploads => return uploads
  | fuel + 1, uploads => do
    match choose policy workers fuel uploads with
    | .stop => return uploads
    | pick => steps store policy workers fuel (← step store pick uploads)

/-- A number of steps that the workers do not exceed: each file is taken once, and put under each
of its keys once. -/
def bound (uploads : Uploads) : Nat :=
  uploads.waiting.foldl (fun steps upload => steps + upload.keys.length + 2) 0 +
    uploads.taken.foldl (fun steps upload => steps + upload.keys.length + 1) 0 + 1

/-- The uploads of files with their keys. -/
def ofFiles (files : List (Path × List String)) : Uploads :=
  ⟨files.mapIdx fun place (file, keys) => ⟨place, file, keys⟩, [], none⟩

/-- Upload files under their keys. -/
def run (store : Store σ) (policy : Policy) (workers : Nat) (files : List (Path × List String)) :
    HostM σ Unit := do
  let uploads := ofFiles files
  match (← steps store policy workers uploads.bound uploads).failure with
  | some (_, failure) => throw failure
  | none => return ()

end Uploads

end PageBuild
