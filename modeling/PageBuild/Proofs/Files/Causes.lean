import PageBuild.Files.Access
import PageBuild.Proofs.Action

/-!
# Causes of failed operations

Making directories, writing and copying fail for a few causes only, and no text of these ends as the
refusal of a version that exists does.
-/
namespace PageBuild

open PageBuild.Action (FailsWith)

/-- Whether a cause is one for which files are not found, made or written. -/
def IoCause.IsPlain : IoCause → Prop
  | .walking _ _ | .noTemplate _ => False
  | .other message => message = "failed to create whole tree"
  | _ => True

/-- The words of such a cause end in a mark or in another letter than s. -/
theorem IoCause.IsPlain.message_end {cause : IoCause} (plain : cause.IsPlain) :
    cause.message.toList.getLast? ≠ some 's' := by
  cases cause with
  | walking path cause | noTemplate path => cases plain
  | other message =>
    obtain rfl : message = "failed to create whole tree" := plain
    decide +kernel
  | _ => decide +kernel

namespace Files

variable {files : Files} {path : Path} {cause : IoCause}

/-- Pieces are not followed for a plain cause. -/
theorem isPlain_of_follow {tree : FileTree} {location : Location} {pieces : List String}
    (failed : follow tree location pieces = .error cause) : cause.IsPlain := by
  induction pieces generalizing location with
  | nil => cases failed
  | cons piece pieces ih =>
    rw [follow] at failed
    split at failed
    · cases failed
      trivial
    · cases failed
      trivial
    · split at failed
      · exact ih failed
      · split at failed
        · exact ih failed
        · split at failed
          · cases failed
            trivial
          · exact ih failed

/-- A path is not located for a plain cause. -/
theorem isPlain_of_locate (failed : files.locate path = .error cause) : cause.IsPlain := by
  rw [locate] at failed
  split at failed
  · cases failed
    trivial
  · split at failed
    · cases failed
      trivial
    · split at failed
      · cases failed
        trivial
      · dsimp only at failed
        split at failed
        · cases failed
        · rename_i found
          cases failed
          exact isPlain_of_follow found

/-- Nothing is found at a path for a plain cause. -/
theorem isPlain_of_stat (failed : files.stat path = .error cause) : cause.IsPlain := by
  rw [stat] at failed
  split at failed
  · rename_i found
    cases failed
    exact isPlain_of_locate found
  · split at failed
    · cases failed
      trivial
    · cases failed
    · split at failed
      · cases failed
        trivial
      · cases failed

/-- A directory is not made for a plain cause. -/
theorem isPlain_of_makeDirectory (failed : files.makeDirectory path = .error cause) :
    cause.IsPlain := by
  rw [makeDirectory] at failed
  split at failed
  · rename_i found
    cases failed
    exact isPlain_of_locate found
  · split at failed
    · cases failed
      trivial
    · cases failed

/-- A file is not written for a plain cause. -/
theorem isPlain_of_writeFile {content : ByteArray}
    (failed : files.writeFile path content = .error cause) : cause.IsPlain := by
  rw [writeFile] at failed
  split at failed
  · rename_i found
    cases failed
    exact isPlain_of_locate found
  · split at failed
    · cases failed
      trivial
    · split at failed
      · cases failed
        trivial
      · cases failed
    · split at failed
      · cases failed
        trivial
      · cases failed

/-- A file is not read for a plain cause. -/
theorem isPlain_of_readFile (failed : files.readFile path = .error cause) : cause.IsPlain := by
  rw [readFile] at failed
  split at failed
  · rename_i found
    cases failed
    exact isPlain_of_stat found
  · cases failed
    trivial
  · cases failed

/-- A file is not copied for a plain cause. -/
theorem isPlain_of_copyFile {target : Path}
    (failed : files.copyFile path target = .error cause) : cause.IsPlain := by
  rw [copyFile] at failed
  split at failed
  · rename_i found
    cases failed
    exact isPlain_of_stat found
  · cases failed
    trivial
  · split at failed
    · rename_i found
      cases failed
      exact isPlain_of_writeFile found
    · split at failed
      · rename_i found
        cases failed
        exact isPlain_of_readFile found
      · exact isPlain_of_writeFile failed

end Files

namespace FileM

/-- A change of the files fails as its operation does. -/
theorem failsWith_change {update : Files → Except IoCause Files} {known : IoCause → Prop}
    (causes : ∀ files cause, update files = .error cause → known cause) :
    FailsWith known (change update) := by
  refine Action.failsWith_get_bind fun files => ?_
  split
  · exact fun _ _ _ ran => by cases ran
  · rename_i cause found
    exact Action.failsWith_throw (causes files cause found)

/-- Directories are not made for a plain cause. -/
theorem failsWith_makeDirectories (depth : Nat) (path : Path) :
    FailsWith IoCause.IsPlain (makeDirectories depth path) := by
  induction depth generalizing path with
  | zero => exact Action.failsWith_throw rfl
  | succ depth ih =>
    have refused : ∀ cause : IoCause, cause.IsPlain → FailsWith IoCause.IsPlain (do
        if !(← get).isDirectory path then throw cause else pure () : FileM Unit) := by
      intro cause plain
      refine Action.failsWith_get_bind fun files => ?_
      split
      · exact Action.failsWith_throw plain
      · exact Action.failsWith_pure _
    have stored : ∀ files : Files, FailsWith IoCause.IsPlain (set files : FileM PUnit) :=
      fun _ _ _ _ ran => by cases ran
    rw [makeDirectories]
    split
    · exact Action.failsWith_pure _
    · refine Action.failsWith_get_bind fun files => ?_
      split
      · exact stored _
      · split
        · exact Action.failsWith_throw rfl
        · refine (ih _).bind fun _ => Action.failsWith_get_bind fun files => ?_
          split
          · exact stored _
          · rename_i found
            exact refused _ (Files.isPlain_of_makeDirectory found)
      · rename_i found
        exact refused _ (Files.isPlain_of_makeDirectory found)

/-- The directories that a path lies in are not made for a plain cause. -/
theorem failsWith_ensureParent (path : Path) :
    FailsWith IoCause.IsPlain (ensureParent path) := by
  rw [ensureParent]
  split
  · exact failsWith_makeDirectories _ _
  · exact Action.failsWith_pure _

end FileM

end PageBuild
