import PageBuild.Build.Job
import PageBuild.Build.Staging
import PageBuild.Proofs.Files.Path

/-!
# Paths of builds

Each build has a directory named by its id and a log named by its id and an extension, all under one
root. So the paths of two builds lie apart unless the id of one is the id of the other with the
extension: then the directory of the one is the log of the other.
-/
namespace PageBuild

/-- The places of a job. -/
def Job.staging (job : Job) : Staging := Staging.ofBuild job.template job.buildId job.stagingRoot

/-- The id of a job that is accepted is a name. -/
theorem Job.isName_buildId {job : Job} (accepted : job.validate = .ok ()) :
    Path.IsName job.buildId := by
  apply Path.isName_of_isPlainName
  rw [validate, flaw?] at accepted
  by_cases plain : Text.isPlainName job.buildId = true
  · exact plain
  · by_cases blank : Text.isAllBlank job.buildId = true <;> simp [plain, blank] at accepted

namespace Staging

/-- The extension of logs. -/
def logExtension : String := ".log"

/-- The log of a name is a name. -/
theorem isName_log {id : String} (isName : Path.IsName id) : Path.IsName (id ++ logExtension) :=
  isName.append (by decide) (by decide : _ = some 'g') (by decide)

/-- The names of the directory and of the log of a build. -/
def names (id : String) : List String := [id, id ++ logExtension]

/-- The paths of a build. -/
def paths (staging : Staging) : List Path := [staging.buildDir, staging.logPath]

/-- Whether no path of one build is or lies below a path of the other. -/
def Disjoint (first second : Staging) : Prop :=
  ∀ path ∈ first.paths, ∀ other ∈ second.paths,
    ¬path.parts <+: other.parts ∧ ¬other.parts <+: path.parts

instance (first second : Staging) : Decidable (first.Disjoint second) :=
  inferInstanceAs (Decidable (∀ _ ∈ _, ∀ _ ∈ _, _))

/-- The paths of a build are its names below the root. -/
theorem paths_eq (job : Job) :
    job.staging.paths = (names job.buildId).map fun name => job.staging.root.join ⟨name⟩ := rfl

/-- The names of an id are names. -/
theorem isName_names {id : String} (isName : Path.IsName id) :
    ∀ name ∈ names id, Path.IsName name := by
  simp only [names, List.forall_mem_cons]
  exact ⟨isName, isName_log isName, by simp⟩

/-- Different ids have different names unless one is the log of the other. -/
theorem names_disjoint_iff {first second : String} (distinct : first ≠ second) :
    (∀ name ∈ names first, ∀ other ∈ names second, name ≠ other) ↔
      first ≠ second ++ logExtension ∧ second ≠ first ++ logExtension := by
  simp only [names, List.forall_mem_cons, List.not_mem_nil, false_implies, implies_true, and_true]
  have logs : first ++ logExtension ≠ second ++ logExtension := by
    exact fun same => distinct ((String.append_left_inj logExtension).mp same)
  exact ⟨fun apart => ⟨apart.1.2, apart.2.1.symm⟩,
    fun apart => ⟨⟨distinct, apart.1⟩, apart.2.symm, logs⟩⟩

/-- The paths of two builds with different ids below one root lie apart unless one id is the name of
the log of the other. -/
theorem disjoint_iff {first second : Job} (isName : Path.IsName first.buildId)
    (other : Path.IsName second.buildId) (distinct : first.buildId ≠ second.buildId)
    (shared : first.staging.root = second.staging.root) :
    first.staging.Disjoint second.staging ↔
      first.buildId ≠ second.buildId ++ logExtension ∧
        second.buildId ≠ first.buildId ++ logExtension := by
  rw [← names_disjoint_iff distinct, Disjoint, paths_eq, paths_eq]
  simp only [List.forall_mem_map]
  refine forall₂_congr fun name member => forall₂_congr fun another within => ?_
  rw [shared, (isName_names isName name member).parts_join,
    (isName_names other another within).parts_join]
  simp [List.prefix_append_right_inj, eq_comm]

end Staging

end PageBuild
