import Mathlib.Tactic.SplitIfs
import PageBuild.Build.Request

/-!
# What a request carries

A job and its settings go into a request and come out of it again (`BuildRequest.parts_of`). The job
comes out as it was. Of the settings two are rounded on the way: a time limit to whole seconds, of
which there is at least one, and the number of uploads to 32 bits (`Settings.carried`). The other way
round, what a request yields makes the same request again, but for a limit of no seconds.
-/
namespace PageBuild

namespace Environment

/-- The names of the targets. -/
def names : List String := ["fat", "uat", "pre", "pro"]

/-- A target is known by its name. -/
theorem ofName?_name (environment : Environment) : ofName? environment.name = some environment := by
  cases environment <;> rfl

/-- Only the name of a target is known as that target. -/
theorem name_of_ofName? {text : String} {environment : Environment}
    (known : ofName? text = some environment) : environment.name = text := by
  unfold ofName? at known
  split_ifs at known with fat uat pre pro <;> cases known <;> simp_all [name]

/-- A text is known as a target exactly if it is one of the names. -/
theorem exists_ofName? {text : String} : (∃ environment, ofName? text = some environment) ↔ text ∈ names := by
  constructor
  · rintro ⟨environment, known⟩
    rw [← name_of_ofName? known]
    cases environment <;> simp [names, name]
  · intro member
    simp only [names, List.mem_cons, List.not_mem_nil, or_false] at member
    rcases member with rfl | rfl | rfl | rfl <;> exact ⟨_, rfl⟩

end Environment

/-- Settings as a request carries them: a time limit is a whole number of seconds, at least one, and
the number of uploads is taken modulo the numbers of 32 bits. -/
def Settings.carried (settings : Settings) : Settings :=
  { settings with
    timeout := settings.timeout.map fun limit => .ofSeconds (.ofNat (max 1 limit.seconds.toNat))
    uploadParallelism := .ofNat (settings.uploadParallelism.toNat % UInt32.size) }

namespace BuildRequest

/-- The greater of a number of seconds and one, as a natural number. -/
theorem toNat_max_one (seconds : UInt64) : (max seconds 1).toNat = max 1 seconds.toNat := by
  have one : (1 : UInt64).toNat = 1 := rfl
  change (if seconds ≤ 1 then 1 else seconds).toNat = _
  by_cases small : seconds ≤ 1
  · have := UInt64.le_iff_toNat_le.mp small
    rw [if_pos small]
    omega
  · have := mt UInt64.le_iff_toNat_le.mpr small
    rw [if_neg small]
    omega

/-- The greater of a number of seconds and one is one of 64 bits. -/
theorem max_one (seconds : UInt64) : max seconds 1 = .ofNat (max 1 seconds.toNat) := by
  have bounded : max 1 seconds.toNat < 2 ^ 64 := by
    have := seconds.toNat_lt
    omega
  apply UInt64.toNat_inj.mp
  rw [toNat_max_one, UInt64.toNat_ofNat_of_lt' bounded]

/-- The greater of a number of seconds and one is that number, but for none. -/
theorem max_one_eq (seconds : UInt64) : max seconds 1 = if seconds = 0 then 1 else seconds := by
  have zero : (0 : UInt64).toNat = 0 := rfl
  apply UInt64.toNat_inj.mp
  rw [toNat_max_one]
  split
  · rename_i none
    rw [none]
    rfl
  · rename_i some
    have := mt UInt64.toNat_inj.mp some
    omega

/-- A number of uploads in 32 bits, back in 64, is the number modulo those of 32 bits. -/
theorem toUInt64_toUInt32 (count : UInt64) :
    count.toUInt32.toUInt64 = .ofNat (count.toNat % UInt32.size) := by
  have bounded : count.toNat % UInt32.size < UInt64.size := by
    unfold UInt32.size UInt64.size
    omega
  apply UInt64.toNat_inj.mp
  rw [UInt64.toNat_ofNat_of_lt' bounded, UInt32.toNat_toUInt64, UInt64.toNat_toUInt32]

/-- The settings of a request are those that it was made of, as it carries them. -/
theorem settings_of (job : Job) (settings : Settings) :
    (BuildRequest.of job settings).settings = settings.carried := by
  simp only [BuildRequest.settings, BuildRequest.of, Settings.carried, max_one, toUInt64_toUInt32,
    Option.map_map, Function.comp_def]

/-- The job of a request in its target is the one that it was made of. -/
theorem job_of (job : Job) (settings : Settings) :
    (BuildRequest.of job settings).job job.environment = job := by
  simp [BuildRequest.job, BuildRequest.of, Function.comp_def]

/-- A request yields the job that it was made of, with the settings that it carries. -/
theorem parts_of (job : Job) (settings : Settings) :
    (BuildRequest.of job settings).parts = .ok (job, (BuildRequest.of job settings).settings) := by
  have known : Environment.ofName? (BuildRequest.of job settings).environment =
      some job.environment := Environment.ofName?_name job.environment
  rw [parts, known]
  dsimp only
  rw [job_of]

/-- A request with a limit of at least one second. -/
def raised (request : BuildRequest) : BuildRequest :=
  { request with
    timeoutSeconds := request.timeoutSeconds.map fun seconds => if seconds = 0 then 1 else seconds }

/-- What a request in a target yields makes the request again. -/
theorem of_job_settings {request : BuildRequest} {environment : Environment}
    (named : environment.name = request.environment) :
    BuildRequest.of (request.job environment) request.settings = request.raised := by
  simp only [BuildRequest.of, BuildRequest.job, BuildRequest.settings, raised, named, max_one_eq,
    Duration.ofSeconds, Option.map_map, Function.comp_def, Option.map_id', UInt32.toUInt32_toUInt64]
  rfl

/-- A request yields what it was made of: the job as it was, and the settings as it carries them. And a
request that names a target yields what it can be made of again, but for a limit of no seconds, which
becomes one of one second, while every other request is refused. -/
theorem carries_build :
    (∀ (job : Job) (settings : Settings),
      (BuildRequest.of job settings).parts = .ok (job, settings.carried)) ∧
    ∀ request : BuildRequest,
      (request.environment ∈ Environment.names ∧ ∃ job settings,
        request.parts = .ok (job, settings) ∧ BuildRequest.of job settings = request.raised) ∨
      (request.environment ∉ Environment.names ∧
        request.parts = .error (.unknownEnvironment request.environment)) := by
  refine ⟨fun job settings => ?_, fun request => ?_⟩
  · rw [parts_of, settings_of]
  · rw [parts, ← Environment.exists_ofName?]
    cases known : Environment.ofName? request.environment with
    | some environment =>
      exact .inl ⟨⟨environment, rfl⟩, _, _, rfl, of_job_settings (Environment.name_of_ofName? known)⟩
    | none => exact .inr ⟨by simp, rfl⟩

end BuildRequest

end PageBuild
