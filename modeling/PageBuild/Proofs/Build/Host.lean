import PageBuild.Build.Job
import PageBuild.Proofs.Files.Result
import PageBuild.Proofs.Files.Walk

/-!
# What actions on hosts leave alone

Narration changes the open log, and an action on the files changes what it changes of them; all
else still stands.
-/
namespace PageBuild

open PageBuild.Action (FailsWith Moves Under)

variable {σ α : Type}

/-- Whether paths are followed from a directory, every name is one step, and an open log is among
what is touched. -/
structure Host.At (here : Location) (touched : Location → Entry → Prop) (host : Host σ) : Prop where
  files : host.files.At here
  log : ∀ log, host.log = some log → ∀ content, touched log (.file content)

/-- Whether all that stands and is not touched still stands later. -/
def Host.Spares (touched : Location → Entry → Prop) (before after : Host σ) : Prop :=
  before.files.Spares touched after.files

instance {touched : Location → Entry → Prop} : IsPreorder (Host σ) (Host.Spares touched) where
  refl host := refl_of (Files.Spares touched) host.files
  trans _ _ _ first second := trans_of (Files.Spares touched) first second

/-- Whether files are kept, but for what is touched, by what follows paths from a directory. -/
abbrev Host.Keeps (here : Location) (touched : Location → Entry → Prop) :
    Host σ → Host σ → Prop :=
  Under (Host.At here touched) (Host.Spares touched)

/-- A host after a line of narration. -/
def Host.told (host : Host σ) (level : Level) (text : String) : Host σ :=
  ((HostM.narrate level text).run host).2

/-- A host that has told of the start of a job. -/
def Host.begun (host : Host σ) (job : Job) : Host σ :=
  host.told .info ("Build " ++ job.buildId ++ " started (env: " ++ job.environment.name ++
    ", template: " ++ job.template.text ++ ")")

namespace HostM

variable {here : Location} {touched : Location → Entry → Prop} {relation : Host σ → Host σ → Prop}

/-- The run of an action on the files. -/
theorem run_onFiles (action : FileM α) (host : Host σ) :
    (onFiles action).run host =
      ((action.run host.files).1.mapError .io, { host with files := (action.run host.files).2 }) := by
  rw [onFiles, Action.run_get_bind]
  generalize action.run host.files = ran
  obtain ⟨result, files⟩ := ran
  cases result <;> rfl

/-- An action on the files that works out changes these alone. -/
theorem of_run_onFiles_ok {action : FileM α} {host after : Host σ} {value : α}
    (ran : (onFiles action).run host = (.ok value, after)) :
    ∃ files, action.run host.files = (.ok value, files) ∧ after = { host with files } := by
  rw [run_onFiles] at ran
  obtain ⟨ended, rfl⟩ := Prod.mk.inj ran
  refine ⟨_, Prod.ext ?_ rfl, rfl⟩
  cases result : (action.run host.files).1 with
  | error cause =>
    rw [result] at ended
    cases ended
  | ok found =>
    rw [result] at ended
    cases ended
    rfl

/-- A look at the files that works out changes nothing. -/
theorem of_run_look_ok {view : Files → Except IoCause α} {host after : Host σ} {value : α}
    (ran : (onFiles (FileM.look view)).run host = (.ok value, after)) :
    view host.files = .ok value ∧ after = host := by
  obtain ⟨files, looked, rfl⟩ := of_run_onFiles_ok ran
  obtain ⟨viewed, rfl⟩ := FileM.run_look_eq_ok.mp looked
  exact ⟨viewed, rfl⟩

/-- A change of the files that works out changes these alone. -/
theorem of_run_change_ok {update : Files → Except IoCause Files} {host after : Host σ}
    (ran : (onFiles (FileM.change update)).run host = (.ok (), after)) :
    ∃ files, update host.files = .ok files ∧ after = { host with files } := by
  obtain ⟨files, changed, rfl⟩ := of_run_onFiles_ok ran
  exact ⟨files, FileM.run_change_eq_ok.mp changed, rfl⟩

/-- The run of a look at the files. -/
theorem run_onFiles_look (view : Files → Except IoCause α) (host : Host σ) :
    (onFiles (FileM.look view)).run host = ((view host.files).mapError .io, host) := by
  rw [run_onFiles, FileM.look, Action.run_get_bind]
  cases view host.files <;> rfl

/-- The run of a narration. -/
theorem run_narrate (level : Level) (text : String) (host : Host σ) :
    (narrate level text).run host =
      (.ok (),
        match host.log with
        | some log =>
          { host with files := host.files.append log (line host.now level text).toUTF8 }
        | none => host) := rfl

/-- What follows a narration goes on from the host that was told. -/
theorem run_info_bind (text : String) (next : Unit → HostM σ α) (host : Host σ) :
    (info text >>= next).run host = (next ()).run (host.told .info text) := rfl

/-- What is told goes to the open log. -/
theorem told_of_open {host : Host σ} {location : Location} (opened : host.log = some location)
    (level : Level) (text : String) :
    host.told level text =
      { host with files := host.files.append location (line host.now level text).toUTF8 } := by
  rw [Host.told, run_narrate, opened]

/-- What is told without an open log is not kept. -/
theorem told_of_closed {host : Host σ} (closed : host.log = none) (level : Level) (text : String) :
    host.told level text = host := by
  rw [Host.told, run_narrate, closed]

/-- What is told leaves the log open that was open. -/
theorem log_told (host : Host σ) (level : Level) (text : String) :
    (host.told level text).log = host.log := by
  cases log : host.log with
  | none => rw [told_of_closed log, log]
  | some location => rw [told_of_open log, log]

/-- What is told changes no more than the open log. -/
theorem find?_told {host : Host σ} {place : Location} (other : host.log ≠ some place) (level : Level)
    (text : String) : (host.told level text).files.tree.find? place = host.files.tree.find? place := by
  cases log : host.log with
  | none => rw [told_of_closed log]
  | some location =>
    rw [told_of_open log]
    refine Files.find?_append ?_
    rintro rfl
    exact other log

/-- What is told leaves sound files sound. -/
theorem isSound_told {host : Host σ} (sound : host.files.IsSound here) (level : Level)
    (text : String) : (host.told level text).files.IsSound here := by
  cases log : host.log with
  | none => rwa [told_of_closed log]
  | some location =>
    rw [told_of_open log]
    have edits : Files.Edits (fun _ => True) host.files
        (host.files.append location (line host.now level text).toUTF8) :=
      Files.edits_append sound fun _ => trivial
    exact edits.isSound sound

/-- What is told leaves paths to be followed from the same directory. -/
theorem at_told {host : Host σ} (at_ : host.files.At here) (level : Level) (text : String) :
    (host.told level text).files.At here := by
  cases log : host.log with
  | none => rwa [told_of_closed log]
  | some location =>
    rw [told_of_open log]
    have kept : Files.Keeps here (fun _ _ => True) host.files
        (host.files.append location (line host.now level text).toUTF8) :=
      Files.keeps_append fun _ => trivial
    exact (kept at_).1

/-- What is told leaves directories where they are. -/
theorem directory_told {host : Host σ} {place : Location}
    (stands : host.files.tree.find? place = some .directory) (level : Level) (text : String) :
    (host.told level text).files.tree.find? place = some .directory := by
  cases log : host.log with
  | none => rwa [told_of_closed log]
  | some location =>
    rw [told_of_open log]
    exact Files.directory_append stands

/-- What is told leaves directories to be found. -/
theorem isDirectory_told {host : Host σ} {path : Path} (stands : host.files.isDirectory path = true)
    (level : Level) (text : String) : (host.told level text).files.isDirectory path = true := by
  cases log : host.log with
  | none => rwa [told_of_closed log]
  | some location =>
    rw [told_of_open log]
    exact Files.isDirectory_append stands

/-- What is told spares all but the open log, and the same directory stays current. -/
theorem spares_told (host : Host σ) (level : Level) (text : String) :
    host.files.Spares (fun place entry => entry ≠ .directory ∧ host.log = some place)
        (host.told level text).files ∧
      (host.told level text).files.here = host.files.here := by
  constructor
  · intro place entry apart stands
    by_cases opened : host.log = some place
    · obtain rfl : entry = .directory := by
        by_contra file
        exact apart ⟨file, opened⟩
      exact directory_told stands level text
    · rw [find?_told opened, stands]
  · cases log : host.log with
    | none => rw [told_of_closed log]
    | some location =>
      rw [told_of_open log]
      exact Files.here_append _ _ _

/-- What was attempted is known, and changes what it changes. -/
theorem run_attempt (action : HostM σ α) (host : Host σ) :
    (attempt action).run host = (.ok (action.run host).1, (action.run host).2) := rfl

/-- An attempt moves as the action does. -/
theorem moves_attempt {action : HostM σ α} (moved : Moves relation action) :
    Moves relation (attempt action) := moved

/-- An action on the files keeps what it keeps of them. -/
theorem keeps_onFiles {action : FileM α} (kept : Moves (Files.Keeps here touched) action) :
    Moves (Host.Keeps here touched) (onFiles action : HostM σ α) := by
  intro host at_
  obtain ⟨files, spared⟩ := kept host.files at_.files
  rw [run_onFiles]
  exact ⟨⟨files, at_.log⟩, spared⟩

/-- Narration changes the log alone. -/
theorem keeps_narrate (level : Level) (text : String) :
    Moves (Host.Keeps here touched) (narrate level text : HostM σ Unit) := by
  intro host at_
  rw [run_narrate]
  cases log : host.log with
  | none => exact ⟨at_, refl_of (Host.Spares touched) host⟩
  | some location =>
    have kept : Files.Keeps here touched host.files
        (host.files.append location (line host.now level text).toUTF8) :=
      Files.keeps_append (at_.log location log)
    obtain ⟨files, spared⟩ := kept at_.files
    exact ⟨⟨files, fun _ same => at_.log _ (log.trans same)⟩, spared⟩

/-- An action on the files fails as it does on them. -/
theorem failsWith_onFiles {known : IoCause → Prop} {action : FileM α}
    (causes : FailsWith known action) :
    FailsWith (fun failure => ∃ cause, known cause ∧ failure = .io cause)
      (onFiles action : HostM σ α) := by
  intro host failure after ran
  rw [run_onFiles] at ran
  obtain ⟨failed, -⟩ := Prod.mk.inj ran
  cases ended : action.run host.files with
  | mk result files =>
    rw [ended] at failed
    cases result with
    | ok value => cases failed
    | error cause =>
      cases failed
      exact ⟨cause, causes _ _ _ ended, rfl⟩

end HostM

end PageBuild
