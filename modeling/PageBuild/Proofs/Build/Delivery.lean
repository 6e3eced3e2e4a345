import Mathlib.Data.List.Infix
import PageBuild.Proofs.Build.Ending
import PageBuild.Proofs.Build.Ledger
import PageBuild.Proofs.Files.Lasting

/-!
# The end of a build

However the steps of a build end, its log is put once into the store that there is, after everything
else, and then the directory of the build and the log are removed; without a store nothing is removed
(`Build.log_delivered`). This needs a way to the staging root that does not lead through the directory
of the build: staging clears this directory, and then the log can no longer be reached by its path.
-/
namespace PageBuild

open PageBuild.Action (Moves Under)
open Files (Edit)

variable {σ : Type} {here : Location} {host after : Host σ}

/-! ## The places of a build -/

namespace Staging

variable {job : Job} {files later : Files}

/-- The log of a build does not stand in its directory. -/
theorem not_isPrefix_log (named : Path.IsName job.buildId) :
    ¬job.staging.buildDir.place here <+: job.staging.logPath.place here := by
  intro below
  have directory : job.staging.buildDir.place here = job.staging.root.place here ++ [job.buildId] :=
    named.place_join _ _
  have log : job.staging.logPath.place here =
      job.staging.root.place here ++ [job.buildId ++ logExtension] :=
    (isName_log named).place_join _ _
  rw [directory, log, List.prefix_append_right_inj] at below
  have size := congrArg String.utf8ByteSize (List.cons_prefix_cons.mp below).1
  rw [String.utf8ByteSize_append] at size
  have longer : logExtension.utf8ByteSize = 4 := by decide
  omega

/-- What is done within the directory of a build leaves its log to be found, if the way to the staging
root does not lead through the directory. -/
theorem leaves_log (named : Path.IsName job.buildId)
    (way : job.staging.root.Avoids (fun place => job.staging.buildDir.place here <+: place) here)
    {edit : Edit} (within : edit.IsWithin here job.staging.buildDir) :
    edit.Leaves here job.staging.logPath := by
  have apart := @not_isPrefix_log here job named
  cases edit with
  | make place => trivial
  | write place content => trivial
  | remove place =>
    rintro rfl
    exact apart within
  | clear place =>
    intro other leads below
    have isName := isName_log named
    rcases leads.of_join_single isName.pieces isName.isAbsolute with leads | rfl
    · exact way.of_leads leads (within.trans below)
    · exact apart (within.trans below)

/-- To remove what a build left is to remove its directory and its log, where they exist. -/
theorem of_run_clean_ok {staging : Staging} (ran : staging.clean.run files = (.ok (), later)) :
    ∃ cleared,
      (files.removeTree staging.buildDir = .ok cleared ∨
        files.pathExists staging.buildDir = false ∧ cleared = files) ∧
      (cleared.removeFile staging.logPath = .ok later ∨
        cleared.pathExists staging.logPath = false ∧ later = cleared) := by
  have rest : ∀ cleared : Files,
      (do
        if (← get).pathExists staging.logPath then FileM.change (·.removeFile staging.logPath) :
          FileM Unit).run cleared = (.ok (), later) →
        cleared.removeFile staging.logPath = .ok later ∨
          cleared.pathExists staging.logPath = false ∧ later = cleared := by
    intro cleared ran
    rw [Action.run_get_bind] at ran
    split at ran
    · exact .inl (FileM.run_change_eq_ok.mp ran)
    · rename_i absent
      cases ran
      exact .inr ⟨by simpa using absent, rfl⟩
  rw [clean, Action.run_get_bind] at ran
  split at ran
  · obtain ⟨done, cleared, removed, ran⟩ := Action.of_run_bind_ok ran
    exact ⟨cleared, .inl (FileM.run_change_eq_ok.mp removed), rest cleared ran⟩
  · rename_i absent
    exact ⟨files, .inr ⟨by simpa using absent, rfl⟩, rest files ran⟩

/-- Once what a build left is removed, neither its directory nor its log is there. -/
theorem gone_of_clean (named : Path.IsName job.buildId)
    (way : job.staging.root.Avoids (fun place => job.staging.buildDir.place here <+: place) here)
    (sound : files.IsSound here) (stands : files.isFile job.staging.logPath = true)
    (ran : job.staging.clean.run files = (.ok (), later)) :
    later.tree.find? (job.staging.buildDir.place here) = none ∧
      later.tree.find? (job.staging.logPath.place here) = none := by
  obtain ⟨cleared, directory, log⟩ := of_run_clean_ok ran
  have cleared_gone : cleared.tree.find? (job.staging.buildDir.place here) = none := by
    rcases directory with removed | ⟨absent, rfl⟩
    · have below : job.staging.buildDir.place here ≠ [] := by
        intro root
        exact not_isPrefix_log named (root ▸ List.nil_prefix)
      rw [Files.find?_of_removeTree sound.toAt removed below, if_pos List.prefix_rfl]
    · obtain ⟨location, content, located, -⟩ := Files.isFile_iff.mp stands
      obtain ⟨base, next⟩ := Files.locate_sibling named (isName_log named) located
      exact Files.find?_of_not_exists sound.toAt next absent
  have edits : Files.Edits (Edit.IsWithin here job.staging.buildDir) files cleared := by
    rcases directory with removed | ⟨-, rfl⟩
    · exact (Files.applies_removeTree sound removed).edits List.prefix_rfl
    · exact refl_of (Files.Edits _) cleared
  have still : cleared.isFile job.staging.logPath = true :=
    edits.isFile sound (fun edit => leaves_log named way) stands
  have removed : cleared.removeFile job.staging.logPath = .ok later := by
    refine log.resolve_right fun ⟨absent, _⟩ => ?_
    rw [Files.pathExists_of_isFile still] at absent
    cases absent
  have cleared_at := (edits.isSound sound).toAt
  constructor
  · rw [Files.find?_of_removeFile cleared_at removed, cleared_gone, ite_self]
  · rw [Files.find?_of_removeFile cleared_at removed, if_pos rfl]

end Staging

/-! ## The log -/

namespace Publisher

/-- A log that is there is put, and its URL is that of its key if this works out. -/
theorem run_uploadLog (publisher : Publisher) (store : Store σ) {log : Path} (app : AppInfo)
    (environment : Environment) (stands : host.files.isFile log = true) :
    (publisher.uploadLog store log app environment).run host =
      match (store.put (publisher.logKey app environment host.now) log log.cacheControl).run host with
      | (.ok (), put) => (.ok (publisher.baseUrl ++ publisher.logKey app environment host.now), put)
      | (.error failure, put) =>
        (.ok "", put.told .warning ("Build log upload failed: " ++ failure.message)) := by
  rw [uploadLog, Action.run_get_bind]
  simp only [Files.pathExists_of_isFile stands, Bool.not_true, Bool.false_eq_true, ↓reduceIte]
  rw [Action.run_get_bind, Action.run_bind_of_ok (HostM.run_attempt _ _)]
  generalize (store.put (publisher.logKey app environment host.now) log log.cacheControl).run host =
    ran
  obtain ⟨outcome, put⟩ := ran
  cases outcome <;> rfl

end Publisher

/-- Whether commands leave files sound, and a file to be found by its path. -/
structure Runner.Spares (runner : Runner) (here : Location) (path : Path) : Prop where
  sound : ∀ call files, files.IsSound here → (runner call files).2.IsSound here
  isFile : ∀ call files, files.IsSound here → files.isFile path = true →
    (runner call files).2.isFile path = true

/-- Whether an edit writes the log of a job. -/
def Job.Logs (job : Job) (here : Location) (edit : Edit) : Prop :=
  ∃ content, edit = .write (job.staging.logPath.place here) content

namespace Build

variable {tools : Tools} {settings : Settings} {job : Job} {schema : Schema}

/-- Whether the log of a job is open, in sound files, and found by its path. -/
structure Attends (here : Location) (job : Job) (host : Host σ) : Prop
    extends host.IsTended here (some (job.staging.logPath.place here)) where
  isFile : host.files.isFile job.staging.logPath = true

/-- What is done to hosts that have the log of a job open, by edits that leave it to be found. -/
abbrev Minds (here : Location) (job : Job) : Host σ → Host σ → Prop :=
  Host.Performs here (some (job.staging.logPath.place here))
    (Edit.Leaves here job.staging.logPath)

/-- The log stays open and found. -/
theorem Attends.of_minds (attends : Attends here job host) (minds : Minds here job host after) :
    Attends here job after := by
  obtain ⟨tended, edits⟩ := minds attends.toIsTended
  exact ⟨tended, edits.isFile attends.sound (fun _ => id) attends.isFile⟩

/-- To narrate is to write the log. -/
theorem minds_narrate (level : Level) (text : String) :
    Moves (Minds here job) (HostM.narrate level text : HostM σ Unit) :=
  HostM.performs_narrate (fun _ _ _ => trivial) level text

/-- What is told is written into the log, which is still found. -/
theorem Attends.told (attends : Attends here job host) (level : Level) (text : String) :
    Attends here job (host.told level text) ∧
      Files.Edits (job.Logs here) host.files (host.told level text).files := by
  refine ⟨attends.of_minds (minds_narrate level text host), ?_⟩
  refine (HostM.performs_narrate (fun location opened content => ?_) level text host
    attends.toIsTended).2
  obtain rfl := Option.some.inj opened
  exact ⟨content, rfl⟩

/-- A log that was opened is found, and the store was left alone. -/
theorem attends_of_openLog (named : Path.IsName job.buildId) (sound : host.files.IsSound here)
    (opening : (openLog job.staging.logPath).run host = (.ok (), after)) :
    Attends here job after ∧ host.SameStore after := by
  have tended : after.IsTended here (some (job.staging.logPath.place here)) := by
    have opens := @edited_openLog σ here (fun _ => True) job host named sound
    exact (opens (fun _ _ => trivial) fun _ => trivial).2 after opening
  have same := sameStore_openLog job.staging.logPath host
  rw [opening] at same
  refine ⟨⟨tended, ?_⟩, same⟩
  obtain ⟨_, ensured, -, ran⟩ := Action.of_run_bind_ok opening
  obtain ⟨_, written, change, ran⟩ := Action.of_run_bind_ok ran
  obtain ⟨located, last, looked, ended⟩ := Action.of_run_bind_ok ran
  obtain ⟨files, wrote, rfl⟩ := HostM.of_run_change_ok change
  obtain ⟨-, rfl⟩ := HostM.of_run_look_ok looked
  cases ended
  have stands := Files.stat_of_writeFile wrote
  simp [Files.isFile, stands]

/-- The log is still found when the steps of a build have ended, if the bundler leaves it there. -/
theorem attends_execute (settings : Settings) (schema : Schema) (named : Path.IsName job.buildId)
    (way : job.staging.root.Avoids (fun place => job.staging.buildDir.place here <+: place) here)
    (spares : Runner.Spares tools.runner here job.staging.logPath)
    (attends : Attends here job host) :
    Attends here job ((execute tools settings job schema job.staging).run host).2 := by
  have around : Under (Host.IsTended here (some (job.staging.logPath.place here)))
      (Host.EditedAround (fun files => (tools.runner (bundlerCall settings job.staging job
        (job.staging.logPath.place here)) files).2) (Edit.Leaves here job.staging.logPath))
      host ((execute tools settings job schema job.staging).run host).2 :=
    around_execute named (fun _ => Staging.leaves_log named way) (fun _ => trivial) spares.sound
  obtain ⟨tended, edits | ⟨called, edits, more⟩⟩ := around attends.toIsTended
  · exact ⟨tended, edits.isFile attends.sound (fun _ => id) attends.isFile⟩
  · have sound := edits.isSound attends.sound
    have found := edits.isFile attends.sound (fun _ => id) attends.isFile
    exact ⟨tended, more.isFile (spares.sound _ called sound) (fun _ => id)
      (spares.isFile _ called sound found)⟩

/-! ## Builds -/

/-- Whether the log of a job is put once, after all that else is put, with a URL if this works out; and
whether after this the directory of the build and the log are removed, if this works out. -/
structure Delivers (here : Location) (job : Job) (baseUrl : String)
    (before after : Host (σ × List Deposit)) (logUrl : String) : Prop where
  once : ∃ made key kept,
    after.store.2 = before.store.2 ++ made ++ [⟨key, job.staging.logPath, kept⟩] ∧
      (∀ deposit ∈ made, deposit.file.place here ≠ job.staging.logPath.place here) ∧
      logUrl = if kept then baseUrl ++ key else ""
  last : ∃ uploaded : Host (σ × List Deposit), uploaded.store = after.store ∧
    uploaded.files.isFile job.staging.logPath = true ∧
    after.files = (job.staging.clean.run uploaded.files).2 ∧
    ((job.staging.clean.run uploaded.files).1 = .ok () →
      after.files.tree.find? (job.staging.buildDir.place here) = none ∧
        after.files.tree.find? (job.staging.logPath.place here) = none)

/-- Whether nothing but the log is changed after the steps of a build, and the log is there. -/
structure Retains (tools : Tools) (settings : Settings) (job : Job) (schema : Schema) (here : Location)
    (before after : Host σ) : Prop where
  rest : ∃ outcome worked,
    (execute tools settings job schema job.staging).run (before.begun job) = (outcome, worked) ∧
      Files.Edits (job.Logs here) worked.files after.files
  log : after.files.isFile job.staging.logPath = true

variable {store : Store σ}

/-- In the end the log is put, and what the build left is removed. -/
theorem delivers_finish {result : BuildResult} {host : Host (σ × List Deposit)}
    (named : Path.IsName job.buildId)
    (way : job.staging.root.Avoids (fun place => job.staging.buildDir.place here <+: place) here)
    (puts : ∀ key file cache, Moves (Minds here job) (store.put key file cache))
    (attends : Attends here job host) :
    ∃ logUrl after, (finish settings job schema job.staging store.recorded result).run host =
        (.ok { result with logUrl }, after) ∧
      Delivers here job (publisherOf settings store).baseUrl host after logUrl := by
  have upload := Publisher.run_uploadLog (publisherOf settings store.recorded) store.recorded
    schema.app job.environment attends.isFile
  generalize key_eq : (publisherOf settings store.recorded).logKey schema.app job.environment
    host.now = key at upload
  cases ran : (store.recorded.put key job.staging.logPath job.staging.logPath.cacheControl).run host with
  | mk outcome put =>
    have put_attends : Attends here job put := by
      have minds := Store.performs_recorded puts key job.staging.logPath
        job.staging.logPath.cacheControl host
      rw [ran] at minds
      exact attends.of_minds minds
    rw [ran] at upload
    -- Whether the put worked out or not, the record tells so and the log is still found.
    obtain ⟨logUrl, uploaded, ended, same, found, url⟩ : ∃ logUrl uploaded,
        ((publisherOf settings store.recorded).uploadLog store.recorded job.staging.logPath schema.app
          job.environment).run host = (.ok logUrl, uploaded) ∧
        uploaded.store = put.store ∧ Attends here job uploaded ∧
        logUrl = if outcome.isOk then (publisherOf settings store).baseUrl ++ key else "" := by
      cases outcome with
      | ok done => exact ⟨_, _, upload, rfl, put_attends, rfl⟩
      | error failure =>
        exact ⟨_, _, upload, HostM.store_narrate _ _ _,
          put_attends.of_minds (minds_narrate _ _ put), rfl⟩
    refine ⟨logUrl, _, run_finish ended, ⟨[], key, outcome.isOk, ?_, by simp, url⟩,
      { uploaded with log := none }, ?_, found.isFile, ?_, fun worked => ?_⟩
    · rw [HostM.run_onFiles, List.append_nil]
      exact (congrArg Prod.snd same).trans (Store.deposits_put ran)
    · rw [HostM.run_onFiles]
    · rw [HostM.run_onFiles]
    · rw [HostM.run_onFiles]
      exact Staging.gone_of_clean named way found.sound found.isFile (Prod.ext worked rfl)

/-- What was put before the end is put before the log. -/
theorem Delivers.of_records {baseUrl logUrl : String} {before middle after : Host (σ × List Deposit)}
    (delivers : Delivers here job baseUrl middle after logUrl)
    (records : before.Records here (job.staging.logPath.place here) middle) :
    Delivers here job baseUrl before after logUrl := by
  obtain ⟨⟨made, key, kept, record, others, url⟩, last⟩ := delivers
  obtain ⟨first, recorded, apart⟩ := records
  refine ⟨⟨first ++ made, key, kept, ?_, fun deposit member => ?_, url⟩, last⟩
  · rw [record, recorded, List.append_assoc before.store.2]
  · exact (List.mem_append.mp member).elim (apart deposit) (others deposit)

/-- To conclude a build puts no log. -/
theorem records_conclude {outcome : Except Failure Unit} {host : Host (σ × List Deposit)}
    (named : Path.IsName job.buildId) (attends : Attends here job host) :
    host.Records here (job.staging.logPath.place here)
      ((conclude tools settings job schema job.staging (some store.recorded) outcome).run host).2 := by
  have narrates : ∀ level text (host : Host (σ × List Deposit)),
      host.Records here (job.staging.logPath.place here)
        ((HostM.narrate level text).run host).2 :=
    fun level text host => (HostM.sameStore_narrate level text host).records
  have apart : ¬job.staging.distDir.place here <+: job.staging.logPath.place here := by
    intro below
    refine Staging.not_isPrefix_log named (List.IsPrefix.trans ?_ below)
    exact Path.isPrefix_place_join rfl (by decide)
  cases outcome with
  | error failure => exact narrates _ _ host
  | ok done =>
    refine Action.related_bind
      (Publisher.records_publishDist attends.sound.toAt apart) fun result middle _ => ?_
    cases result <;> exact narrates _ _ middle

/-- A build whose log is open delivers it. -/
theorem delivers_narratedRun (settings : Settings) (schema : Schema) {host : Host (σ × List Deposit)} (named : Path.IsName job.buildId)
    (way : job.staging.root.Avoids (fun place => job.staging.buildDir.place here <+: place) here)
    (spares : Runner.Spares tools.runner here job.staging.logPath)
    (puts : ∀ key file cache, Moves (Minds here job) (store.put key file cache))
    (attends : Attends here job host) :
    ∃ result after,
      (narratedRun tools settings job schema job.staging (some store.recorded)).run host =
        (.ok result, after) ∧
      Delivers here job (publisherOf settings store).baseUrl host after result.logUrl := by
  rw [narratedRun, HostM.run_info_bind, Action.run_get_bind,
    Action.run_bind_of_ok (HostM.run_attempt _ _)]
  have begun : Attends here job (host.begun job) := attends.of_minds (minds_narrate _ _ host)
  have worked := attends_execute settings schema named way spares begun
  have same : host.SameStore
      ((execute tools settings job schema job.staging).run (host.begun job)).2 :=
    trans_of Host.SameStore (HostM.sameStore_narrate _ _ host) (sameStore_execute _)
  change ∃ result after, (do
      let concluded ← conclude tools settings job schema job.staging (some store.recorded)
        ((execute tools settings job schema job.staging).run (host.begun job)).1
      _ : HostM (σ × List Deposit) BuildResult).run
        ((execute tools settings job schema job.staging).run (host.begun job)).2 = _ ∧ _
  generalize (execute tools settings job schema job.staging).run (host.begun job) = executed at *
  obtain ⟨outcome, middle⟩ := executed
  obtain ⟨result, concluded, ran, -⟩ := @reports_conclude _ tools settings job schema
    (some store.recorded) middle outcome
  have minds : Moves (Minds here job)
      (conclude tools settings job schema job.staging (some store.recorded) outcome) := by
    refine performs_conclude (fun _ _ _ => trivial) ?_
    rintro target ⟨⟩
    exact Store.performs_recorded puts
  have minds := minds middle
  have records : middle.Records here (job.staging.logPath.place here)
      ((conclude tools settings job schema job.staging (some store.recorded) outcome).run middle).2 :=
    records_conclude named worked
  rw [ran] at minds records
  have attended := worked.of_minds minds
  dsimp only
  rw [Action.run_bind_of_ok ran, Action.run_get_bind, HostM.run_info_bind]
  generalize last_eq : concluded.told .info _ = last
  have told : Attends here job last := last_eq ▸ attended.of_minds (minds_narrate _ _ concluded)
  obtain ⟨logUrl, after, ended, delivers⟩ := delivers_finish named way puts told
  refine ⟨_, after, ended, delivers.of_records ?_⟩
  refine trans_of (Host.Records here _) same.records (trans_of (Host.Records here _) records ?_)
  exact (last_eq ▸ HostM.sameStore_narrate _ _ concluded : concluded.SameStore last).records

/-- A build without a store leaves what its steps left. -/
theorem retains_narratedRun (named : Path.IsName job.buildId)
    (way : job.staging.root.Avoids (fun place => job.staging.buildDir.place here <+: place) here)
    (spares : Runner.Spares tools.runner here job.staging.logPath)
    (attends : Attends here job host) :
    ∃ result after,
      (narratedRun tools settings job schema job.staging none).run host = (.ok result, after) ∧
        result.url = "" ∧ result.logUrl = "" ∧
        Retains tools settings job schema here host after := by
  have begun : Attends here job (host.begun job) := attends.of_minds (minds_narrate _ _ host)
  have worked := attends_execute settings schema named way spares begun
  cases executed : (execute tools settings job schema job.staging).run (host.begun job) with
  | mk outcome middle =>
    rw [executed] at worked
    have attempted : (HostM.attempt (execute tools settings job schema job.staging)).run
        (host.begun job) = (.ok outcome, middle) := by
      rw [HostM.run_attempt, executed]
    obtain ⟨result, level, text, concludes, url, logUrl⟩ : ∃ result level text,
        (conclude tools settings job schema job.staging (none : Option (Store σ)) outcome).run middle =
          (.ok result, middle.told level text) ∧ result.url = "" ∧ result.logUrl = "" := by
      cases outcome <;> exact ⟨_, _, _, rfl, rfl, rfl⟩
    rw [narratedRun, HostM.run_info_bind, Action.run_get_bind]
    change ∃ result after, (HostM.attempt (execute tools settings job schema job.staging) >>=
      _ : HostM σ BuildResult).run (host.begun job) = _ ∧ _
    rw [Action.run_bind_of_ok attempted, Action.run_bind_of_ok concludes, Action.run_get_bind,
      HostM.run_info_bind]
    obtain ⟨attended, first⟩ := worked.told level text
    obtain ⟨ended, second⟩ := attended.told .info _
    exact ⟨_, _, rfl, url, logUrl,
      ⟨outcome, middle, executed, trans_of (Files.Edits _) first second⟩, ended.isFile⟩

/-- A job whose log opens is run with the log open. -/
theorem run_of_opened {store : Option (Store σ)} {opened : Host σ} (accepted : job.validate = .ok ())
    (parsed : job.parseSchema = .ok schema)
    (opening : (openLog job.staging.logPath).run host = (.ok (), opened)) :
    (run tools settings job store).run host =
      (narratedRun tools settings job schema job.staging store).run opened := by
  rw [run, accepted, parsed]
  dsimp only
  rw [Action.run_bind_of_ok (HostM.run_attempt _ _), ← Job.staging, opening]

/-- Whatever step of a build fails, its log is put once into the store that there is, after everything
else that is put, and the URL of the log is that of its key or, if the put fails, empty; then the
directory of the build and the log are removed. Without a store nothing is removed after the steps: the
log and what they left stay, and there are no URLs. The way to the staging root must not lead through
the directory of the build, neither commands nor the store may remove the log, and the clock has to
show when the limit of the bundler runs out. -/
theorem log_delivered (tools : Tools) (settings : Settings) (job : Job) (schema : Schema)
    (store : Store σ) (here : Location) (host opened : Host (σ × List Deposit))
    (accepted : job.validate = .ok ()) (parsed : job.parseSchema = .ok schema)
    (limited : Bundler.hasDeadline host.uptime settings.timeout = true)
    (sound : host.files.IsSound here)
    (opening : (openLog job.staging.logPath).run host = (.ok (), opened))
    (way : job.staging.root.Avoids (fun place => job.staging.buildDir.place here <+: place) here)
    (spares : Runner.Spares tools.runner here job.staging.logPath)
    (puts : ∀ key file cache, Moves (Minds here job) (store.put key file cache)) :
    (∃ result after, ending tools settings job (some store.recorded) host =
        (some (.ok result), after) ∧
      Delivers here job (publisherOf settings store).baseUrl host after result.logUrl) ∧
    ∃ result after, ending tools settings job none host = (some (.ok result), after) ∧
      result.url = "" ∧ result.logUrl = "" ∧
        Retains tools settings job schema here opened after := by
  have named := job.isName_buildId accepted
  obtain ⟨attends, same⟩ := attends_of_openLog named sound opening
  simp only [ending_eq_some_iff, calm_of_hasDeadline limited, true_and,
    run_of_opened accepted parsed opening]
  constructor
  · obtain ⟨result, after, ran, delivers⟩ := delivers_narratedRun settings schema named way
      spares puts attends
    exact ⟨result, after, ran, delivers.of_records same.records⟩
  · exact retains_narratedRun named way spares attends

section Sample

/-- The machine of the sample job, with a record of what is put. -/
def recordingHost : Host (Unit × List Deposit) := sampleHost.withStore ((), [])

/-- The sample job, whose staging root goes up and whose bundler leaves a note, delivers its log to its
local store, and leaves it where it is without. -/
theorem log_delivered_up :
    ∃ schema opened, sampleJob.validate = .ok () ∧ sampleJob.parseSchema = .ok schema ∧
      recordingHost.files.IsSound [] ∧
      (openLog sampleJob.staging.logPath).run recordingHost = (.ok (), opened) ∧
      sampleJob.staging.root.Avoids (fun place => sampleJob.staging.buildDir.place [] <+: place) [] ∧
      Runner.Spares sampleTools.runner [] sampleJob.staging.logPath ∧
      (∃ result after, ending sampleTools .default sampleJob
          (some (LocalStore.toStore ⟨"/out"⟩ : Store Unit).recorded) recordingHost =
            (some (.ok result), after) ∧
        Delivers [] sampleJob "file:///out" recordingHost after result.logUrl) ∧
      ∃ result after, ending sampleTools .default sampleJob none recordingHost =
          (some (.ok result), after) ∧
        result.url = "" ∧ result.logUrl = "" ∧
          Retains sampleTools .default sampleJob schema [] opened after := by
  have accepted : sampleJob.validate = .ok () := by decide
  obtain ⟨schema, parsed⟩ : ∃ schema, sampleJob.parseSchema = .ok schema := by
    have read : sampleJob.parseSchema.isOk = true := by decide +kernel
    cases parsed : sampleJob.parseSchema with
    | error failure =>
      rw [parsed] at read
      cases read
    | ok schema => exact ⟨schema, rfl⟩
  have sound : recordingHost.files.IsSound [] :=
    ⟨⟨rfl, FileTree.isNamed_of_entries (by decide +kernel), by simp⟩,
      FileTree.isClosed_of_entries (by decide +kernel)⟩
  obtain ⟨opened, opening⟩ : ∃ opened,
      (openLog sampleJob.staging.logPath).run recordingHost = (.ok (), opened) := by
    have opens : ((openLog sampleJob.staging.logPath).run recordingHost).1 = .ok () := by
      decide +kernel
    cases opening : (openLog sampleJob.staging.logPath).run recordingHost with
    | mk outcome opened =>
      rw [opening] at opens
      exact ⟨opened, congrArg (·, opened) opens⟩
  have way : sampleJob.staging.root.Avoids
      (fun place => sampleJob.staging.buildDir.place [] <+: place) [] := by
    have apart : ∀ first ∈ sampleJob.staging.root.pieces.inits,
        ¬sampleJob.staging.buildDir.place [] <+:
          first.foldl Location.step (sampleJob.staging.root.start []) := by
      decide +kernel
    exact fun first leads => apart first ((List.mem_inits _ _).mpr leads)
  have wrote : ∀ call files, files.IsSound [] → (sampleTools.runner call files).2 = files ∨
      ∃ place, (Edit.write place .empty).Applies files (sampleTools.runner call files).2 := by
    intro call files standing
    simp only [sampleTools]
    cases wrote : files.writeFile (call.directory.join ⟨"note.txt"⟩) .empty with
    | error cause => exact .inl rfl
    | ok later => exact .inr ⟨_, Files.applies_writeFile standing wrote⟩
  have spares : Runner.Spares sampleTools.runner [] sampleJob.staging.logPath := by
    refine ⟨fun call files standing => ?_, fun call files standing found => ?_⟩
    · rcases wrote call files standing with same | ⟨place, applies⟩
      · rwa [same]
      · exact applies.isSound standing
    · rcases wrote call files standing with same | ⟨place, applies⟩
      · rwa [same]
      · exact applies.isFile standing trivial found
  have baseUrl : (publisherOf .default (LocalStore.toStore ⟨"/out"⟩ : Store Unit)).baseUrl =
      "file:///out" := by
    decide +kernel
  refine ⟨schema, opened, accepted, parsed, sound, opening, way, spares, ?_⟩
  rw [← baseUrl]
  exact log_delivered sampleTools .default sampleJob schema (LocalStore.toStore ⟨"/out"⟩) []
    recordingHost opened accepted parsed rfl sound opening way spares
    fun key file cache => LocalStore.performs_put (fun _ _ => trivial) (fun _ _ _ => trivial) file cache

/-- A job whose staging root leads through the directory of its build, where its template stands. -/
def lostJob : Job :=
  { sampleJob with template := ⟨"/s/b/t"⟩, publishTo := none, stagingRoot := some ⟨"/s/b/.."⟩ }

/-- A machine with this template. -/
def lostHost : Host (Unit × List Deposit) :=
  { recordingHost with files := (Files.mk .empty []).plant [] "s/b/t/a.txt" "one".toUTF8 }

/-- Staging removes the directory that the path of the log leads through, and the template with it: the
log is not put although there is a store, and stays where it is. -/
theorem log_lost :
    lostJob.validate = .ok () ∧ lostJob.parseSchema.isOk = true ∧
      ((openLog lostJob.staging.logPath).run lostHost).1 = .ok () ∧
      (ending sampleTools .default lostJob
        (some (LocalStore.toStore ⟨"/out"⟩ : Store Unit).recorded) lostHost).2.store.2 = [] ∧
      ((ending sampleTools .default lostJob
        (some (LocalStore.toStore ⟨"/out"⟩ : Store Unit).recorded) lostHost).2.files.tree.find?
          (lostJob.staging.logPath.place [])).any (·.isFile) = true := by
  have calm : crash? sampleTools .default lostJob lostHost = none := calm_of_hasDeadline rfl
  rw [ending_of_calm calm]
  decide +kernel

end Sample

end Build

end PageBuild
