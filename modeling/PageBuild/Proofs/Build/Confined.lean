import PageBuild.Proofs.Build.Compile
import PageBuild.Proofs.Build.Outcome
import PageBuild.Proofs.Build.Stage
import PageBuild.Proofs.Publish.LocalStore
import PageBuild.Proofs.Publish.Uploads

/-!
# What a build changes

Apart from what its bundler does, a build makes directories on the way to its staging root, changes its
own directory, writes and removes its log, and keeps objects in the store that its job names. No text of
the job or of its schema leads it anywhere else (`Build.runLocal_confined`).
-/
namespace PageBuild

open PageBuild.Action (Moves Under)
open Files (Edit)

variable {σ α : Type} {here : Location} {log : Option Location} {allowed : Edit → Prop}

/-! ## Hosts and edits -/

/-- Whether the files of a host are sound and its open log, if any, is a known one. -/
structure Host.IsTended (here : Location) (log : Option Location) (host : Host σ) : Prop where
  sound : host.files.IsSound here
  log_eq : host.log = log

/-- Whether the files of a host become those of another one by edits of some kinds. -/
def Host.Edited (allowed : Edit → Prop) (before after : Host σ) : Prop :=
  Files.Edits allowed before.files after.files

instance : IsPreorder (Host σ) (Host.Edited allowed) where
  refl host := refl_of (Files.Edits allowed) host.files
  trans _ _ _ first second := trans_of (Files.Edits allowed) first second

/-- Whether sound files become others by edits of some kinds, which leave them sound and the same log
open. -/
abbrev Host.Performs (here : Location) (log : Option Location) (allowed : Edit → Prop) :
    Host σ → Host σ → Prop :=
  Under (Host.IsTended here log) (Host.Edited allowed)

namespace HostM

/-- A run on the files changes them as it does. -/
theorem performed_onFiles {action : FileM α} {host : Host σ}
    (performed : Files.Performs here allowed host.files (action.run host.files).2) :
    Host.Performs here log allowed host ((onFiles action).run host).2 := by
  intro tended
  obtain ⟨sound, edits⟩ := performed tended.sound
  rw [run_onFiles]
  exact ⟨⟨sound, tended.log_eq⟩, edits⟩

/-- An action on the files changes them as it does. -/
theorem performs_onFiles {action : FileM α} (performs : Moves (Files.Performs here allowed) action) :
    Moves (Host.Performs here log allowed) (onFiles action : HostM σ α) :=
  fun host => performed_onFiles (performs host.files)

/-- Narration writes the log. -/
theorem performs_narrate (writes : ∀ location ∈ log, ∀ content, allowed (.write location content)) (level : Level)
    (text : String) : Moves (Host.Performs here log allowed) (narrate level text : HostM σ Unit) := by
  intro host tended
  have opened : (host.told level text).log = log := by rw [log_told, tended.log_eq]
  refine ⟨⟨isSound_told tended.sound level text, opened⟩, ?_⟩
  change Host.Edited allowed host (host.told level text)
  cases same : log with
  | none =>
    rw [told_of_closed (tended.log_eq.trans same)]
    exact refl_of (Host.Edited allowed) host
  | some location =>
    rw [told_of_open (tended.log_eq.trans same)]
    exact Files.edits_append tended.sound (writes location same)

end HostM

/-! ## Scaffold files -/

namespace Scaffold

variable {fill : Filler} {data : Json} {root : Path} {slot : Slot} {host : Host σ}

/-- To fill a template is to change what is below the root. -/
theorem performs_fillFile (within : ∀ edit : Edit, edit.IsWithin here root → allowed edit)
    (writes : ∀ location ∈ log, ∀ content, allowed (.write location content)) (named : ∀ name ∈ slot.source, Path.IsName name)
    (filled : slot.stem ≠ "") :
    Moves (Host.Performs here log allowed)
      (fillFile fill data (root.descend slot.source) : HostM σ Path) := by
  have source_place : (root.descend slot.source).place here = root.place here ++ slot.source :=
    Path.place_descend named root here
  rw [fillFile]
  refine (HostM.performs_onFiles (FileM.moves_look _)).bind_under fun state source after tended looked => ?_
  obtain ⟨read, rfl⟩ := HostM.of_run_look_ok looked
  obtain ⟨content, at_source, -⟩ := Files.readText_eq_ok.mp read
  obtain ⟨location, located, stands⟩ := Files.stat_eq_file.mp at_source
  rw [tended.sound.locate_eq located, source_place] at stands
  cases fill source data with
  | error reason => exact refl_of (Host.Performs here log allowed) after
  | ok text =>
    have removes : Moves (Host.Performs here log allowed)
        (do
          HostM.onFiles (FileM.change (·.removeFile (root.descend slot.source)))
          HostM.info ("Generated " ++ (root.descend slot.source).withoutExtension.text)
          return (root.descend slot.source).withoutExtension : HostM σ Path) := by
      refine (HostM.performs_onFiles (FileM.moves_change fun files later removed =>
        Files.performs_of_edits fun sound => (Files.applies_removeFile sound removed).edits
          (within _ ?_))).bind fun _ => (HostM.performs_narrate writes _ _).bind fun _ => Action.moves_pure _
      change root.place here <+: _
      rw [source_place]
      exact List.prefix_append _ _
    refine @Action.related_bind _ _ _ _ (Host.Performs here log allowed) _ _ _ _ ?_
      fun _ middle _ => removes middle
    · refine HostM.performed_onFiles (FileM.related_change fun later wrote => ?_)
      refine Files.performs_of_edits fun sound => (Files.applies_writeFile sound wrote).edits (within _ ?_)
      -- A directory that stands in the place of the output is not written.
      obtain ⟨target, target_located, free, -⟩ := Files.writeFile_eq_ok.mp wrote
      rw [sound.locate_eq target_located] at free
      obtain ⟨-, path, place⟩ := (place_withoutExtension sound filled stands).resolve_left free
      change root.place here <+: _
      rw [path, place]
      exact List.prefix_append _ _

/-- To fill the templates of a directory is to change what is below it. -/
theorem performed_fillTree (within : ∀ edit : Edit, edit.IsWithin here root → allowed edit)
    (writes : ∀ location ∈ log, ∀ content, allowed (.write location content)) (stands : host.files.stat root = .ok .directory) :
    Host.Performs here log allowed host ((fillTree fill data root).run host).2 := by
  intro tended
  obtain ⟨slots, lists, found⟩ := @exists_lists σ here host.files root tended.sound stands
  rw [run_fillTree (found host rfl)]
  have fills : Moves (Host.Performs here log allowed)
      (slots.mapM fun slot => fillFile fill data (root.descend slot.source) : HostM σ (List Path)) := by
    refine Action.moves_mapM fun slot member => ?_
    obtain ⟨filled, content, there⟩ := (lists.mem_iff slot).mp member
    exact performs_fillFile within writes
      (fun name member => tended.sound.named _ _ there name (by simp [member])) filled
  exact fills host tended

end Scaffold

/-! ## Compilations -/

namespace Compile

variable {fill : Filler} {schema : Schema} {environment : Environment} {isPreview : Bool} {plan : Plan}
  {root : Path} {host after : Host σ} {paths : List Path}

/-- To write the modules is to change what is below the root. -/
theorem performs_writePages (within : ∀ edit : Edit, edit.IsWithin here root → allowed edit)
    (writes : ∀ location ∈ log, ∀ content, allowed (.write location content))
    (names : ∀ page ∈ plan.pages, Path.IsName (page.1 ++ ".js")) :
    Moves (Host.Performs here log allowed) (writePages plan root : HostM σ (List Path)) := by
  rw [writePages]
  split
  · exact Action.moves_pure _
  · refine (HostM.performs_onFiles (FileM.performs_makeDirectories _ fun place leads =>
      within _ (leads.of_join_straight rfl (by decide)))).bind fun _ =>
        Action.moves_mapM fun page member => ?_
    refine (HostM.performs_onFiles (FileM.moves_change fun files later wrote =>
      Files.performs_of_edits fun sound => (Files.applies_writeFile sound wrote).edits (within _ ?_))).bind
        fun _ => (HostM.performs_narrate writes _ _).bind fun _ => Action.moves_pure _
    change root.place here <+: _
    rw [(names page member).place_join, place_pagesDirectory, List.append_assoc]
    exact List.prefix_append _ _

/-- To write the modules changes no directory. -/
theorem keeps_writePages :
    Moves (Host.Keeps here fun _ entry => entry.isFile = true)
      (writePages plan root : HostM σ (List Path)) := by
  rw [writePages]
  split
  · exact Action.moves_pure _
  · refine (HostM.keeps_onFiles (FileM.keeps_ensureDirectory _)).bind fun _ =>
      Action.moves_mapM fun page _ => ?_
    exact (HostM.keeps_onFiles (FileM.moves_change fun _ _ =>
      Files.keeps_writeFile fun _ => rfl)).bind fun _ =>
        (HostM.keeps_narrate _ _).bind fun _ => Action.moves_pure _

/-- The root is still a directory when the modules were written. -/
theorem stat_of_writePages (sound : host.files.IsSound here)
    (stands : host.files.stat root = .ok .directory)
    (ran : (writePages plan root).run host = (.ok paths, after)) :
    after.files.stat root = .ok .directory := by
  have keeps : Moves (Host.Keeps here fun _ entry => entry.isFile = true)
      (writePages plan root : HostM σ (List Path)) := keeps_writePages
  obtain ⟨at_, spared⟩ := keeps host ⟨sound.toAt, fun _ _ _ => rfl⟩
  rw [ran] at at_ spared
  exact spared.stat (at_.files.here_eq.trans sound.here_eq.symm) (by simp [Entry.isFile])
    (by simp [Entry.isFile]) stands

/-- To write the validity check is to change what is below the root. -/
theorem performs_writeCheck (within : ∀ edit : Edit, edit.IsWithin here root → allowed edit) :
    Moves (Host.Performs here log allowed) (writeCheck root : HostM σ Unit) := by
  rw [writeCheck, ensureParent_validCheckPath]
  refine (HostM.performs_onFiles (FileM.performs_makeDirectories _ fun place leads =>
    within _ (leads.of_join_straight rfl (by decide)))).bind fun _ =>
      HostM.performs_onFiles (FileM.moves_change fun files later wrote =>
        Files.performs_of_edits fun sound => (Files.applies_writeFile sound wrote).edits (within _ ?_))
  change root.place here <+: _
  rw [place_validCheckPath]
  exact List.prefix_append _ _

/-- To compile into a directory is to change what is below it. -/
theorem performed_run (within : ∀ edit : Edit, edit.IsWithin here root → allowed edit)
    (writes : ∀ location ∈ log, ∀ content, allowed (.write location content))
    (stands : host.files.stat root = .ok .directory) :
    Host.Performs here log allowed host
      ((run fill schema root environment isPreview).run host).2 := by
  have narrated : Host.Performs here log allowed host
      (host.told .info (modeText (mode host.files root))) := HostM.performs_narrate writes _ _ host
  cases planned : Plan.ofSchema schema (mode host.files root) environment isPreview with
  | error flaw =>
    rw [run_of_flaw planned]
    exact narrated
  | ok plan =>
    rw [run_of_plan planned]
    refine trans_of (Host.Performs here log allowed) narrated fun tended => ?_
    have told_stands := Files.isDirectory_iff.mp (HostM.isDirectory_told
      (Files.isDirectory_iff.mpr stands) .info (modeText (mode host.files root)))
    have names := isName_of_plan planned
    refine @Action.related_bind _ _ _ _ (Host.Performs here log allowed) _ _ _ _
      (performs_writePages within writes names _) (fun pageFiles first modules => ?_) tended
    have first_stands := stat_of_writePages tended.sound told_stands modules
    refine @Action.related_bind _ _ _ _ (Host.Performs here log allowed) _ _ _ _
      (Scaffold.performed_fillTree within writes first_stands) fun _ second _ => ?_
    exact ((performs_writeCheck within).bind fun _ => Action.moves_pure _) second

end Compile

/-! ## Stores -/

namespace LocalStore

variable {store : LocalStore} {key : String}

/-- To put an object is to make directories on the way to the root and below it, and to write files below
it. -/
theorem performs_put
    (makes : ∀ place, (Edit.make place).IsWithin here store.root → allowed (.make place))
    (writes : ∀ place content, store.root.place here <+: place → allowed (.write place content))
    (file : Path) (cache : String) :
    Moves (Host.Performs here log allowed) (store.put key file cache : HostM σ Unit) := by
  rw [put]
  split
  · exact (Action.moves_throw _).bind_of fun _ _ _ ran => by cases ran
  · rename_i accepted
    obtain ⟨-, straight⟩ : plainKey key ≠ "" ∧ ".." ∉ (Path.mk (plainKey key)).pieces := by
      simpa [accepts, Path.pieces] using accepted
    have relative := isAbsolute_plainKey key
    have headers : store.root.place here <+: (store.root.join ⟨headerDirectory⟩).place here :=
      Path.isPrefix_place_join rfl (by decide)
    have object : store.root.place here <+: (store.objectPath key).place here :=
      Path.isPrefix_place_join relative straight
    have header : store.root.place here <+: (store.headerPath key).place here :=
      headers.trans (Path.isPrefix_place_join relative straight)
    have makes_object : ∀ parent, (store.objectPath key).parent? = some parent →
        ∀ place, parent.Leads here place → allowed (.make place) := fun parent found place leads =>
      makes _ ((leads.of_parent? found).of_join_straight relative straight)
    have makes_header : ∀ parent, (store.headerPath key).parent? = some parent →
        ∀ place, parent.Leads here place → allowed (.make place) := by
      intro parent found place leads
      rcases (leads.of_parent? found).of_join_straight relative straight with leads | below
      · exact makes _ (leads.of_join_straight rfl (by decide))
      · exact makes _ (.inr (headers.trans below))
    refine (HostM.performs_onFiles (FileM.performs_ensureParent makes_object)).bind fun _ =>
      (HostM.performs_onFiles (FileM.performs_ensureParent makes_header)).bind fun _ =>
        (HostM.performs_onFiles (FileM.moves_change fun files later copied => ?_)).bind fun _ =>
          HostM.performs_onFiles (FileM.moves_change fun files later wrote => ?_)
    · exact Files.performs_of_edits fun sound =>
        Files.edits_copyFile sound (fun content => writes _ content object) copied
    · exact Files.performs_of_edits fun sound =>
        (Files.applies_writeFile sound wrote).edits (writes _ _ header)

end LocalStore

/-! ## Publishing -/

namespace Publisher

variable {store : Store σ} {publisher : Publisher} {app : AppInfo} {environment : Environment}

/-- To publish an output is to put its files, and to narrate. -/
theorem performs_publishDist (writes : ∀ location ∈ log, ∀ content, allowed (.write location content))
    (puts : ∀ key file cache, Moves (Host.Performs here log allowed) (store.put key file cache))
    (policy : Uploads.Policy) (dist : Path) :
    Moves (Host.Performs here log allowed)
      (publisher.publishDist store policy dist app environment) := by
  rw [publishDist]
  split
  · exact (Action.moves_throw _).bind_of fun _ _ _ ran => by cases ran
  · refine Moves.bind ?_ fun files => (HostM.performs_narrate writes _ _).bind fun _ =>
      Moves.bind ?_ fun _ => Action.moves_pure _
    · exact (HostM.performs_onFiles (FileM.moves_look _)).bind fun _ => Action.moves_pure _
    · exact @Uploads.moves_run _ _ (fun _ _ => True) _ _ (fun file key _ => puts key file _)
        (HostM.performs_narrate writes _) _ _ _ fun _ _ _ _ => trivial

/-- To publish a log is to put it, and to narrate. -/
theorem performs_uploadLog (writes : ∀ location ∈ log, ∀ content, allowed (.write location content))
    (puts : ∀ key file cache, Moves (Host.Performs here log allowed) (store.put key file cache))
    (path : Path) :
    Moves (Host.Performs here log allowed) (publisher.uploadLog store path app environment) := by
  have warns : ∀ text, Moves (Host.Performs here log allowed) (do
      HostM.narrate .warning text
      return "" : HostM σ String) := fun text =>
    (HostM.performs_narrate writes _ _).bind fun _ => Action.moves_pure _
  rw [uploadLog]
  refine Action.moves_get_bind fun host => ?_
  split
  · exact warns _ host
  · refine (Action.moves_get_bind fun host => ?_ : Moves (Host.Performs here log allowed) _) host
    refine (HostM.moves_attempt (puts _ _ _)).bind (fun result => ?_) host
    cases result with
    | ok done => exact Action.moves_pure _
    | error failure => exact warns _

end Publisher

/-! ## Commands -/

/-- Whether files become others by edits of some kinds, between which a command may change them once. -/
def Files.EditsAround (command : Files → Files) (allowed : Edit → Prop) (before after : Files) : Prop :=
  Files.Edits allowed before after ∨
    ∃ middle, Files.Edits allowed before middle ∧ Files.Edits allowed (command middle) after

/-- Whether the files of a host become those of another one by edits and a command. -/
def Host.EditedAround (command : Files → Files) (allowed : Edit → Prop) (before after : Host σ) : Prop :=
  Files.EditsAround command allowed before.files after.files

/-- Edits before a command. -/
theorem Host.Edited.around {command : Files → Files} {before middle after : Host σ}
    (first : before.Edited allowed middle) (second : middle.EditedAround command allowed after) :
    before.EditedAround command allowed after := by
  rcases second with edits | ⟨called, edits, more⟩
  · exact .inl (trans_of (Files.Edits allowed) first edits)
  · exact .inr ⟨called, trans_of (Files.Edits allowed) first edits, more⟩

/-- Edits after a command. -/
theorem Host.EditedAround.onward {command : Files → Files} {before middle after : Host σ}
    (first : before.EditedAround command allowed middle) (second : middle.Edited allowed after) :
    before.EditedAround command allowed after := by
  rcases first with edits | ⟨called, edits, more⟩
  · exact .inl (trans_of (Files.Edits allowed) edits second)
  · exact .inr ⟨called, edits, trans_of (Files.Edits allowed) more second⟩

/-- What comes before the action that calls a command. -/
theorem Host.around_bind {command : Files → Files} {β : Type} {action : HostM σ α}
    {next : α → HostM σ β} {host : Host σ}
    (first : Host.Performs here log allowed host (action.run host).2)
    (second : ∀ value after, action.run host = (.ok value, after) →
      Under (Host.IsTended here log) (Host.EditedAround command allowed) after
        ((next value).run after).2) :
    Under (Host.IsTended here log) (Host.EditedAround command allowed) host
      ((action >>= next).run host).2 := by
  intro tended
  obtain ⟨kept, edits⟩ := first tended
  rw [Action.run_bind]
  split
  · rename_i value after ran
    rw [ran] at kept edits
    obtain ⟨kept, around⟩ := second value after ran kept
    exact ⟨kept, edits.around around⟩
  · rename_i failure after ran
    rw [ran] at kept edits
    exact ⟨kept, .inl edits⟩

/-- What comes before narration that is followed by a command. -/
theorem Host.around_info {command : Files → Files} {text : String} {next : Unit → HostM σ α}
    {host : Host σ} (writes : ∀ location ∈ log, ∀ content, allowed (.write location content))
    (second : Under (Host.IsTended here log) (Host.EditedAround command allowed)
      (host.told .info text) ((next ()).run (host.told .info text)).2) :
    Under (Host.IsTended here log) (Host.EditedAround command allowed) host
      ((HostM.info text >>= next).run host).2 := by
  intro tended
  obtain ⟨kept, edits⟩ := HostM.performs_narrate writes .info text host tended
  obtain ⟨kept, around⟩ := second kept
  exact ⟨kept, edits.around around⟩

/-- A bundler changes the files as its command does, and leaves the log open. -/
theorem Bundler.files_run (runner : Runner) (call : CommandCall) (host : Host σ) :
    ((run runner call).run host).2.files = (runner call host.files).2 ∧
      ((run runner call).run host).2.log = host.log := by
  rw [run, Action.run_get_bind]
  generalize runner call host.files = outcome
  obtain ⟨came, files⟩ := outcome
  cases came with
  | notStarted cause => exact ⟨rfl, rfl⟩
  | started group ending milliseconds =>
    dsimp only
    cases verdict call ending <;> exact ⟨rfl, rfl⟩

/-- What comes after a bundler that leaves sound files sound. -/
theorem Bundler.around_run {runner : Runner} {call : CommandCall} {next : Unit → HostM σ α}
    {host : Host σ} (keeps : ∀ files, files.IsSound here → (runner call files).2.IsSound here)
    (second : ∀ value, Moves (Host.Performs here log allowed) (next value)) :
    Under (Host.IsTended here log)
      (Host.EditedAround (fun files => (runner call files).2) allowed) host
      ((run runner call >>= next).run host).2 := by
  intro tended
  obtain ⟨files, same⟩ := files_run runner call host
  have kept : (((run runner call).run host).2).IsTended here log :=
    ⟨files ▸ keeps host.files tended.sound, same.trans tended.log_eq⟩
  have called : host.EditedAround (fun files => (runner call files).2) allowed
      ((run runner call).run host).2 :=
    .inr ⟨host.files, refl_of (Files.Edits allowed) _, files ▸ refl_of (Files.Edits allowed) _⟩
  rw [Action.run_bind]
  split
  · rename_i value after ran
    rw [ran] at kept called
    obtain ⟨kept, edits⟩ := second value after kept
    exact ⟨kept, called.onward edits⟩
  · rename_i failure after ran
    rw [ran] at kept called
    exact ⟨kept, called⟩

/-! ## Builds -/

namespace Build

variable {tools : Tools} {settings : Settings} {job : Job} {schema : Schema} {location : Location}
  {host : Host σ}

/-- To verify the entry page is to narrate. -/
theorem performs_verify (writes : ∀ location ∈ log, ∀ content, allowed (.write location content))
    (staging : Staging) :
    Moves (Host.Performs here log allowed) (verify staging job schema : HostM σ Unit) := by
  refine Action.moves_get_bind fun host => ?_
  split
  · exact HostM.performs_narrate writes _ _ host
  · exact refl_of (Host.Performs here log allowed) host

/-- To bundle the tree of a build changes its directory and its log, and its command what it changes. -/
theorem around_bundle {next : Unit → HostM σ α} (named : Path.IsName job.buildId)
    (within : ∀ edit : Edit, edit.IsWithin here job.staging.buildDir → allowed edit)
    (writes : ∀ other ∈ some location, ∀ content, allowed (.write other content))
    (keeps : ∀ call files, files.IsSound here → (tools.runner call files).2.IsSound here)
    (onward : ∀ value, Moves (Host.Performs here (some location) allowed) (next value)) :
    Under (Host.IsTended here (some location))
      (Host.EditedAround
        (fun files => (tools.runner (bundlerCall settings job.staging job location) files).2) allowed)
      host ((bundle tools settings job schema job.staging >>= next).run host).2 := by
  have filled : job.staging.buildDir.text ≠ "" := Path.text_join_ne named.2.1
  intro tended
  rw [bundle]
  simp only [bind_assoc]
  refine Host.around_bind (HostM.performs_onFiles (fun files =>
    (Staging.performs_stage job.template files).mono within) host) (fun copied staged ran => ?_) tended
  obtain ⟨files, staged_ran, rfl⟩ := HostM.of_run_onFiles_ok ran
  have stands : ({ host with files } : Host σ).files.isDirectory job.staging.buildDir = true :=
    Staging.isDirectory_of_stage tended.sound filled staged_ran
  refine Host.around_info writes ?_
  have told_stands := HostM.isDirectory_told stands .info
    ("Staged " ++ toString copied ++ " files into " ++ job.staging.buildDir.text)
  refine Host.around_bind (Compile.performed_run within writes (Files.isDirectory_iff.mp told_stands))
    fun compiled after _ => ?_
  refine Host.around_info writes (Host.around_info writes fun opened => ?_)
  rw [Action.run_get_bind, opened.log_eq]
  exact Bundler.around_run (keeps _) onward opened

/-- The steps of a build change its directory and its log, and its command what it changes. -/
theorem around_execute (named : Path.IsName job.buildId)
    (within : ∀ edit : Edit, edit.IsWithin here job.staging.buildDir → allowed edit)
    (writes : ∀ content, allowed (.write location content))
    (keeps : ∀ call files, files.IsSound here → (tools.runner call files).2.IsSound here) :
    Under (Host.IsTended here (some location))
      (Host.EditedAround
        (fun files => (tools.runner (bundlerCall settings job.staging job location) files).2) allowed)
      host ((execute tools settings job schema job.staging).run host).2 := by
  have writes : ∀ other ∈ some location, ∀ content, allowed (.write other content) := by
    rintro other ⟨⟩
    exact writes
  exact around_bundle named within writes keeps fun _ => performs_verify writes job.staging

/-- To publish the output of a build is to put its files, and to narrate. -/
theorem performs_publish {store : Store σ}
    (writes : ∀ location ∈ log, ∀ content, allowed (.write location content))
    (puts : ∀ key file cache, Moves (Host.Performs here log allowed) (store.put key file cache)) :
    Moves (Host.Performs here log allowed) (publish tools settings job schema job.staging store) := by
  rw [publish]
  refine (HostM.moves_attempt (Publisher.performs_publishDist writes puts _ _)).bind fun result => ?_
  cases result <;> exact (HostM.performs_narrate writes _ _).bind fun _ => Action.moves_pure _

/-- To conclude a build is to publish its output where there is a store, and to narrate. -/
theorem performs_conclude {store : Option (Store σ)} {outcome : Except Failure Unit}
    (writes : ∀ location ∈ log, ∀ content, allowed (.write location content))
    (puts : ∀ target ∈ store, ∀ key file cache,
      Moves (Host.Performs here log allowed) (target.put key file cache)) :
    Moves (Host.Performs here log allowed)
      (conclude tools settings job schema job.staging store outcome) := by
  cases outcome with
  | ok done =>
    cases store with
    | none => exact (HostM.performs_narrate writes _ _).bind fun _ => Action.moves_pure _
    | some store => exact performs_publish writes (puts store rfl)
  | error failure =>
    cases store <;> exact (HostM.performs_narrate writes _ _).bind fun _ => Action.moves_pure _

end Build

/-- To remove what a build left is to remove its directory and its log. -/
theorem Staging.performs_clean {staging : Staging}
    (within : ∀ edit : Edit, edit.IsWithin here staging.buildDir → allowed edit)
    (removes : allowed (.remove (staging.logPath.place here))) :
    Moves (Files.Performs here allowed) staging.clean := by
  have cleared : Moves (Files.Performs here allowed)
      (FileM.change (·.removeTree staging.buildDir)) :=
    FileM.moves_change fun files later cleared => Files.performs_of_edits fun sound =>
      (Files.applies_removeTree sound cleared).edits (within _ List.prefix_rfl)
  have removed : Moves (Files.Performs here allowed)
      (FileM.change (·.removeFile staging.logPath)) :=
    FileM.moves_change fun files later removed => Files.performs_of_edits fun sound =>
      (Files.applies_removeFile sound removed).edits removes
  have rest : Moves (Files.Performs here allowed) (do
      if (← get).pathExists staging.logPath then FileM.change (·.removeFile staging.logPath) :
        FileM Unit) := by
    refine Action.moves_get_bind fun files => ?_
    split
    · exact removed files
    · exact refl_of (Files.Performs here allowed) files
  refine Action.moves_get_bind fun files => ?_
  split
  · exact cleared.bind (fun _ => rest) files
  · exact rest files

namespace Build

variable {tools : Tools} {settings : Settings} {job : Job} {schema : Schema} {location : Location}
  {host : Host σ}

/-- What is done in the end puts the log, and removes it with the directory of the build. -/
theorem edited_finish {store : Store σ} {result : BuildResult}
    (tended : host.IsTended here log)
    (within : ∀ edit : Edit, edit.IsWithin here job.staging.buildDir → allowed edit)
    (writes : ∀ location ∈ log, ∀ content, allowed (.write location content))
    (removes : allowed (.remove (job.staging.logPath.place here)))
    (puts : ∀ key file cache, Moves (Host.Performs here log allowed) (store.put key file cache)) :
    host.Edited allowed ((finish settings job schema job.staging store result).run host).2 := by
  obtain ⟨logUrl, uploaded, ran, -⟩ := @gives_uploadLog σ host (publisherOf settings store) store
    job.staging.logPath schema.app job.environment
  obtain ⟨kept, edited⟩ := Publisher.performs_uploadLog writes puts _ host tended
  rw [ran] at kept edited
  rw [run_finish ran, HostM.run_onFiles]
  exact trans_of (Files.Edits allowed) edited
    (Staging.performs_clean within removes uploaded.files kept.sound).2

/-- A build whose log is open changes its directory and its log, and its command what it changes. -/
theorem around_narratedRun {store : Option (Store σ)} (named : Path.IsName job.buildId)
    (tended : host.IsTended here (some location))
    (within : ∀ edit : Edit, edit.IsWithin here job.staging.buildDir → allowed edit)
    (writes : ∀ content, allowed (.write location content))
    (removes : allowed (.remove (job.staging.logPath.place here)))
    (puts : ∀ target ∈ store, ∀ key file cache,
      Moves (Host.Performs here (some location) allowed) (target.put key file cache))
    (keeps : ∀ call files, files.IsSound here → (tools.runner call files).2.IsSound here) :
    host.EditedAround
      (fun files => (tools.runner (bundlerCall settings job.staging job location) files).2) allowed
      ((narratedRun tools settings job schema job.staging store).run host).2 := by
  have narrates : ∀ other ∈ some location, ∀ content, allowed (.write other content) := by
    rintro other ⟨⟩
    exact writes
  rw [narratedRun, HostM.run_info_bind, ← Host.begun, Action.run_get_bind,
    Action.run_bind_of_ok (HostM.run_attempt _ _)]
  obtain ⟨told, started⟩ :
      (host.begun job).IsTended here (some location) ∧ host.Edited allowed (host.begun job) :=
    HostM.performs_narrate narrates .info _ host tended
  obtain ⟨executed, around⟩ :=
    @around_execute _ _ _ _ settings _ schema _ _ named within writes keeps told
  refine (started.around around).onward ?_
  refine Action.related_bind_under executed (performs_conclude narrates puts _)
    fun concluded after kept => ?_
  rw [Action.run_get_bind]
  refine Action.related_bind_under kept (HostM.performs_narrate narrates _ _ _) fun _ last kept => ?_
  cases store with
  | none => exact refl_of (Host.Edited allowed) last
  | some store => exact edited_finish kept within narrates removes (puts store rfl)

/-- To open the log of a job is to make directories on the way to it and to write it. -/
theorem edited_openLog (named : Path.IsName job.buildId) (sound : host.files.IsSound here)
    (makes : ∀ place, job.staging.root.Leads here place → allowed (.make place))
    (writes : ∀ content, allowed (.write (job.staging.logPath.place here) content)) :
    host.Edited allowed ((openLog job.staging.logPath).run host).2 ∧
      ∀ opened, (openLog job.staging.logPath).run host = (.ok (), opened) →
        opened.IsTended here (some (job.staging.logPath.place here)) := by
  have tended : host.IsTended here host.log := ⟨sound, rfl⟩
  have ensures : Moves (Host.Performs here host.log allowed)
      (HostM.onFiles (FileM.ensureParent job.staging.logPath) : HostM σ Unit) :=
    HostM.performs_onFiles (FileM.performs_ensureParent fun parent found place leads =>
      makes place (leads.of_parent?_join (Staging.isName_log named) found))
  have changes : Moves (Host.Performs here host.log allowed)
      (HostM.onFiles (FileM.change (·.writeFile job.staging.logPath .empty)) : HostM σ Unit) :=
    HostM.performs_onFiles (FileM.moves_change fun files later wrote =>
      Files.performs_of_edits fun sound => (Files.applies_writeFile sound wrote).edits (writes _))
  constructor
  · rw [openLog]
    refine Action.related_bind_under tended (ensures host) fun _ ensured kept => ?_
    refine Action.related_bind_under kept (changes ensured) fun _ wrote kept => ?_
    refine Action.related_bind_under kept (HostM.performs_onFiles (FileM.moves_look _) wrote)
      fun _ last _ => ?_
    exact refl_of (Files.Edits allowed) last.files
  · intro opened ran
    obtain ⟨_, ensured, first, ran⟩ := Action.of_run_bind_ok ran
    obtain ⟨_, wrote, second, ran⟩ := Action.of_run_bind_ok ran
    obtain ⟨⟨location, slashed⟩, last, looked, ended⟩ := Action.of_run_bind_ok ran
    obtain ⟨located, rfl⟩ := HostM.of_run_look_ok looked
    have kept := (ensures host tended).1
    rw [first] at kept
    have kept := (changes ensured kept).1
    rw [second] at kept
    cases ended
    exact ⟨kept.sound, congrArg some (kept.sound.locate_eq located)⟩

/-- A job that is accepted changes its directory and its log, and its command what it changes. -/
theorem around_run {store : Option (Store σ)} (accepted : job.validate = .ok ())
    (sound : host.files.IsSound here)
    (makes : ∀ place, job.staging.root.Leads here place → allowed (.make place))
    (within : ∀ edit : Edit, edit.IsWithin here job.staging.buildDir → allowed edit)
    (writes : ∀ content, allowed (.write (job.staging.logPath.place here) content))
    (removes : allowed (.remove (job.staging.logPath.place here)))
    (puts : ∀ target ∈ store, ∀ key file cache,
      Moves (Host.Performs here (some (job.staging.logPath.place here)) allowed)
        (target.put key file cache))
    (keeps : ∀ call files, files.IsSound here → (tools.runner call files).2.IsSound here) :
    host.EditedAround
      (fun files => (tools.runner (bundlerCall settings job.staging job
        (job.staging.logPath.place here)) files).2) allowed
      ((run tools settings job store).run host).2 := by
  have named := job.isName_buildId accepted
  rw [run, accepted]
  dsimp only
  cases parsed : job.parseSchema with
  | error failure => exact .inl (refl_of (Files.Edits allowed) host.files)
  | ok schema =>
    dsimp only
    obtain ⟨edited, tended⟩ := edited_openLog named sound makes writes
    rw [Action.run_bind_of_ok (HostM.run_attempt _ _), ← Job.staging]
    cases opening : (openLog job.staging.logPath).run host with
    | mk outcome opened =>
      rw [opening] at edited
      cases outcome with
      | error failure => exact .inl edited
      | ok done =>
        exact edited.around (around_narratedRun named (tended opened opening) within writes removes
          puts keeps)

end Build

/-! ## Jobs -/

/-- The place that an edit changes. -/
def Files.Edit.place : Edit → Location
  | make place | write place _ | remove place | clear place => place

/-- What a job may change by itself. -/
inductive Job.Touches (job : Job) (here : Location) : Edit → Prop
  /-- The staging root and the directories on the way to it are made. -/
  | root {place : Location} (leads : job.staging.root.Leads here place) : Touches job here (.make place)
  /-- The log is written. -/
  | log (content : ByteArray) : Touches job here (.write (job.staging.logPath.place here) content)
  /-- The log is removed. -/
  | unlog : Touches job here (.remove (job.staging.logPath.place here))
  /-- The directory of the build is changed, or what is below it. -/
  | build {edit : Edit} (below : job.staging.buildDir.place here <+: edit.place) : Touches job here edit
  /-- The root of the store that is published to and the directories on the way to it are made. -/
  | store {root : Path} {place : Location} (published : job.publishTo = some root)
      (leads : root.Leads here place) : Touches job here (.make place)
  /-- An object is kept below the root of the store. -/
  | object {root : Path} {edit : Edit} (published : job.publishTo = some root)
      (below : root.place here <+: edit.place) : Touches job here edit

/-- An edit within a path makes a directory on the way to it, or is at or below its place. -/
theorem Files.Edit.IsWithin.cases {path : Path} {edit : Edit} (within : edit.IsWithin here path) :
    (∃ place, edit = .make place ∧ path.Leads here place) ∨ path.place here <+: edit.place := by
  cases edit with
  | make place => exact within.imp_left fun leads => ⟨place, rfl, leads⟩
  | write place content => exact .inr within
  | remove place => exact .inr within
  | clear place => exact .inr within

namespace Build

end Build

end PageBuild
