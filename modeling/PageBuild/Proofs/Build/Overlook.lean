import PageBuild.Build.Run
import PageBuild.Proofs.Build.Host
import PageBuild.Proofs.Publish.Uploads

/-!
# What builds leave alone beside files and logs

All steps of a build but the run of its bundler change only the files and which log is open, as far as
the store does. So they move a host along every relation that overlooks these (`Host.Overlooks`).
-/
namespace PageBuild

open PageBuild.Action (Moves)

variable {σ : Type} {relation : Host σ → Host σ → Prop}

/-- Whether a relation holds between hosts that differ in their files and their logs only. -/
structure Host.Overlooks (relation : Host σ → Host σ → Prop) : Prop where
  files : ∀ (host : Host σ) (files : Files), relation host { host with files }
  log : ∀ (host : Host σ) (log : Option Location), relation host { host with log }

namespace Host.Overlooks

variable (overlooks : Host.Overlooks relation)

include overlooks

/-- An action on the files. -/
theorem moves_onFiles {α : Type} (action : FileM α) :
    Moves relation (HostM.onFiles action : HostM σ α) := by
  intro host
  rw [HostM.run_onFiles]
  exact overlooks.files host _

/-- To close a log. -/
theorem moves_closeLog : Moves relation (Build.closeLog : HostM σ Unit) :=
  fun host => overlooks.log host none

variable [IsPreorder (Host σ) relation]

/-- Narration. -/
theorem moves_narrate (level : Level) (text : String) :
    Moves relation (HostM.narrate level text : HostM σ Unit) := by
  intro host
  rw [HostM.run_narrate]
  split
  · exact overlooks.files host _
  · exact refl_of relation host

/-- To fill the templates of a directory. -/
theorem moves_fillTree (fill : Filler) (data : Json) (root : Path) :
    Moves relation (Scaffold.fillTree fill data root : HostM σ (List Path)) := by
  have fills : ∀ template, Moves relation (Scaffold.fillFile fill data template : HostM σ Path) := by
    intro template
    refine (overlooks.moves_onFiles _).bind fun source => ?_
    cases fill source data with
    | error reason => exact Action.moves_throw _
    | ok text =>
      exact (overlooks.moves_onFiles _).bind fun _ => (overlooks.moves_onFiles _).bind fun _ =>
        (overlooks.moves_narrate _ _).bind fun _ => Action.moves_pure _
  have finds : Moves relation (Scaffold.templates root : HostM σ (List Path)) :=
    (overlooks.moves_onFiles _).bind fun _ => Action.moves_pure _
  exact finds.bind fun _ => Action.moves_mapM fun template _ => fills template

/-- To compile. -/
theorem moves_compile (fill : Filler) (schema : Schema) (root : Path) (environment : Environment)
    (isPreview : Bool) :
    Moves relation (Compile.run fill schema root environment isPreview : HostM σ Compiled) := by
  have pages : ∀ plan : Plan,
      Moves relation (Compile.writePages plan root : HostM σ (List Path)) := by
    intro plan
    rw [Compile.writePages]
    split
    · exact Action.moves_pure _
    · exact (overlooks.moves_onFiles _).bind fun _ => Action.moves_mapM fun page _ =>
        (overlooks.moves_onFiles _).bind fun _ => (overlooks.moves_narrate _ _).bind fun _ =>
          Action.moves_pure _
  have check : Moves relation (Compile.writeCheck root : HostM σ Unit) :=
    (overlooks.moves_onFiles _).bind fun _ => overlooks.moves_onFiles _
  refine Action.moves_get_bind fun host => (overlooks.moves_narrate _ _).bind (fun _ => ?_) host
  cases Plan.ofSchema schema (Compile.mode host.files root) environment isPreview with
  | error flaw => exact Action.moves_throw _
  | ok plan =>
    exact (pages plan).bind fun _ => (overlooks.moves_fillTree fill _ root).bind fun _ =>
      check.bind fun _ => Action.moves_pure _

/-- To open a log. -/
theorem moves_openLog (path : Path) : Moves relation (Build.openLog path : HostM σ Unit) :=
  (overlooks.moves_onFiles _).bind fun _ => (overlooks.moves_onFiles _).bind fun _ =>
    (overlooks.moves_onFiles _).bind fun _ host => overlooks.log host _

/-- To verify the entry page. -/
theorem moves_verify (staging : Staging) (job : Job) (schema : Schema) :
    Moves relation (Build.verify staging job schema : HostM σ Unit) := by
  refine Action.moves_get_bind fun host => ?_
  split
  · exact overlooks.moves_narrate _ _ host
  · exact refl_of relation host

/-- To keep a file as an object of a local store. -/
theorem moves_put (store : LocalStore) (key : String) (file : Path) (cache : String) :
    Moves relation (store.put key file cache : HostM σ Unit) := by
  have keeps : Moves relation (do
      HostM.onFiles (FileM.ensureParent (store.objectPath key))
      HostM.onFiles (FileM.ensureParent (store.headerPath key))
      HostM.onFiles (FileM.change (·.copyFile file (store.objectPath key)))
      HostM.onFiles (FileM.change (·.writeFile (store.headerPath key) cache.toUTF8)) : HostM σ Unit) :=
    (overlooks.moves_onFiles _).bind fun _ => (overlooks.moves_onFiles _).bind fun _ =>
      (overlooks.moves_onFiles _).bind fun _ => overlooks.moves_onFiles _
  rw [LocalStore.put]
  split
  · exact (Action.moves_throw _).bind fun _ => keeps
  · exact keeps

section Store

variable {publisher : Publisher} {store : Store σ} {app : AppInfo} {environment : Environment}
  {tools : Tools} {settings : Settings} {job : Job} {schema : Schema} {staging : Staging}

/-- To publish an output. -/
theorem moves_publishDist (puts : ∀ key file cache, Moves relation (store.put key file cache))
    (policy : Uploads.Policy) (dist : Path) :
    Moves relation (publisher.publishDist store policy dist app environment) := by
  rw [Publisher.publishDist]
  split
  · exact (Action.moves_throw _).bind_of fun _ _ _ ran => by cases ran
  · refine Moves.bind ?_ fun files => (overlooks.moves_narrate _ _).bind fun _ =>
      Moves.bind ?_ fun _ => Action.moves_pure _
    · exact (overlooks.moves_onFiles _).bind fun _ => Action.moves_pure _
    · exact @Uploads.moves_run _ _ (fun _ _ => True) _ _ (fun file key _ => puts key file _)
        (overlooks.moves_narrate _) _ _ _ fun _ _ _ _ => trivial

/-- To publish a log. -/
theorem moves_uploadLog (puts : ∀ key file cache, Moves relation (store.put key file cache))
    (path : Path) : Moves relation (publisher.uploadLog store path app environment) := by
  have warns : ∀ text, Moves relation (do
      HostM.narrate .warning text
      return "" : HostM σ String) := fun text =>
    (overlooks.moves_narrate _ _).bind fun _ => Action.moves_pure _
  rw [Publisher.uploadLog]
  refine Action.moves_get_bind fun host => ?_
  split
  · exact warns _ host
  · refine (Action.moves_get_bind fun host => ?_ : Moves relation _) host
    refine (HostM.moves_attempt (puts _ _ _)).bind (fun result => ?_) host
    cases result with
    | ok done => exact Action.moves_pure _
    | error failure => exact warns _

/-- To conclude a build. -/
theorem moves_conclude {store : Option (Store σ)} {outcome : Except Failure Unit}
    (puts : ∀ target ∈ store, ∀ key file cache, Moves relation (target.put key file cache)) :
    Moves relation (Build.conclude tools settings job schema staging store outcome) := by
  cases outcome with
  | ok done =>
    cases store with
    | none => exact (overlooks.moves_narrate _ _).bind fun _ => Action.moves_pure _
    | some store =>
      refine (HostM.moves_attempt (overlooks.moves_publishDist (puts store rfl) _ _)).bind
        fun result => ?_
      cases result <;> exact (overlooks.moves_narrate _ _).bind fun _ => Action.moves_pure _
  | error failure =>
    cases store <;> exact (overlooks.moves_narrate _ _).bind fun _ => Action.moves_pure _

/-- What is done in the end. -/
theorem moves_finish {result : BuildResult}
    (puts : ∀ key file cache, Moves relation (store.put key file cache)) :
    Moves relation (Build.finish settings job schema staging store result) :=
  (overlooks.moves_uploadLog puts _).bind fun _ => overlooks.moves_closeLog.bind fun _ =>
    (HostM.moves_attempt (overlooks.moves_onFiles _)).bind fun _ => Action.moves_pure _

end Store

end Host.Overlooks

end PageBuild
