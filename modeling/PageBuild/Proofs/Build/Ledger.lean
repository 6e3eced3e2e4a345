import PageBuild.Proofs.Build.Confined
import PageBuild.Proofs.Build.Overlook
import PageBuild.Proofs.Publish.Recorded

/-!
# What a build asks of its store

The steps of a build leave the store alone; only publishing an output puts files, all of which stand
below the directory of the output (`Publisher.records_publishDist`).
-/
namespace PageBuild

open PageBuild.Action (Moves Under)
open Files (Edit)

variable {σ : Type} {here : Location} {host after : Host σ}

/-! ## Stores that are left alone -/

/-- Whether two hosts have the store in the same state. -/
def Host.SameStore (before after : Host σ) : Prop := after.store = before.store

instance : IsPreorder (Host σ) Host.SameStore where
  refl _ := rfl
  trans _ _ _ first second := second.trans first

/-- Files and logs do not matter to the store. -/
theorem Host.overlooks_sameStore : Host.Overlooks (Host.SameStore : Host σ → Host σ → Prop) :=
  ⟨fun _ _ => rfl, fun _ _ => rfl⟩

/-- An action on the files leaves the store alone. -/
theorem HostM.sameStore_onFiles {α : Type} (action : FileM α) :
    Moves Host.SameStore (onFiles action : HostM σ α) :=
  Host.overlooks_sameStore.moves_onFiles action

/-- Narration leaves the store alone. -/
theorem HostM.sameStore_narrate (level : Level) (text : String) :
    Moves Host.SameStore (narrate level text : HostM σ Unit) :=
  Host.overlooks_sameStore.moves_narrate level text

/-- To run a bundler leaves the store alone. -/
theorem Bundler.sameStore_run (runner : Runner) (call : CommandCall) :
    Moves Host.SameStore (run runner call : HostM σ Unit) := by
  intro host
  rw [run, Action.run_get_bind]
  generalize runner call host.files = outcome
  obtain ⟨came, files⟩ := outcome
  cases came with
  | notStarted cause => rfl
  | started group ending milliseconds =>
    dsimp only
    cases verdict call ending <;> rfl

namespace Build

variable {tools : Tools} {settings : Settings} {job : Job} {schema : Schema}

/-- The steps of a build leave the store alone. -/
theorem sameStore_execute :
    Moves Host.SameStore (execute tools settings job schema job.staging : HostM σ Unit) := by
  have overlooks : Host.Overlooks (Host.SameStore : Host σ → Host σ → Prop) := Host.overlooks_sameStore
  refine Moves.bind ?_ fun _ => overlooks.moves_verify _ _ _
  exact (overlooks.moves_onFiles _).bind fun _ => (overlooks.moves_narrate _ _).bind fun _ =>
    (overlooks.moves_compile _ _ _ _ _).bind fun _ => (overlooks.moves_narrate _ _).bind fun _ =>
      (overlooks.moves_narrate _ _).bind fun _ =>
        Action.moves_get_bind fun _ => Bundler.sameStore_run _ _ _

/-- To open a log leaves the store alone. -/
theorem sameStore_openLog (path : Path) : Moves Host.SameStore (openLog path : HostM σ Unit) :=
  Host.overlooks_sameStore.moves_openLog path

end Build

/-! ## Records -/

/-- Whether puts were added to a record, none of them of a file at a place. -/
def Host.Records (here place : Location) (before after : Host (σ × List Deposit)) : Prop :=
  ∃ made, after.store.2 = before.store.2 ++ made ∧
    ∀ deposit ∈ made, deposit.file.place here ≠ place

instance {place : Location} : IsPreorder (Host (σ × List Deposit)) (Host.Records here place) where
  refl _ := ⟨[], (List.append_nil _).symm, by simp⟩
  trans _ _ _ := by
    rintro ⟨made, first, apart⟩ ⟨more, second, others⟩
    refine ⟨made ++ more, by rw [second, first, List.append_assoc], fun deposit member => ?_⟩
    exact (List.mem_append.mp member).elim (apart deposit) (others deposit)

/-- Where the store is left alone nothing is put. -/
theorem Host.SameStore.records {place : Location} {before after : Host (σ × List Deposit)}
    (same : before.SameStore after) : before.Records here place after :=
  ⟨[], by rw [same, List.append_nil], by simp⟩

/-- A store that remembers its puts changes the files as it does without. -/
theorem Store.performs_recorded {store : Store σ} {log : Option Location} {allowed : Edit → Prop}
    (puts : ∀ key file cache, Moves (Host.Performs here log allowed) (store.put key file cache))
    (key : String) (file : Path) (cache : String) :
    Moves (Host.Performs here log allowed) (store.recorded.put key file cache) := by
  intro host tended
  obtain ⟨kept, edits⟩ :=
    puts key file cache (host.withStore host.store.1) ⟨tended.sound, tended.log_eq⟩
  exact ⟨⟨kept.sound, kept.log_eq⟩, edits⟩

namespace Publisher

/-- The files that are listed have names below the directory, or stand at its path. -/
theorem exists_descend_of_listFiles {directory : Path} {files : List Path}
    (at_ : host.files.At here)
    (listed : (listFiles directory : HostM σ (List Path)).run host = (.ok files, after)) :
    ∀ file ∈ files, ∃ names, (∀ name ∈ names, Path.IsName name) ∧ file = directory.descend names := by
  obtain ⟨listing, rfl, met, -⟩ := of_run_listFiles listed
  intro file member
  obtain ⟨item, walks, rfl⟩ := List.mem_map.mp member
  rw [Files.listFiles] at met
  cases walked : host.files.walk directory with
  | error cause =>
    rw [walked] at met
    cases met
  | ok items =>
    rw [walked] at met
    cases met
    cases located : host.files.locate directory with
    | error cause =>
      rw [Files.walk, located] at walked
      cases walked
    | ok found =>
      rcases (Files.mem_of_walk walked located).mp (List.mem_filter.mp walks).1 with
        ⟨entry, -, rfl⟩ | ⟨names, entry, -, stands, rfl⟩
      · exact ⟨[], by simp, rfl⟩
      · exact ⟨names, fun name member =>
          at_.named _ _ stands name (List.mem_append_right _ member), rfl⟩

/-- To publish an output puts files below its directory. -/
theorem records_publishDist {publisher : Publisher} {store : Store σ} {policy : Uploads.Policy}
    {dist : Path} {app : AppInfo} {environment : Environment} {place : Location}
    {host : Host (σ × List Deposit)} (at_ : host.files.At here)
    (apart : ¬dist.place here <+: place) :
    host.Records here place
      ((publisher.publishDist store.recorded policy dist app environment).run host).2 := by
  have narrates : ∀ level text, Moves (Host.Records here place)
      (HostM.narrate level text : HostM (σ × List Deposit) Unit) :=
    fun level text host => (HostM.sameStore_narrate level text host).records
  have lists : Moves (Host.Records here place)
      (listFiles dist : HostM (σ × List Deposit) (List Path)) := by
    refine Moves.bind (fun host => ?_) fun _ => Action.moves_pure _
    exact (HostM.sameStore_onFiles _ host).records
  rw [publishDist]
  split
  · exact refl_of (Host.Records here place) host
  · refine Action.related_bind (lists host) fun files middle listed => ?_
    refine ((narrates _ _).bind fun _ => Moves.bind ?_ fun _ => Action.moves_pure _) middle
    have below := exists_descend_of_listFiles at_ listed
    refine @Uploads.moves_run _ _ (fun file _ => file ∈ files) (Host.Records here place) _
      (fun file key member host => ?_) (narrates .info) _ _ _ fun pair member key _ => ?_
    · refine ⟨_, Store.deposits_put rfl, fun deposit kept => ?_⟩
      obtain rfl := List.mem_singleton.mp kept
      obtain ⟨names, named, rfl⟩ := below file member
      rintro rfl
      refine apart ?_
      rw [Path.place_descend named]
      exact List.prefix_append _ _
    · obtain ⟨file, listed, rfl⟩ := List.mem_map.mp member
      exact listed

end Publisher

end PageBuild
