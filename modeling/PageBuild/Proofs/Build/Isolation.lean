import PageBuild.Build.Run
import PageBuild.Proofs.Build.Host
import PageBuild.Proofs.Build.Staging
import PageBuild.Proofs.Files.Apart

/-!
# Builds side by side

A build stages templates into its directory, narrates into its log and removes both in the end.
Where the paths of two builds lie apart, none of this changes what belongs to the other build, and
none of it depends on that (`Staging.builds_isolated`). Where they do not, the log of one build is
the directory of the other (`Staging.log_is_directory`).
-/
namespace PageBuild

open PageBuild.Action (Moves Twin TwinRuns)

variable {σ α : Type}

/-! ## What belongs to a build -/

namespace Staging

/-- Whether a location is or lies below the directory or the log of a build. -/
def Owns (staging : Staging) (here : Location) (location : Location) : Prop :=
  ∃ path ∈ staging.paths, path.place here <+: location

variable {first second : Job} {here : Location}

/-- What belongs to a build lies below the root at one of its names. -/
theorem owns_iff {job : Job} (isName : Path.IsName job.buildId) {location : Location} :
    job.staging.Owns here location ↔
      ∃ name ∈ names job.buildId, job.staging.root.place here ++ [name] <+: location := by
  have places : ∀ name ∈ names job.buildId,
      (job.staging.root.join ⟨name⟩).place here = job.staging.root.place here ++ [name] :=
    fun name member => (isName_names isName name member).place_join _ _
  rw [Owns, paths_eq]
  constructor
  · rintro ⟨path, member, below⟩
    obtain ⟨name, named, rfl⟩ := List.mem_map.mp member
    exact ⟨name, named, places name named ▸ below⟩
  · rintro ⟨name, named, below⟩
    exact ⟨_, List.mem_map_of_mem named, (places name named).symm ▸ below⟩

/-- What belongs to a build does not belong to one whose paths lie apart. -/
theorem Disjoint.not_owns (disjoint : first.staging.Disjoint second.staging)
    (isName : Path.IsName first.buildId) (other : Path.IsName second.buildId)
    (distinct : first.buildId ≠ second.buildId)
    (shared : first.staging.root = second.staging.root) {location : Location}
    (owns : first.staging.Owns here location) : ¬second.staging.Owns here location := by
  rw [disjoint_iff isName other distinct shared, ← names_disjoint_iff distinct] at disjoint
  rw [owns_iff isName, shared] at owns
  rw [owns_iff other]
  obtain ⟨name, member, below⟩ := owns
  rintro ⟨another, within, below'⟩
  refine disjoint name member another within ?_
  have same := List.prefix_of_prefix_length_le below below' (by simp)
  simpa [List.prefix_append_right_inj] using same

end Staging

/-! ## Steps of a build -/

namespace Staging

/-- A step of a build in its directory or with its log. -/
inductive Deed where
  | stage (template : Path)
  | openLog
  | narrate (level : Level) (text : String)
  | closeLog
  | clean

/-- What a step does; staging gives the number of files. -/
def Deed.action (staging : Staging) : Deed → HostM σ Nat
  | stage template => HostM.onFiles (staging.stage template)
  | openLog => do
    Build.openLog staging.logPath
    return 0
  | narrate level text => do
    HostM.narrate level text
    return 0
  | closeLog => do
    Build.closeLog
    return 0
  | clean => do
    HostM.onFiles staging.clean
    return 0

/-- What becomes of steps one after the other, whether they work out or not. -/
def outcomes (staging : Staging) : List Deed → HostM σ (List (Except Failure Nat))
  | [] => return []
  | deed :: deeds => do
    let outcome ← HostM.attempt (deed.action staging)
    return outcome :: (← outcomes staging deeds)

end Staging

/-! ## What steps change -/

namespace Staging

variable {here : Location} {staging : Staging} {touched : Location → Entry → Prop}

/-- To clear a directory and go on changes what lies below it and what is changed then. -/
theorem keeps_cleared {path : Path} {next : FileM α}
    (mine : ∀ place entry, path.place here <+: place → touched place entry)
    (rest : Moves (Files.Keeps here touched) next) :
    Moves (Files.Keeps here touched) (do
      if (← get).pathExists path then FileM.change (·.removeTree path)
      next) := by
  have removed : Moves (Files.Keeps here touched) (FileM.change (·.removeTree path)) :=
    FileM.moves_change fun _ _ => Files.keeps_removeTree mine
  refine Action.moves_get_bind fun files => ?_
  split
  · exact removed.bind (fun _ => rest) files
  · exact rest files

/-- To stage a template changes what is or lies below the directory of the build. -/
theorem keeps_stage (template : Path)
    (mine : ∀ place entry, staging.buildDir.place here <+: place → touched place entry) :
    Moves (Files.Keeps here touched) (staging.stage template) := by
  have copies : Moves (Files.Keeps here touched) (FileM.copyTree template staging.buildDir) :=
    FileM.keeps_copyTree _ _ fun place old within => mine place _ within
  have refused : Moves (Files.Keeps here touched)
      (throw (.noTemplate template.text) : FileM PUnit) := Action.moves_throw _
  refine Action.moves_get_bind fun files => ?_
  split
  · exact refused.bind (fun _ => keeps_cleared mine copies) files
  · exact keeps_cleared mine copies files

/-- To clean up changes what is or lies below the directory of the build or at its log. -/
theorem keeps_clean
    (mine : ∀ path ∈ staging.paths, ∀ place entry, path.place here <+: place →
      touched place entry) :
    Moves (Files.Keeps here touched) staging.clean := by
  have removed : Moves (Files.Keeps here touched) (FileM.change (·.removeFile staging.logPath)) :=
    FileM.moves_change fun _ _ => Files.keeps_removeFile fun entry =>
      mine _ (by simp [paths]) _ _ List.prefix_rfl
  refine keeps_cleared (mine _ (by simp [paths])) (Action.moves_get_bind fun files => ?_)
  split
  · exact removed files
  · exact refl_of (Files.Keeps here touched) files

/-- To open a log changes what stands at its place. -/
theorem keeps_openLog {path : Path} (mine : ∀ old, touched (path.place here) (.file old)) :
    Moves (Host.Keeps here touched) (Build.openLog path : HostM σ Unit) := by
  refine (HostM.keeps_onFiles (FileM.keeps_ensureParent _)).bind fun _ =>
    (HostM.keeps_onFiles (FileM.moves_change fun _ _ => Files.keeps_writeFile mine)).bind fun _ =>
      (HostM.keeps_onFiles (FileM.moves_look _)).bind_of fun host found after located at_ => ?_
  rw [HostM.run_onFiles_look] at located
  obtain ⟨location, slashed⟩ := found
  cases ended : host.files.locate path with
  | error cause =>
    rw [ended] at located
    cases located
  | ok place =>
    rw [ended] at located
    cases located
    refine ⟨⟨at_.files, fun log opened => ?_⟩, refl_of (Host.Spares touched) host⟩
    cases opened
    rw [at_.files.locate_eq ended]
    exact mine

/-- A step changes what belongs to its build, or the log. -/
theorem keeps_action (deed : Deed) :
    Moves (Host.Keeps here fun location _ => staging.Owns here location)
      (deed.action staging : HostM σ Nat) := by
  cases deed with
  | stage template =>
    exact HostM.keeps_onFiles (keeps_stage template fun place _ below =>
      ⟨_, by simp [paths], below⟩)
  | openLog =>
    exact (keeps_openLog fun _ => ⟨_, by simp [paths], List.prefix_rfl⟩).bind
      fun _ => Action.moves_pure _
  | narrate level text =>
    exact (HostM.keeps_narrate level text).bind fun _ => Action.moves_pure _
  | closeLog =>
    refine Moves.bind (fun host at_ => ?_) fun _ => Action.moves_pure _
    exact ⟨⟨at_.files, fun log opened => by cases opened⟩, refl_of (Host.Spares _) host⟩
  | clean =>
    exact (HostM.keeps_onFiles (keeps_clean fun path member _ _ below =>
      ⟨path, member, below⟩)).bind fun _ => Action.moves_pure _

/-- Steps change what belongs to their build, or the log. -/
theorem keeps_outcomes (deeds : List Deed) :
    Moves (Host.Keeps here fun location _ => staging.Owns here location)
      (outcomes staging deeds : HostM σ (List (Except Failure Nat))) := by
  induction deeds with
  | nil => exact Action.moves_pure _
  | cons deed deeds ih =>
    exact (HostM.moves_attempt (keeps_action deed)).bind fun _ => ih.bind fun _ =>
      Action.moves_pure _

end Staging

/-! ## What steps look at -/

/-- Whether two machines are alike apart from a territory, in which each has what is given. -/
structure Host.Alike (here : Location) (territory : Location → Prop)
    (mine theirs : Location → Option Entry) (left right : Host σ) : Prop where
  files : left.files.Alike here territory mine theirs right.files
  log_eq : left.log = right.log
  log_outside : ∀ log, left.log = some log → ¬territory log
  now_eq : left.now = right.now

section Twins

variable {here : Location} {territory : Location → Prop} {mine theirs : Location → Option Entry}

namespace HostM

/-- An action on files tells as much apart as it does of them. -/
theorem twin_onFiles {action : FileM α} (twin : Twin (Files.Alike here territory mine theirs) action) :
    Twin (Host.Alike here territory mine theirs) (onFiles action : HostM σ α) := by
  intro left right alike
  obtain ⟨same, files⟩ := twin left.files right.files alike.files
  rw [run_onFiles, run_onFiles]
  exact ⟨congrArg (Except.mapError Failure.io) same, files, alike.log_eq, alike.log_outside,
    alike.now_eq⟩

/-- Narration tells nothing apart. -/
theorem twin_narrate (level : Level) (text : String) :
    Twin (Host.Alike here territory mine theirs) (narrate level text : HostM σ Unit) := by
  intro left right alike
  rw [run_narrate, run_narrate, ← alike.now_eq]
  cases opened : left.log with
  | none =>
    rw [← alike.log_eq, opened]
    exact ⟨rfl, alike⟩
  | some log =>
    rw [← alike.log_eq, opened]
    exact ⟨rfl, alike.files.append (alike.log_outside log opened) _, rfl,
      fun found same => alike.log_outside found (opened.trans same), rfl⟩

/-- An attempt tells as much apart as the action. -/
theorem twin_attempt {relation : Host σ → Host σ → Prop} {action : HostM σ α}
    (twin : Twin relation action) : Twin relation (attempt action) := by
  intro left right related
  obtain ⟨same, after⟩ := twin left right related
  rw [run_attempt, run_attempt]
  exact ⟨congrArg Except.ok same, after⟩

end HostM

namespace Staging

variable {staging : Staging}

/-- Whether a path avoids a territory that does not lie below it either. -/
structure Clears (territory : Location → Prop) (here : Location) (path : Path) : Prop where
  avoids : path.Avoids territory here
  clear : ∀ place, path.place here <+: place → ¬territory place

/-- To clear a directory and go on tells no more apart than going on. -/
theorem twin_cleared {path : Path} {next : FileM α} (clears : Clears territory here path)
    (rest : Twin (Files.Alike here territory mine theirs) next) :
    Twin (Files.Alike here territory mine theirs) (do
      if (← get).pathExists path then FileM.change (·.removeTree path)
      next) := by
  have removed : Twin (Files.Alike here territory mine theirs)
      (FileM.change (·.removeTree path)) :=
    FileM.twin_change fun _ _ alike => alike.removeTree clears.avoids clears.clear
  refine Action.twin_get_bind fun left right alike => ?_
  rw [alike.pathExists_eq clears.avoids]
  refine (?_ : Twin _ _) left right alike
  split
  · exact removed.bind fun _ => rest
  · exact rest

/-- A template is staged alike. -/
theorem twin_stage {template : Path} (source : Clears territory here template)
    (clears : ∀ path ∈ staging.paths, Clears territory here path) :
    Twin (Files.Alike here territory mine theirs) (staging.stage template) := by
  have target : Clears territory here staging.buildDir := clears _ (by simp [paths])
  have copies : Twin (Files.Alike here territory mine theirs)
      (FileM.copyTree template staging.buildDir) :=
    FileM.twin_copyTree source.avoids source.clear target.avoids target.clear
  have refused : Twin (Files.Alike here territory mine theirs)
      (throw (.noTemplate template.text) : FileM PUnit) := Action.twin_throw _
  refine Action.twin_get_bind fun left right alike => ?_
  rw [alike.isDirectory_eq source.avoids]
  refine (?_ : Twin _ _) left right alike
  split
  · exact refused.bind fun _ => twin_cleared target copies
  · exact twin_cleared target copies

/-- A build cleans up alike. -/
theorem twin_clean (clears : ∀ path ∈ staging.paths, Clears territory here path) :
    Twin (Files.Alike here territory mine theirs) staging.clean := by
  have log : Clears territory here staging.logPath := clears _ (by simp [paths])
  have removed : Twin (Files.Alike here territory mine theirs)
      (FileM.change (·.removeFile staging.logPath)) :=
    FileM.twin_change fun _ _ alike => alike.removeFile log.avoids
  refine twin_cleared (clears _ (by simp [paths])) (Action.twin_get_bind fun left right alike => ?_)
  rw [alike.pathExists_eq log.avoids]
  refine (?_ : Twin _ _) left right alike
  split
  · exact removed
  · exact Action.twin_pure _

/-- A log is opened alike. -/
theorem twin_openLog {path : Path} (avoids : path.Avoids territory here) :
    Twin (Host.Alike here territory mine theirs) (Build.openLog path : HostM σ Unit) := by
  refine (HostM.twin_onFiles (FileM.twin_ensureParent avoids)).bind fun _ =>
    (HostM.twin_onFiles (FileM.twin_change fun _ _ alike => alike.writeFile avoids _)).bind
      fun _ left right alike => ?_
  rw [Action.run_bind, Action.run_bind, HostM.run_onFiles_look, HostM.run_onFiles_look,
    ← alike.files.locate_eq avoids]
  cases located : left.files.locate path with
  | error cause => exact ⟨rfl, alike⟩
  | ok found =>
    obtain ⟨location, slashed⟩ := found
    refine ⟨rfl, alike.files, rfl, fun log opened => ?_, alike.now_eq⟩
    cases opened
    rw [alike.files.left_at.locate_eq located]
    exact avoids.place

/-- Whether the template that a step stages is clear of a territory. -/
def Deed.Clears (territory : Location → Prop) (here : Location) : Deed → Prop
  | stage template => Staging.Clears territory here template
  | _ => True

/-- A step tells nothing apart where the paths of its build and its template are clear of the
territory. -/
theorem twin_action {deed : Deed} (source : deed.Clears territory here)
    (clears : ∀ path ∈ staging.paths, Clears territory here path) :
    Twin (Host.Alike here territory mine theirs) (deed.action staging : HostM σ Nat) := by
  cases deed with
  | stage template => exact HostM.twin_onFiles (twin_stage source clears)
  | openLog =>
    exact (twin_openLog (clears _ (by simp [paths])).avoids).bind fun _ => Action.twin_pure _
  | narrate level text => exact (HostM.twin_narrate level text).bind fun _ => Action.twin_pure _
  | closeLog =>
    refine Twin.bind (fun left right alike => ?_) fun _ => Action.twin_pure _
    exact ⟨rfl, alike.files, rfl, fun log opened => (by cases opened), alike.now_eq⟩
  | clean => exact (HostM.twin_onFiles (twin_clean clears)).bind fun _ => Action.twin_pure _

/-- Steps tell nothing apart where the paths of their build and their templates are clear of the
territory. -/
theorem twin_outcomes {deeds : List Deed} (sources : ∀ deed ∈ deeds, deed.Clears territory here)
    (clears : ∀ path ∈ staging.paths, Clears territory here path) :
    Twin (Host.Alike here territory mine theirs)
      (outcomes staging deeds : HostM σ (List (Except Failure Nat))) := by
  induction deeds with
  | nil => exact Action.twin_pure _
  | cons deed deeds ih =>
    obtain ⟨first, others⟩ := List.forall_mem_cons.mp sources
    exact (HostM.twin_attempt (twin_action first clears)).bind fun _ => (ih others).bind fun _ =>
      Action.twin_pure _

end Staging

end Twins

/-! ## Two builds -/

namespace Staging

variable {first second : Job} {here : Location}

/-- The paths of a build are clear of what belongs to another one whose paths lie apart, if the way to
the root they share leads through nothing of it. -/
theorem Disjoint.clears (disjoint : first.staging.Disjoint second.staging)
    (isName : Path.IsName first.buildId) (other : Path.IsName second.buildId)
    (distinct : first.buildId ≠ second.buildId)
    (shared : first.staging.root = second.staging.root)
    (way : first.staging.root.Avoids (second.staging.Owns here) here) :
    ∀ path ∈ first.staging.paths, Clears (second.staging.Owns here) here path := by
  have outside : ∀ path ∈ first.staging.paths, ∀ place, path.place here <+: place →
      ¬second.staging.Owns here place :=
    fun path member place below =>
      disjoint.not_owns isName other distinct shared ⟨path, member, below⟩
  intro path member
  refine ⟨?_, outside path member⟩
  rw [paths_eq] at member
  obtain ⟨name, named, rfl⟩ := List.mem_map.mp member
  have step := isName_names isName name named
  exact way.join step.pieces step.isAbsolute
    (outside _ (paths_eq first ▸ List.mem_map_of_mem named) _ List.prefix_rfl)

/-- The way to a root that never goes up leads through nothing that belongs to a build. -/
theorem avoids_root {job : Job} (isName : Path.IsName job.buildId)
    (straight : ".." ∉ job.staging.root.pieces) :
    job.staging.root.Avoids (job.staging.Owns here) here := by
  refine Path.avoids_of_straight straight fun location above owns => ?_
  obtain ⟨name, -, below⟩ := (owns_iff isName).mp owns
  have lengths := (below.trans above).length_le
  simp only [List.length_append, List.length_singleton] at lengths
  omega

/-- The paths of two builds with different ids below one root lie apart unless one id is that of the
other with the extension of logs. Then no steps of the one change anything that belongs to the other;
and if neither the way to the root nor a template leads there, none of them depends on it: on a
machine that differs only in what belongs to the other build, they end alike and leave all else
alike. -/
theorem builds_isolated (first second : Job) (accepted : first.validate = .ok ())
    (accepted' : second.validate = .ok ()) (distinct : first.buildId ≠ second.buildId)
    (shared : first.staging.root = second.staging.root) :
    (first.staging.Disjoint second.staging ↔
      first.buildId ≠ second.buildId ++ logExtension ∧
        second.buildId ≠ first.buildId ++ logExtension) ∧
    (first.staging.Disjoint second.staging →
      ∀ (here : Location) (deeds : List Deed) (host : Host σ),
        host.files.At here → host.log = none →
        (∀ place entry, second.staging.Owns here place →
          host.files.tree.find? place = some entry →
          ((outcomes first.staging deeds).run host).2.files.tree.find? place = some entry) ∧
        (first.staging.root.Avoids (second.staging.Owns here) here →
          (∀ deed ∈ deeds, deed.Clears (second.staging.Owns here) here) →
          ∀ other : Host σ, other.files.At here → other.log = none → other.now = host.now →
            (∀ place, ¬second.staging.Owns here place →
              host.files.tree.find? place = other.files.tree.find? place) →
            ((outcomes first.staging deeds).run host).1 =
                ((outcomes first.staging deeds).run other).1 ∧
              ∀ place,
                (¬second.staging.Owns here place →
                  ((outcomes first.staging deeds).run host).2.files.tree.find? place =
                    ((outcomes first.staging deeds).run other).2.files.tree.find? place) ∧
                (second.staging.Owns here place →
                  ((outcomes first.staging deeds).run host).2.files.tree.find? place =
                    host.files.tree.find? place))) := by
  have isName := Job.isName_buildId accepted
  have other := Job.isName_buildId accepted'
  refine ⟨disjoint_iff isName other distinct shared, fun disjoint here deeds host at_ closed => ?_⟩
  constructor
  · intro place entry owns stands
    have moves : Moves (Host.Keeps here fun location _ => first.staging.Owns here location)
        (outcomes first.staging deeds : HostM σ (List (Except Failure Nat))) := keeps_outcomes deeds
    have kept := moves host ⟨at_, fun log opened => (by rw [closed] at opened; cases opened)⟩
    exact kept.2 place entry (fun mine => disjoint.not_owns isName other distinct shared mine owns)
      stands
  · intro way sources right right_at right_closed now same
    have alike : Host.Alike here (second.staging.Owns here) host.files.tree.find?
        right.files.tree.find? host right :=
      ⟨⟨at_, right_at, same, fun _ _ => rfl, fun _ _ => rfl⟩, closed.trans right_closed.symm,
        fun log opened => (by rw [closed] at opened; cases opened), now.symm⟩
    obtain ⟨ended, after⟩ := twin_outcomes sources
      (disjoint.clears isName other distinct shared way) host right alike
    exact ⟨ended, fun place => ⟨after.files.outside place, after.files.left_inside place⟩⟩

section Sample

/-- A job with an id, whose template is a directory of the machine below. -/
def sampleJob (buildId : String) : Job := ⟨"", buildId, ⟨"/t"⟩, .fat, false, none, some ⟨"/s"⟩⟩

/-- A machine with a template and a file of the build with id `c`. -/
def sampleHost : Host Unit where
  files := ((Files.mk .empty []).plant [] "t/index.html" .empty).plant [] "s/c/old.txt" .empty
  log := none
  now := ⟨0⟩
  uptime := 0
  bundlers := []
  store := ()

/-- The machine without what belongs to the build with id `c`. -/
def sampleRest : Host Unit :=
  { sampleHost with
    files := { sampleHost.files with tree := sampleHost.files.tree.eraseBelow ["s", "c"] } }

/-- The steps of a build from start to end. -/
def sampleDeeds : List Deed :=
  [.openLog, .stage ⟨"/t"⟩, .narrate .info "done", .closeLog, .clean]

/-- The two machines are alike apart from what belongs to the build with id `c`. -/
theorem find?_sampleRest {place : Location} (outside : ¬(sampleJob "c").staging.Owns [] place) :
    sampleHost.files.tree.find? place = sampleRest.files.tree.find? place := by
  by_cases root : place = []
  · rw [root, FileTree.find?_nil, FileTree.find?_nil]
  · rw [sampleRest, FileTree.find?_eraseBelow _ _ _ root, if_neg]
    exact fun below => outside ((owns_iff (by decide)).mpr ⟨"c", by decide, below⟩)

/-- A build ends alike whether or not another one has files, and leaves these. -/
theorem builds_isolated_pair :
    (sampleJob "b").validate = .ok () ∧ (sampleJob "c").validate = .ok () ∧
      (sampleJob "b").staging.Disjoint (sampleJob "c").staging ∧
      ((outcomes (sampleJob "b").staging sampleDeeds).run sampleHost).1 =
        ((outcomes (sampleJob "b").staging sampleDeeds).run sampleRest).1 ∧
      ∀ place, (sampleJob "c").staging.Owns [] place →
        ((outcomes (sampleJob "b").staging sampleDeeds).run sampleHost).2.files.tree.find? place =
          sampleHost.files.tree.find? place := by
  have accepted : (sampleJob "b").validate = .ok () := by decide +kernel
  have accepted' : (sampleJob "c").validate = .ok () := by decide +kernel
  have isName : Path.IsName (sampleJob "c").buildId := by decide
  have at_ : sampleHost.files.At [] :=
    ⟨rfl, FileTree.isNamed_of_entries (by decide +kernel), by simp⟩
  have rest_at : sampleRest.files.At [] := ⟨rfl, at_.named.restrict _, by simp⟩
  have apart : ∀ place, ["t"] <+: place → ¬(sampleJob "c").staging.Owns [] place := by
    rintro place ⟨names, rfl⟩ owns
    obtain ⟨name, -, below⟩ := (owns_iff isName).mp owns
    have first : (sampleJob "c").staging.root.place [] = ["s"] := by decide
    simp [first] at below
  have template : Clears ((sampleJob "c").staging.Owns []) [] ⟨"/t"⟩ := by
    refine ⟨Path.avoids_of_straight (by decide) fun location above owns => ?_, apart⟩
    obtain ⟨name, -, below⟩ := (owns_iff isName).mp owns
    have lengths := (below.trans above).length_le
    have place : (Path.mk "/t").place [] = ["t"] := by decide
    have root : (sampleJob "c").staging.root.place [] = ["s"] := by decide
    simp [place, root] at lengths
  have isolated := @builds_isolated Unit (sampleJob "b") (sampleJob "c") accepted accepted'
    (by decide) rfl
  have disjoint := isolated.1.mpr (by decide)
  obtain ⟨ended, after⟩ := (isolated.2 disjoint [] sampleDeeds sampleHost at_ rfl).2
    (@avoids_root [] (sampleJob "c") isName (by decide))
    (by simp [sampleDeeds, Deed.Clears, template]) sampleRest rest_at rfl rfl
    fun place => find?_sampleRest
  exact ⟨accepted, accepted', disjoint, ended, fun place => (after place).2⟩

/-- The log of one build is the directory of another whose id ends like a log: with the log open the
other build cannot be staged, which it can be without. -/
theorem log_is_directory :
    (sampleJob "b").validate = .ok () ∧ (sampleJob "b.log").validate = .ok () ∧
      (sampleJob "b").staging.logPath = (sampleJob "b.log").staging.buildDir ∧
      ((outcomes (sampleJob "b.log").staging [.stage ⟨"/t"⟩]).run sampleHost).1 =
        .ok [.ok 1] ∧
      ((outcomes (sampleJob "b.log").staging [.stage ⟨"/t"⟩]).run
          ((outcomes (sampleJob "b").staging [.openLog]).run sampleHost).2).1 =
        .ok [.error (.io .notDirectory)] := by
  decide +kernel

end Sample

end Staging

end PageBuild
