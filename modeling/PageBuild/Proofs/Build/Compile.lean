import PageBuild.Proofs.Build.Scaffold
import PageBuild.Proofs.Page.Plan

/-!
# Compiled trees

Where a module is written for each page, pages of one id share a module, and the last of them keeps
it. The scaffold files and the validity check are written later, and leave the modules as they are
unless a template has the place of one.
-/
namespace PageBuild

open PageBuild.Action (Moves)

namespace Compile

open Scaffold (Slot)

variable {σ : Type} {here : Location} {host middle after : Host σ} {files : Files} {root : Path}
  {fill : Filler} {schema : Schema} {environment : Environment} {isPreview : Bool} {plan : Plan}
  {compiled : Compiled} {page : String × PageSource} {done : List (String × PageSource)}
  {paths : List Path}

/-! ## Places -/

/-- The module of a page, as if it were the output of a template. -/
def moduleSlot (id : String) : Slot := ⟨["src", "pages"], id ++ ".js"⟩

/-- The names on the way down to the validity check. -/
def checkNames : List String := ["src", "page-valid-check.js"]

/-- The names on the way down to the directory of modules are names. -/
theorem isName_pagesNames : ∀ name ∈ ["src", "pages"], Path.IsName name := by decide

/-- The names on the way down to the validity check are names. -/
theorem isName_checkNames : ∀ name ∈ checkNames, Path.IsName name := by decide

/-- The path of the directory of modules goes down by names. -/
theorem join_pagesDirectory (root : Path) :
    root.join pagesDirectory = (root.join ⟨"src"⟩).join ⟨"pages"⟩ :=
  Path.join_names isName_pagesNames (by decide) root

/-- The path of the validity check goes down by names. -/
theorem join_validCheckPath (root : Path) :
    root.join validCheckPath = (root.join ⟨"src"⟩).join ⟨"page-valid-check.js"⟩ :=
  Path.join_names isName_checkNames (by decide) root

/-- Where the directory of modules is. -/
theorem place_pagesDirectory (root : Path) (here : Location) :
    (root.join pagesDirectory).place here = root.place here ++ ["src", "pages"] := by
  rw [join_pagesDirectory]
  exact Path.place_descend isName_pagesNames root here

/-- Where the validity check is. -/
theorem place_validCheckPath (root : Path) (here : Location) :
    (root.join validCheckPath).place here = root.place here ++ checkNames := by
  rw [join_validCheckPath]
  exact Path.place_descend isName_checkNames root here

/-- The directory of the validity check. -/
theorem ensureParent_validCheckPath (root : Path) :
    FileM.ensureParent (root.join validCheckPath) = FileM.ensureDirectory (root.join ⟨"src"⟩) := by
  have parent : (root.join validCheckPath).parent? = some (root.join ⟨"src"⟩) := by
    rw [join_validCheckPath]
    exact Path.parent?_join (by decide) (by decide) root
  rw [FileM.ensureParent, parent]

/-- An id that is a plain name makes the name of a module. -/
theorem isName_module {id : String} (plain : Text.isPlainName id = true) : Path.IsName (id ++ ".js") :=
  (Path.isName_of_isPlainName plain).append (by decide) (by decide : _ = some 's') (by decide)

/-- A module is no template. -/
theorem moduleSlot_output_ne (id : String) (slot : Slot) : (moduleSlot id).output ≠ slot.source := by
  intro same
  rw [Slot.source] at same
  have names := List.singleton_inj.mp (List.append_inj' same rfl).2
  have ends := congrArg (fun name => name.toList.reverse.take 2) names
  simp [moduleSlot, templateExtension] at ends

/-! ## Modules -/

/-- What stands at a place for the modules of pages, of which the last one counts. -/
def moduleAt (directory : Location) (pages : List (String × PageSource)) (place : Location) :
    Option Entry :=
  (pages.reverse.find? fun page => directory ++ [page.1 ++ ".js"] = place).map fun page =>
    .file page.2.toModule.toUTF8

/-- One more module counts at its place. -/
theorem moduleAt_concat (directory : Location) (pages : List (String × PageSource))
    (page : String × PageSource) (place : Location) :
    moduleAt directory (pages ++ [page]) place =
      if place = directory ++ [page.1 ++ ".js"] then some (.file page.2.toModule.toUTF8)
      else moduleAt directory pages place := by
  rw [moduleAt, List.reverse_append, List.reverse_singleton, List.singleton_append, List.find?_cons]
  by_cases same : place = directory ++ [page.1 ++ ".js"]
  · simp [same]
  · simp [same, Ne.symm same, moduleAt]

/-- Modules that come later count before one. -/
theorem moduleAt_cons (directory : Location) (page : String × PageSource)
    (pages : List (String × PageSource)) (place : Location) :
    moduleAt directory (page :: pages) place =
      (moduleAt directory pages place).or (moduleAt directory [page] place) := by
  rw [moduleAt, List.reverse_cons, List.find?_append, Option.map_or]
  rfl

/-- Nothing is written where no module belongs. -/
theorem moduleAt_eq_none {directory place : Location} {pages : List (String × PageSource)}
    (apart : ∀ page ∈ pages, directory ++ [page.1 ++ ".js"] ≠ place) :
    moduleAt directory pages place = none := by
  simpa [moduleAt] using fun id source member => apart (id, source) member

/-- The modules so far are written, all directories are kept, and all else but the open log is as it
was. -/
structure Written (directory : Path) (here : Location) (before : Host σ)
    (done : List (String × PageSource)) (paths : List Path) (after : Host σ) : Prop where
  sound : after.files.IsSound here
  log_eq : after.log = before.log
  paths_eq : paths = done.map fun page => directory.join ⟨page.1 ++ ".js"⟩
  directories : ∀ place, before.files.tree.find? place = some .directory →
    after.files.tree.find? place = some .directory
  found : ∀ place, before.log ≠ some place → after.files.tree.find? place =
    (moduleAt (directory.place here) done place).or (before.files.tree.find? place)

/-- Directories are still found when modules were written. -/
theorem Written.isDirectory {directory path : Path}
    (written : Written directory here host done paths after) (sound : host.files.IsSound here)
    (stands : host.files.isDirectory path = true) : after.files.isDirectory path = true :=
  Files.isDirectory_of_directories written.directories
    (written.sound.here_eq.trans sound.here_eq.symm) stands

/-- What was written when the module of a page was. -/
theorem of_run_writePage_ok {directory path : Path}
    (ran : (writePage directory page).run host = (.ok path, after)) :
    path = directory.join ⟨page.1 ++ ".js"⟩ ∧
      ∃ files, host.files.writeFile path page.2.toModule.toUTF8 = .ok files ∧
        after = ({ host with files } : Host σ).told .info ("Generated " ++ path.text) := by
  rw [writePage] at ran
  obtain ⟨done, middle, changed, told⟩ := Action.of_run_bind_ok ran
  obtain ⟨files, wrote, rfl⟩ := HostM.of_run_change_ok changed
  rw [HostM.run_info_bind] at told
  cases told
  exact ⟨rfl, files, wrote, rfl⟩

/-- One more module is written. -/
theorem Written.concat {directory path : Path} (written : Written directory here host done paths middle)
    (isName : Path.IsName (page.1 ++ ".js"))
    (ran : (writePage directory page).run middle = (.ok path, after)) :
    Written directory here host (done ++ [page]) (paths ++ [path]) after := by
  obtain ⟨rfl, files, wrote, rfl⟩ := of_run_writePage_ok ran
  have sound : files.IsSound here :=
    (Files.applies_writeFile written.sound wrote).isSound written.sound
  have found := Files.find?_of_writeFile written.sound.toAt wrote
  rw [isName.place_join] at found
  refine ⟨HostM.isSound_told sound _ _, (HostM.log_told _ _ _).trans written.log_eq, ?_, ?_, ?_⟩
  · rw [written.paths_eq, List.map_append, List.map_singleton]
  · intro place stands
    have still := written.directories place stands
    obtain ⟨location, located, free, -⟩ := Files.writeFile_eq_ok.mp wrote
    rw [written.sound.locate_eq located, isName.place_join] at free
    refine HostM.directory_told ?_ _ _
    have other : place ≠ directory.place here ++ [page.1 ++ ".js"] := by
      rintro rfl
      exact free still
    rw [← still]
    exact (found place).trans (if_neg other)
  · intro place other
    have told : (({ middle with files } : Host σ).told .info _).files.tree.find? place =
        files.tree.find? place :=
      HostM.find?_told (written.log_eq ▸ other) .info
        ("Generated " ++ (directory.join ⟨page.1 ++ ".js"⟩).text)
    rw [told, found, moduleAt_concat, written.found place other]
    split <;> simp

/-- Before any module is written all is as it is. -/
theorem written_nil {directory : Path} (sound : host.files.IsSound here) :
    Written directory here host [] [] host :=
  ⟨sound, rfl, rfl, fun _ stands => stands, fun _ _ => rfl⟩

/-- The modules of pages are written. -/
theorem written_of_mapM {directory : Path} {pages : List (String × PageSource)}
    (sound : host.files.IsSound here) (names : ∀ page ∈ pages, Path.IsName (page.1 ++ ".js"))
    (ran : (pages.mapM (writePage directory)).run host = (.ok paths, after)) :
    Written directory here host pages paths after := by
  refine Action.of_run_mapM_ok ?_ (written_nil sound) ran
  intro done page rest split outputs middle output last written stepped
  exact written.concat (names page (by simp [split])) stepped

/-- Modules are no templates. -/
theorem moduleAt_source (base : Location) (pages : List (String × PageSource)) (slot : Slot) :
    moduleAt (base ++ ["src", "pages"]) pages (base ++ slot.source) = none := by
  refine moduleAt_eq_none fun page _ same => ?_
  rw [List.append_assoc, List.append_cancel_left_eq] at same
  exact moduleSlot_output_ne page.1 slot same

/-- Of the pages of an id the last one keeps the module. -/
theorem moduleAt_last {pages before later : List Page} {page : Page}
    {sources : List (String × PageSource)}
    (each : List.Forall₂ (Plan.IsSource schema) pages sources)
    (split : pages = before ++ page :: later) (last : ∀ other ∈ later, other.id ≠ page.id)
    (directory : Location) :
    ∃ children, schema.Shows page children ∧
      moduleAt directory sources (directory ++ [page.id ++ ".js"]) =
        some (.file (PageSource.ofNodes children
          (ComponentIndex.ofEntries schema.entries)).toModule.toUTF8) := by
  induction before generalizing pages sources with
  | nil =>
    subst split
    obtain _ | @⟨_, _, _, rest, ⟨children, shows, rfl⟩, others⟩ := each
    have apart : ∀ source ∈ rest, directory ++ [source.1 ++ ".js"] ≠ directory ++ [page.id ++ ".js"] := by
      intro source member same
      have id_mem : source.1 ∈ later.map (·.id) := Plan.ids_eq others ▸ List.mem_map_of_mem member
      obtain ⟨other, within, id_eq⟩ := List.mem_map.mp id_mem
      refine last other within (id_eq.trans ?_)
      have names := List.singleton_inj.mp (List.append_cancel_left same)
      exact (String.append_left_inj _).mp names
    refine ⟨children, shows, ?_⟩
    rw [moduleAt_cons, moduleAt_eq_none apart]
    simp [moduleAt]
  | cons first before ih =>
    subst split
    obtain _ | ⟨-, others⟩ := each
    obtain ⟨children, shows, found⟩ := ih others rfl
    exact ⟨children, shows, by rw [moduleAt_cons, found, Option.some_or]⟩

/-! ## Runs -/

/-- A schema that has no plan is refused. -/
theorem run_of_flaw {flaw : SchemaFlaw}
    (refused : Plan.ofSchema schema (mode host.files root) environment isPreview = .error flaw) :
    (run fill schema root environment isPreview).run host =
      (.error (.validation flaw.message), host.told .info (modeText (mode host.files root))) := by
  rw [run, Action.run_get_bind]
  dsimp only
  rw [HostM.run_info_bind, refused]
  rfl

/-- A plan is written. -/
theorem run_of_plan
    (planned : Plan.ofSchema schema (mode host.files root) environment isPreview = .ok plan) :
    (run fill schema root environment isPreview).run host =
      (write fill plan root).run (host.told .info (modeText (mode host.files root))) := by
  rw [run, Action.run_get_bind]
  dsimp only
  rw [HostM.run_info_bind, planned]

/-- What was written when a plan was. -/
theorem of_run_write_ok (ran : (write fill plan root).run host = (.ok compiled, after)) :
    ∃ pageFiles first scaffoldFiles second,
      (writePages plan root).run host = (.ok pageFiles, first) ∧
        (Scaffold.fillTree fill plan.context.toJson root).run first = (.ok scaffoldFiles, second) ∧
        (writeCheck root).run second = (.ok (), after) ∧
        compiled = ⟨plan.mode, pageFiles, scaffoldFiles⟩ := by
  rw [write] at ran
  obtain ⟨pageFiles, first, pages, ran⟩ := Action.of_run_bind_ok ran
  obtain ⟨scaffoldFiles, second, filled, ran⟩ := Action.of_run_bind_ok ran
  obtain ⟨done, last, checked, ended⟩ := Action.of_run_bind_ok ran
  cases ended
  exact ⟨pageFiles, first, scaffoldFiles, second, pages, filled, checked, rfl⟩

/-- Where there is a directory of modules, these are written into it. -/
theorem run_writePages (inMode : plan.mode = .standard)
    (stands : host.files.isDirectory (root.join pagesDirectory) = true) :
    (writePages plan root).run host =
      (plan.pages.mapM (writePage (root.join pagesDirectory))).run host := by
  have made : (HostM.onFiles (FileM.ensureDirectory (root.join pagesDirectory)) : HostM σ Unit).run
      host = (.ok (), host) := by
    rw [HostM.run_onFiles, FileM.run_ensureDirectory stands]
    rfl
  rw [writePages, inMode]
  dsimp only
  rw [Action.run_bind_of_ok made]

/-- In simple mode no modules are written. -/
theorem run_writePages_simple (inMode : plan.mode = .simple) :
    (writePages plan root).run host = (.ok [], host) := by
  rw [writePages, inMode]
  rfl

/-- Where a directory of modules is found the root is one. -/
theorem stat_root (filled : root.text ≠ "") (stands : files.isDirectory (root.join pagesDirectory) = true) :
    files.stat root = .ok .directory := by
  rw [Files.isDirectory_iff, join_pagesDirectory] at stands
  obtain ⟨base, slashed, located, directory, -⟩ :=
    Files.stat_descend_eq_ok isName_pagesNames (by decide) filled stands
  exact Files.stat_of_locate located directory

/-- The validity check leaves other files as they are. -/
theorem find?_of_writeCheck (sound : host.files.IsSound here)
    (ran : (writeCheck root).run host = (.ok (), after)) {place : Location} {content : ByteArray}
    (other : place ≠ root.place here ++ checkNames)
    (stands : host.files.tree.find? place = some (.file content)) :
    after.files.tree.find? place = some (.file content) := by
  rw [writeCheck] at ran
  obtain ⟨done, first, ensured, ran⟩ := Action.of_run_bind_ok ran
  obtain ⟨files, parents, rfl⟩ := HostM.of_run_onFiles_ok ensured
  obtain ⟨later, wrote, rfl⟩ := HostM.of_run_change_ok ran
  have kept : Moves (Files.Keeps here fun _ _ => False) (FileM.ensureParent (root.join validCheckPath)) :=
    FileM.keeps_ensureParent _
  obtain ⟨at_, spared⟩ := kept host.files sound.toAt
  rw [parents] at at_ spared
  rw [Files.find?_of_writeFile at_ wrote, place_validCheckPath, if_neg other]
  exact spared _ _ not_false stands

/-- The modules of a plan have names. -/
theorem isName_of_plan {mode : Mode}
    (planned : Plan.ofSchema schema mode environment isPreview = .ok plan) :
    ∀ page ∈ plan.pages, Path.IsName (page.1 ++ ".js") := by
  have each := (Plan.fits_of_ofSchema planned).pages
  have admits := (Plan.accepts_of_ofSchema planned).toAdmits
  intro source member
  have id_mem : source.1 ∈ (Plan.selected mode schema.pages).map (·.id) :=
    Plan.ids_eq each ▸ List.mem_map_of_mem member
  obtain ⟨page, within, id_eq⟩ := List.mem_map.mp id_mem
  exact id_eq ▸ isName_module (admits.ids page (Plan.mem_of_selected within))

/-- A compilation that works out had a plan and wrote it. -/
theorem of_run_ok (ran : (run fill schema root environment isPreview).run host = (.ok compiled, after)) :
    ∃ plan, Plan.ofSchema schema (mode host.files root) environment isPreview = .ok plan ∧
      (write fill plan root).run (host.told .info (modeText (mode host.files root))) =
        (.ok compiled, after) := by
  cases planned : Plan.ofSchema schema (mode host.files root) environment isPreview with
  | error flaw =>
    rw [run_of_flaw planned] at ran
    cases ran
  | ok plan =>
    rw [run_of_plan planned] at ran
    exact ⟨plan, rfl, ran⟩

/-- In standard mode there is a directory of modules. -/
theorem isDirectory_of_mode (inMode : mode files root = .standard) :
    files.isDirectory (root.join pagesDirectory) = true := by
  rw [mode] at inMode
  split at inMode
  · assumption
  · cases inMode

/-- Plain ids have modules at different paths. -/
theorem nodup_modules {ids : List String} (plain : ∀ id ∈ ids, Text.isPlainName id = true)
    (directory : Path) :
    (ids.map fun id => directory.join ⟨id ++ ".js"⟩).Nodup ↔ ids.Nodup := by
  refine ⟨List.Nodup.of_map _, List.Nodup.map_on fun id member other member' same => ?_⟩
  have places := congrArg (Path.place · []) same
  rw [(isName_module (plain id member)).place_join, (isName_module (plain other member')).place_join,
    List.append_cancel_left_eq] at places
  exact (String.append_left_inj _).mp (List.singleton_inj.mp places)

/-- A file that is no template and no output of one is still there when the tree was filled. -/
theorem find?_of_fillTree {data : Json} {scaffoldFiles : List Path} {slot : Slot} {content : ByteArray}
    (sound : host.files.IsSound here) (stands : host.files.stat root = .ok .directory)
    (outside : ∀ log, host.log = some log → ¬root.place here <+: log)
    (ran : (Scaffold.fillTree fill data root).run host = (.ok scaffoldFiles, after))
    (none : ∀ content, host.files.tree.find? (root.place here ++ slot.source) ≠ some (.file content))
    (plain : ∀ other : Slot, slot.output ≠ other.source)
    (there : host.files.tree.find? (root.place here ++ slot.output) = some (.file content)) :
    after.files.IsSound here ∧
      after.files.tree.find? (root.place here ++ slot.output) = some (.file content) := by
  obtain ⟨slots, lists, filled⟩ := Scaffold.filled_of_fillTree sound stands outside ran
  refine ⟨filled.sound, ?_⟩
  rw [filled.rest, there]
  · exact fun opened => outside _ opened (List.prefix_append _ _)
  · intro other member
    rw [ne_eq, ne_eq, List.append_cancel_left_eq, List.append_cancel_left_eq]
    refine ⟨plain other, fun same => ?_⟩
    obtain ⟨-, content, stands⟩ := (lists.mem_iff other).mp member
    exact none content (Slot.output_inj.mp same ▸ stands)

/-- Where a module is written for each page, the file given for it is that of its id, so all of them
differ exactly if the ids do. The file of the last page of an id holds the module of that page and of
the children of its tree, unless a template of the file stands beside it. -/
theorem run_writes_modules (fill : Filler) (schema : Schema) (root : Path) (environment : Environment)
    (isPreview : Bool) (here : Location) (host after : Host σ) (compiled : Compiled)
    (sound : host.files.IsSound here)
    (outside : ∀ log, host.log = some log → ¬root.place here <+: log)
    (inMode : mode host.files root = .standard)
    (ran : (run fill schema root environment isPreview).run host = (.ok compiled, after)) :
    compiled.pageFiles =
        schema.pages.map (fun page => (root.join pagesDirectory).join ⟨page.id ++ ".js"⟩) ∧
      (compiled.pageFiles.Nodup ↔ (schema.pages.map (·.id)).Nodup) ∧
      ∀ before page later, schema.pages = before ++ page :: later →
        (∀ other ∈ later, other.id ≠ page.id) →
        (∀ content, host.files.tree.find? (root.place here ++ (moduleSlot page.id).source) ≠
          some (.file content)) →
        ∃ children, schema.Shows page children ∧
          after.files.tree.find? (root.place here ++ (moduleSlot page.id).output) =
            some (.file (PageSource.ofNodes children
              (ComponentIndex.ofEntries schema.entries)).toModule.toUTF8) := by
  have not_log : ∀ names, host.log ≠ some (root.place here ++ names) := fun names opened =>
    outside _ opened (List.prefix_append _ _)
  obtain ⟨plan, planned, ran⟩ := of_run_ok ran
  rw [inMode] at planned ran
  have fits := Plan.fits_of_ofSchema planned
  have each : List.Forall₂ (Plan.IsSource schema) schema.pages plan.pages := fits.pages
  have admits := (Plan.accepts_of_ofSchema planned).toAdmits
  have stands := HostM.isDirectory_told (isDirectory_of_mode inMode) .info (modeText .standard)
  have told_sound := HostM.isSound_told sound .info (modeText .standard)
  have told_find : ∀ names,
      (host.told .info (modeText .standard)).files.tree.find? (root.place here ++ names) =
        host.files.tree.find? (root.place here ++ names) :=
    fun names => HostM.find?_told (not_log names) _ _
  have told_log : (host.told .info (modeText .standard)).log = host.log := HostM.log_told _ _ _
  generalize host.told .info (modeText .standard) = told at *
  obtain ⟨pageFiles, first, scaffoldFiles, second, pages, filled, checked, rfl⟩ := of_run_write_ok ran
  rw [run_writePages fits.mode_eq stands] at pages
  have written := written_of_mapM told_sound (isName_of_plan planned) pages
  have ids := Plan.ids_eq each
  have pageFiles_eq : pageFiles =
      (schema.pages.map (·.id)).map fun id => (root.join pagesDirectory).join ⟨id ++ ".js"⟩ := by
    rw [written.paths_eq, ← ids, List.map_map]
    rfl
  have plain : ∀ id ∈ schema.pages.map (·.id), Text.isPlainName id = true := by
    simpa using admits.ids
  refine ⟨pageFiles_eq.trans (List.map_map ..), ?_, ?_⟩
  · rw [pageFiles_eq]
    exact nodup_modules plain _
  · intro before page later split last none
    obtain ⟨children, shows, module⟩ := moduleAt_last each split last (root.place here ++ ["src", "pages"])
    refine ⟨children, shows, ?_⟩
    have found := written.found
    simp only [place_pagesDirectory, told_log] at found
    have there := found (root.place here ++ (moduleSlot page.id).output) (not_log _)
    have same : root.place here ++ (moduleSlot page.id).output =
        root.place here ++ ["src", "pages"] ++ [page.id ++ ".js"] := by
      simp [moduleSlot, Slot.output]
    have no_template : ∀ content,
        first.files.tree.find? (root.place here ++ (moduleSlot page.id).source) ≠
          some (.file content) := by
      intro content
      rw [found _ (not_log _), moduleAt_source, Option.none_or, told_find]
      exact none content
    rw [same, module, Option.some_or, ← same] at there
    have at_root := stat_root (Scaffold.text_ne_of_fillTree filled) (written.isDirectory told_sound stands)
    have first_outside : ∀ log, first.log = some log → ¬root.place here <+: log :=
      fun log opened => outside log (told_log ▸ written.log_eq ▸ opened)
    obtain ⟨second_sound, there⟩ := find?_of_fillTree written.sound at_root first_outside filled
      no_template (moduleSlot_output_ne page.id) there
    refine find?_of_writeCheck second_sound checked ?_ there
    simp [moduleSlot, Slot.output, checkNames]

/-- A machine with a tree that has a directory for modules. -/
def pagesHost : Host Unit where
  files := (Files.mk .empty []).plant [] "t/src/pages/" .empty
  log := none
  now := ⟨0⟩
  uptime := 0
  bundlers := []
  store := ()

/-- A filler that leaves texts as they are. -/
def plainFill : Filler := fun source _ => .ok source

/-- A schema with two pages, each with a tree of its own. -/
def pagesSchema (first second : String) : Schema where
  version := "1"
  entries := []
  trees := [⟨some "x", "Page", none, some [.text "one"], none⟩,
    ⟨some "y", "Page", none, some [.text "two"], none⟩]
  pages := [⟨first, "x"⟩, ⟨second, "y"⟩]
  router := none
  app := ⟨none, "", "", []⟩

/-- The files of the sample are sound. -/
theorem isSound_pagesHost : pagesHost.files.IsSound [] :=
  ⟨⟨rfl, FileTree.isNamed_of_entries (by decide +kernel), by simp⟩,
    FileTree.isClosed_of_entries (by decide +kernel)⟩

/-- No files stand in the sample. -/
theorem find?_pagesHost (place : Location) (content : ByteArray) :
    pagesHost.files.tree.find? place ≠ some (.file content) := by
  intro stands
  have below : place ≠ [] := by
    rintro rfl
    rw [FileTree.find?_nil] at stands
    cases stands
  have directories : ∀ item ∈ pagesHost.files.tree.entries, item.2.isFile = false := by decide +kernel
  have found := directories _ ((FileTree.find?_eq_some below).mp stands)
  cases found

/-- Pages of two ids keep both modules. -/
theorem run_writes_modules_two :
    pagesHost.files.IsSound [] ∧ mode pagesHost.files ⟨"/t"⟩ = .standard ∧
      ∃ compiled after, (run plainFill (pagesSchema "a" "b") ⟨"/t"⟩ .fat false).run pagesHost =
          (.ok compiled, after) ∧
        compiled.pageFiles = [⟨"/t/src/pages/a.js"⟩, ⟨"/t/src/pages/b.js"⟩] ∧
        ∃ children, (pagesSchema "a" "b").Shows ⟨"a", "x"⟩ children ∧
          after.files.tree.find? ["t", "src", "pages", "a.js"] =
            some (.file (PageSource.ofNodes children (ComponentIndex.ofEntries [])).toModule.toUTF8) := by
  have inMode : mode pagesHost.files ⟨"/t"⟩ = .standard := by decide +kernel
  have ended : ((run plainFill (pagesSchema "a" "b") ⟨"/t"⟩ .fat false).run pagesHost).1 =
      .ok ⟨.standard, [⟨"/t/src/pages/a.js"⟩, ⟨"/t/src/pages/b.js"⟩], []⟩ := by decide +kernel
  have place : (Path.mk "/t").place [] = ["t"] := by decide +kernel
  cases ran : (run plainFill (pagesSchema "a" "b") ⟨"/t"⟩ .fat false).run pagesHost with
  | mk result after =>
    rw [ran] at ended
    obtain rfl : result = _ := ended
    obtain ⟨-, -, keeps⟩ := run_writes_modules plainFill (pagesSchema "a" "b") ⟨"/t"⟩ .fat false []
      pagesHost after _ isSound_pagesHost (by simp [pagesHost]) inMode ran
    refine ⟨isSound_pagesHost, inMode, _, after, rfl, rfl, ?_⟩
    have kept := keeps [] ⟨"a", "x"⟩ [⟨"b", "y"⟩] rfl (by decide) fun content => find?_pagesHost _ content
    rw [place] at kept
    exact kept

/-- Of two pages of one id only the second one has a module, which is given for both. -/
theorem pages_share_module :
    ((run plainFill (pagesSchema "a" "a") ⟨"/t"⟩ .fat false).run pagesHost).1 =
        .ok ⟨.standard, [⟨"/t/src/pages/a.js"⟩, ⟨"/t/src/pages/a.js"⟩], []⟩ ∧
      (((run plainFill (pagesSchema "a" "a") ⟨"/t"⟩ .fat false).run pagesHost).2.files.readText
          ⟨"/t/src/pages/a.js"⟩).toOption =
        some (PageSource.ofNodes [.text "two"] (ComponentIndex.ofEntries [])).toModule ∧
      (PageSource.ofNodes [.text "one"] (ComponentIndex.ofEntries [])).toModule ≠
        (PageSource.ofNodes [.text "two"] (ComponentIndex.ofEntries [])).toModule := by
  decide +kernel

end Compile

end PageBuild
