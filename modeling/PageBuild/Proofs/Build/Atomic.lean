import PageBuild.Proofs.Build.Compile

/-!
# Compilations that fail

A compilation that fails has changed nothing if its tree holds no templates and all that is written
for the schema can be stored. The ids of pages are not checked for this, so a module may fail when
others have been written.
-/
namespace PageBuild

namespace Compile

open Scaffold (Slot)

variable {σ : Type} {here : Location} {host middle after : Host σ} {files : Files} {root : Path}
  {fill : Filler} {schema : Schema} {plan : Plan} {page : String × PageSource} {paths : List Path}

/-! ## Storable files -/

/-- Whether a file of a name can be stored in a directory. -/
structure Storable (files : Files) (directory : Location) (name : String) : Prop where
  nul : '\x00' ∉ name.toList
  short : name.utf8ByteSize ≤ maxName
  free : files.tree.find? (directory ++ [name]) ≠ some .directory

/-- A file that can be stored is written. -/
theorem exists_writeFile {directory : Path} {name : String} (sound : files.IsSound here)
    (stands : files.stat directory = .ok .directory) (isName : Path.IsName name)
    (storable : Storable files (directory.place here) name)
    (fits : directory.text.utf8ByteSize + 1 + maxName ≤ maxPath) (content : ByteArray) :
    ∃ later, files.writeFile (directory.join ⟨name⟩) content = .ok later := by
  obtain ⟨location, slashed, located, is_directory⟩ := Files.stat_eq_directory.mp stands
  have size : (directory.join ⟨name⟩).text.utf8ByteSize ≤
      directory.text.utf8ByteSize + 1 + name.utf8ByteSize := Path.size_join directory ⟨name⟩
  have short := storable.short
  have joined := Files.locate_join isName located is_directory storable.nul short (by omega)
  refine ⟨_, Files.writeFile_eq_ok.mpr ⟨_, joined, ?_, rfl⟩⟩
  rw [sound.locate_eq located]
  exact storable.free

/-- A module that can be stored is written. -/
theorem exists_writePage {directory : Path} (sound : host.files.IsSound here)
    (stands : host.files.stat directory = .ok .directory) (isName : Path.IsName (page.1 ++ ".js"))
    (storable : Storable host.files (directory.place here) (page.1 ++ ".js"))
    (fits : directory.text.utf8ByteSize + 1 + maxName ≤ maxPath) :
    ∃ path after, (writePage directory page).run host = (.ok path, after) := by
  obtain ⟨files, wrote⟩ := exists_writeFile sound stands isName storable fits page.2.toModule.toUTF8
  have changed : (HostM.onFiles (FileM.change
      (·.writeFile (directory.join ⟨page.1 ++ ".js"⟩) page.2.toModule.toUTF8)) : HostM σ Unit).run
        host = (.ok (), { host with files }) := by
    rw [HostM.run_onFiles, FileM.run_change_eq_ok.mpr wrote]
    rfl
  rw [writePage, Action.run_bind_of_ok changed]
  exact ⟨_, _, rfl⟩

/-- Modules that can be stored are written. -/
theorem exists_mapM {directory : Path} {pages : List (String × PageSource)}
    (sound : host.files.IsSound here) (outside : ∀ log, host.log = some log → ¬directory.place here <+: log)
    (stands : host.files.stat directory = .ok .directory)
    (names : ∀ page ∈ pages, Path.IsName (page.1 ++ ".js"))
    (storable : ∀ page ∈ pages, Storable host.files (directory.place here) (page.1 ++ ".js"))
    (fits : directory.text.utf8ByteSize + 1 + maxName ≤ maxPath) :
    ∃ paths after, (pages.mapM (writePage directory)).run host = (.ok paths, after) := by
  cases ran : (pages.mapM (writePage directory)).run host with
  | mk result after =>
    cases result with
    | ok paths => exact ⟨paths, after, rfl⟩
    | error failure =>
      have kept : ∀ done page rest, pages = done ++ page :: rest → ∀ outputs middle output last,
          Written directory here host done outputs middle →
            (writePage directory page).run middle = (.ok output, last) →
              Written directory here host (done ++ [page]) (outputs ++ [output]) last :=
        fun done page rest split outputs middle output last written stepped =>
          written.concat (names page (by simp [split])) stepped
      obtain ⟨done, page, rest, outputs, middle, split, written, failed⟩ :=
        Action.of_run_mapM_error kept (written_nil sound) ran
      have member : page ∈ pages := by simp [split]
      have still : Storable middle.files (directory.place here) (page.1 ++ ".js") := by
        obtain ⟨nul, short, free⟩ := storable page member
        refine ⟨nul, short, fun is_directory => ?_⟩
        rw [written.found _ fun opened => outside _ opened (List.prefix_append _ _)] at is_directory
        rcases Option.or_eq_some_iff.mp is_directory with wrote | ⟨-, stood⟩
        · simp [moduleAt] at wrote
        · exact free stood
      have middle_stands := Files.isDirectory_iff.mp
        (written.isDirectory sound (Files.isDirectory_iff.mpr stands))
      obtain ⟨path, last, worked⟩ :=
        exists_writePage written.sound middle_stands (names page member) still fits
      rw [failed] at worked
      cases worked

/-- The validity check is written into its directory. -/
theorem run_writeCheck_of_ok {files later : Files}
    (parents : (FileM.ensureDirectory (root.join ⟨"src"⟩)).run host.files = (.ok (), files))
    (wrote : files.writeFile (root.join validCheckPath) validCheck.toUTF8 = .ok later) :
    (writeCheck root).run host = (.ok (), { host with files := later }) := by
  have ensured : (HostM.onFiles (FileM.ensureParent (root.join validCheckPath)) : HostM σ Unit).run
      host = (.ok (), { host with files }) := by
    rw [HostM.run_onFiles, ensureParent_validCheckPath, parents]
    rfl
  rw [writeCheck, Action.run_bind_of_ok ensured, HostM.run_onFiles, FileM.run_change_eq_ok.mpr wrote]
  rfl

/-- Nothing is written where the directory of the validity check cannot be made. -/
theorem run_writeCheck_of_blocked {cause : IoCause}
    (parents : (FileM.ensureDirectory (root.join ⟨"src"⟩)).run host.files = (.error cause, host.files)) :
    (writeCheck root).run host = (.error (.io cause), host) := by
  rw [writeCheck, Action.run_bind, HostM.run_onFiles, ensureParent_validCheckPath, parents]
  rfl

/-- Nothing is written where the validity check cannot be. -/
theorem run_writeCheck_of_refused {cause : IoCause}
    (parents : (FileM.ensureDirectory (root.join ⟨"src"⟩)).run host.files = (.ok (), host.files))
    (refused : host.files.writeFile (root.join validCheckPath) validCheck.toUTF8 = .error cause) :
    (writeCheck root).run host = (.error (.io cause), host) := by
  have ensured : (HostM.onFiles (FileM.ensureParent (root.join validCheckPath)) : HostM σ Unit).run
      host = (.ok (), host) := by
    rw [HostM.run_onFiles, ensureParent_validCheckPath, parents]
    rfl
  have unchanged : (FileM.change (·.writeFile (root.join validCheckPath) validCheck.toUTF8)).run
      host.files = (.error cause, host.files) := by
    rw [FileM.change, Action.run_get_bind, refused]
    rfl
  rw [writeCheck, Action.run_bind_of_ok ensured, HostM.run_onFiles, unchanged]
  rfl

/-- The validity check can be written into its directory unless a directory stands in its place. -/
theorem exists_writeCheck (sound : files.IsSound here)
    (stands : files.stat (root.join ⟨"src"⟩) = .ok .directory)
    (free : files.tree.find? (root.place here ++ checkNames) ≠ some .directory)
    (fits : root.text.utf8ByteSize + maxName + 11 ≤ maxPath) :
    ∃ later, files.writeFile (root.join validCheckPath) validCheck.toUTF8 = .ok later := by
  have src : Path.IsName "src" := by decide
  have size : (root.join ⟨"src"⟩).text.utf8ByteSize ≤
      root.text.utf8ByteSize + 1 + "src".utf8ByteSize := Path.size_join root ⟨"src"⟩
  have src_size : "src".utf8ByteSize = 3 := by decide
  rw [join_validCheckPath]
  refine exists_writeFile sound stands (by decide) ⟨by decide, by decide, ?_⟩ (by omega) _
  rw [src.place_join, List.append_assoc]
  exact free

/-- The validity check is written, or all stays as it is because a file stands where its directory
belongs or a directory where it belongs. -/
theorem writeCheck_cases (sound : host.files.IsSound here)
    (stands : host.files.stat root = .ok .directory)
    (fits : root.text.utf8ByteSize + maxName + 11 ≤ maxPath) :
    (∃ after, (writeCheck root).run host = (.ok (), after)) ∨
      (∃ failure, (writeCheck root).run host = (.error failure, host)) ∧
        (host.files.tree.find? (root.place here ++ ["src"]) ≠ some .directory ∨
          host.files.tree.find? (root.place here ++ checkNames) = some .directory) := by
  obtain ⟨base, slashed, located, is_directory⟩ := Files.stat_eq_directory.mp stands
  obtain rfl := sound.locate_eq located
  have src : Path.IsName "src" := by decide
  have size : (root.join ⟨"src"⟩).text.utf8ByteSize ≤
      root.text.utf8ByteSize + 1 + "src".utf8ByteSize := Path.size_join root ⟨"src"⟩
  have src_size : "src".utf8ByteSize = 3 := by decide
  have src_located : host.files.locate (root.join ⟨"src"⟩) = .ok (root.place here ++ ["src"], false) :=
    Files.locate_join src located is_directory (by decide) (by decide) (by omega)
  have src_place : (root.join ⟨"src"⟩).place here = root.place here ++ ["src"] := src.place_join root here
  cases at_src : host.files.tree.find? (root.place here ++ ["src"]) with
  | none =>
    have made : host.files.makeDirectory (root.join ⟨"src"⟩) =
        .ok (host.files.insert (root.place here ++ ["src"]) .directory) :=
      Files.makeDirectory_eq_ok.mpr ⟨_, _, src_located, at_src, rfl⟩
    have found : ∀ place, (host.files.insert (root.place here ++ ["src"]) .directory).tree.find? place =
        if place = root.place here ++ ["src"] then some .directory
        else host.files.tree.find? place :=
      fun place => FileTree.find?_insert _ _ _ _ (by simp)
    have there : (host.files.insert (root.place here ++ ["src"]) .directory).stat
        (root.join ⟨"src"⟩) = .ok .directory := by
      have kept : ∀ place, host.files.tree.find? place = some .directory →
          (host.files.insert (root.place here ++ ["src"]) .directory).tree.find? place =
            some .directory := by
        intro place before
        rw [found, before, ite_self]
      refine Files.stat_of_locate (Files.locate_of_directories kept rfl src_located) ?_
      rw [found, if_pos rfl]
    have free : (host.files.insert (root.place here ++ ["src"]) .directory).tree.find?
        (root.place here ++ checkNames) ≠ some .directory := by
      rw [found, if_neg (by simp [checkNames])]
      intro below
      have above := sound.closed (root.place here ++ ["src"]) "page-valid-check.js" .directory
        (by simpa [checkNames] using below)
      rw [at_src] at above
      cases above
    obtain ⟨later, wrote⟩ := exists_writeCheck
      ((Files.applies_makeDirectory sound made).isSound sound) there free fits
    have filled : (root.join ⟨"src"⟩).text ≠ "" := Path.text_join_ne (by decide)
    exact .inl ⟨_, run_writeCheck_of_ok (FileM.run_ensureDirectory_of_made filled made) wrote⟩
  | some entry =>
    cases entry with
    | file content =>
      have blocked := FileM.run_ensureDirectory_of_file src_located at_src
      exact .inr ⟨⟨_, run_writeCheck_of_blocked blocked⟩, .inl (by simp)⟩
    | directory =>
      have there := Files.stat_of_locate src_located at_src
      have parents := FileM.run_ensureDirectory (Files.isDirectory_iff.mpr there)
      by_cases free : host.files.tree.find? (root.place here ++ checkNames) = some .directory
      · cases refused : host.files.writeFile (root.join validCheckPath) validCheck.toUTF8 with
        | error cause => exact .inr ⟨⟨_, run_writeCheck_of_refused parents refused⟩, .inr free⟩
        | ok later => exact .inl ⟨_, run_writeCheck_of_ok parents refused⟩
      · obtain ⟨later, wrote⟩ := exists_writeCheck sound there free fits
        exact .inl ⟨_, run_writeCheck_of_ok parents wrote⟩

/-! ## Trees without templates -/

/-- Whether a path leads to a directory of sound files without templates, which the open log lies
outside of. -/
structure Bare (here : Location) (root : Path) (host : Host σ) : Prop where
  sound : host.files.IsSound here
  stands : host.files.stat root = .ok .directory
  outside : ∀ log, host.log = some log → ¬root.place here <+: log
  none : ∀ slot : Slot, slot.stem ≠ "" → ∀ content,
    host.files.tree.find? (root.place here ++ slot.source) ≠ some (.file content)

/-- The open log is not in the tree. -/
theorem Bare.not_log (bare : Bare here root host) (names : List String) :
    host.log ≠ some (root.place here ++ names) :=
  fun opened => bare.outside _ opened (List.prefix_append _ _)

/-- Narration changes nothing in the tree. -/
theorem Bare.find?_told (bare : Bare here root host) (level : Level) (text : String)
    (names : List String) :
    (host.told level text).files.tree.find? (root.place here ++ names) =
      host.files.tree.find? (root.place here ++ names) :=
  HostM.find?_told (bare.not_log names) level text

/-- Narration puts no templates into the tree. -/
theorem Bare.told (bare : Bare here root host) (level : Level) (text : String) :
    Bare here root (host.told level text) := by
  refine ⟨HostM.isSound_told bare.sound level text, Files.isDirectory_iff.mp (HostM.isDirectory_told
    (Files.isDirectory_iff.mpr bare.stands) level text), fun log opened => ?_, fun slot filled content => ?_⟩
  · rw [HostM.log_told] at opened
    exact bare.outside log opened
  · rw [bare.find?_told]
    exact bare.none slot filled content

/-- What stands in the tree when modules were written into it. -/
theorem Bare.find?_written {pages : List (String × PageSource)} (bare : Bare here root host)
    (written : Written (root.join pagesDirectory) here host pages paths after) (names : List String) :
    after.files.tree.find? (root.place here ++ names) =
      (moduleAt (root.place here ++ ["src", "pages"]) pages (root.place here ++ names)).or
        (host.files.tree.find? (root.place here ++ names)) := by
  rw [written.found _ (bare.not_log names), place_pagesDirectory]

/-- Modules put no templates into the tree. -/
theorem Bare.written {pages : List (String × PageSource)} (bare : Bare here root host)
    (written : Written (root.join pagesDirectory) here host pages paths after) :
    Bare here root after := by
  refine ⟨written.sound, Files.isDirectory_iff.mp (written.isDirectory bare.sound
    (Files.isDirectory_iff.mpr bare.stands)), fun log opened => ?_, fun slot filled content => ?_⟩
  · rw [written.log_eq] at opened
    exact bare.outside log opened
  · rw [bare.find?_written written, moduleAt_source, Option.none_or]
    exact bare.none slot filled content

/-- What goes on after the modules, in a tree without templates. -/
theorem Bare.run_write (bare : Bare here root middle)
    (modules : (writePages plan root).run host = (.ok paths, middle)) :
    (write fill plan root).run host =
      (do
        writeCheck root
        return ⟨plan.mode, paths, []⟩ : HostM σ Compiled).run middle := by
  rw [write, Action.run_bind_of_ok modules, Action.run_bind_of_ok
    (Scaffold.fillTree_of_none fill _ bare.sound bare.stands bare.none)]

/-- A plan for a single document is written into a tree without templates, or all stays as it is. -/
theorem Bare.write_simple (bare : Bare here root host) (fill : Filler) (inMode : plan.mode = .simple)
    (fits : root.text.utf8ByteSize + maxName + 11 ≤ maxPath) :
    (∃ compiled after, (write fill plan root).run host = (.ok compiled, after)) ∨
      ∃ failure, (write fill plan root).run host = (.error failure, host) := by
  rw [bare.run_write (run_writePages_simple inMode)]
  rcases writeCheck_cases bare.sound bare.stands fits with ⟨after, checked⟩ | ⟨⟨failure, failed⟩, -⟩
  · rw [Action.run_bind_of_ok checked]
    exact .inl ⟨_, after, rfl⟩
  · refine .inr ⟨failure, ?_⟩
    rw [Action.run_bind, failed]

/-- Whether all that is written for a schema can be stored: the modules and the validity check. -/
structure Stores (schema : Schema) (files : Files) (base : Location) : Prop where
  modules : ∀ page ∈ schema.pages, Storable files (base ++ ["src", "pages"]) (page.id ++ ".js")
  check : files.tree.find? (base ++ checkNames) ≠ some .directory

/-- What can be stored in a tree can be stored in one that is as it was. -/
theorem Stores.congr {later : Files} {base : Location} (stores : Stores schema files base)
    (same : ∀ names, later.tree.find? (base ++ names) = files.tree.find? (base ++ names)) :
    Stores schema later base := by
  refine ⟨fun page member => ?_, by simpa [same] using stores.check⟩
  obtain ⟨nul, short, free⟩ := stores.modules page member
  rw [List.append_assoc] at free
  exact ⟨nul, short, by rwa [List.append_assoc, same]⟩

/-- A plan with a module for each page is written into a tree without templates if all of it can be
stored. -/
theorem Bare.write_standard (bare : Bare here root host) (fill : Filler)
    (inMode : plan.mode = .standard)
    (each : List.Forall₂ (Plan.IsSource schema) schema.pages plan.pages)
    (names : ∀ page ∈ plan.pages, Path.IsName (page.1 ++ ".js"))
    (directory : host.files.isDirectory (root.join pagesDirectory) = true)
    (fits : root.text.utf8ByteSize + maxName + 11 ≤ maxPath)
    (stores : Stores schema host.files (root.place here)) :
    ∃ compiled after, (write fill plan root).run host = (.ok compiled, after) := by
  have storable : ∀ page ∈ plan.pages,
      Storable host.files ((root.join pagesDirectory).place here) (page.1 ++ ".js") := by
    intro source member
    have id_mem : source.1 ∈ schema.pages.map (·.id) := Plan.ids_eq each ▸ List.mem_map_of_mem member
    obtain ⟨page, within, id_eq⟩ := List.mem_map.mp id_mem
    rw [place_pagesDirectory, ← id_eq]
    exact stores.modules page within
  have modules_outside : ∀ log, host.log = some log → ¬(root.join pagesDirectory).place here <+: log := by
    intro log opened within
    rw [place_pagesDirectory] at within
    exact bare.outside log opened ((List.prefix_append _ _).trans within)
  have size : (root.join pagesDirectory).text.utf8ByteSize ≤
      root.text.utf8ByteSize + 1 + pagesDirectory.text.utf8ByteSize := Path.size_join root _
  have pages_size : pagesDirectory.text.utf8ByteSize = 9 := by decide
  obtain ⟨paths, first, ran⟩ := exists_mapM bare.sound modules_outside
    (Files.isDirectory_iff.mp directory) names storable (by omega)
  have written := written_of_mapM bare.sound names ran
  have bare_first := bare.written written
  rw [bare_first.run_write ((run_writePages inMode directory).trans ran)]
  rcases writeCheck_cases bare_first.sound bare_first.stands fits with ⟨after, checked⟩ | ⟨-, blocked⟩
  · rw [Action.run_bind_of_ok checked]
    exact ⟨_, after, rfl⟩
  · exfalso
    rcases blocked with no_src | is_directory
    · obtain ⟨location, slashed, located, stood⟩ :=
        Files.stat_eq_directory.mp (Files.isDirectory_iff.mp directory)
      rw [bare.sound.locate_eq located, place_pagesDirectory] at stood
      have src := bare.sound.closed (root.place here ++ ["src"]) "pages" .directory (by simpa using stood)
      exact no_src (written.directories _ src)
    · rw [bare.find?_written written] at is_directory
      rcases Option.or_eq_some_iff.mp is_directory with wrote | ⟨-, stood⟩
      · simp [moduleAt] at wrote
      · exact stores.check stood

/-- In a tree without templates a schema is compiled or all stays as it is, but for the open log, if
the modules and the validity check can be stored where there is one module for each page. -/
theorem run_atomic (fill : Filler) (schema : Schema) (root : Path) (environment : Environment)
    (isPreview : Bool) (here : Location) (host : Host σ) (bare : Bare here root host)
    (fits : root.text.utf8ByteSize + maxName + 11 ≤ maxPath)
    (stores : mode host.files root = .standard → Stores schema host.files (root.place here)) :
    (∃ compiled, ((run fill schema root environment isPreview).run host).1 = .ok compiled) ∨
      (∃ failure, ((run fill schema root environment isPreview).run host).1 = .error failure) ∧
        ∀ place, host.log ≠ some place →
          ((run fill schema root environment isPreview).run host).2.files.tree.find? place =
            host.files.tree.find? place := by
  have told_find : ∀ place, host.log ≠ some place →
      (host.told .info (modeText (mode host.files root))).files.tree.find? place =
        host.files.tree.find? place :=
    fun place other => HostM.find?_told other _ _
  cases planned : Plan.ofSchema schema (mode host.files root) environment isPreview with
  | error flaw =>
    rw [run_of_flaw planned]
    exact .inr ⟨⟨_, rfl⟩, told_find⟩
  | ok plan =>
    have fits_plan := Plan.fits_of_ofSchema planned
    have told := bare.told .info (modeText (mode host.files root))
    rw [run_of_plan planned]
    by_cases inMode : mode host.files root = .standard
    · have each := fits_plan.pages
      rw [inMode] at each
      have directory := HostM.isDirectory_told (isDirectory_of_mode inMode) .info
        (modeText (mode host.files root))
      obtain ⟨compiled, after, ran⟩ := told.write_standard fill (fits_plan.mode_eq.trans inMode) each
        (isName_of_plan planned) directory fits ((stores inMode).congr (bare.find?_told _ _))
      rw [ran]
      exact .inl ⟨compiled, rfl⟩
    · have simple : mode host.files root = .simple := by
        cases found : mode host.files root with
        | standard => exact absurd found inMode
        | simple => rfl
      rcases told.write_simple fill (fits_plan.mode_eq.trans simple) fits with
        ⟨compiled, after, ran⟩ | ⟨failure, ran⟩
      · rw [ran]
        exact .inl ⟨compiled, rfl⟩
      · rw [ran]
        exact .inr ⟨⟨failure, rfl⟩, told_find⟩

/-- A schema that is refused for its second page leaves all as it was. -/
theorem run_atomic_refused :
    Bare [] ⟨"/t"⟩ pagesHost ∧ Stores Plan.halfSchema pagesHost.files ["t"] ∧
      (∃ failure, ((run plainFill Plan.halfSchema ⟨"/t"⟩ .fat false).run pagesHost).1 =
        .error failure) ∧
      ∀ place, ((run plainFill Plan.halfSchema ⟨"/t"⟩ .fat false).run pagesHost).2.files.tree.find?
        place = pagesHost.files.tree.find? place := by
  have bare : Bare [] ⟨"/t"⟩ pagesHost :=
    ⟨isSound_pagesHost, Files.isDirectory_iff.mp (by decide +kernel), by simp [pagesHost],
      fun _ _ content => find?_pagesHost _ content⟩
  have free : ∀ names ∈ [["src", "pages", "a.js"], ["src", "pages", "b.js"], checkNames],
      (pagesHost.files.tree.find? (["t"] ++ names)).isNone = true := by decide +kernel
  have stores : Stores Plan.halfSchema pagesHost.files ["t"] := by
    simp only [List.forall_mem_cons, Option.isNone_iff_eq_none] at free
    obtain ⟨first, second, check, -⟩ := free
    refine ⟨List.forall_mem_cons.mpr ⟨⟨by decide, by decide, ?_⟩, List.forall_mem_cons.mpr
      ⟨⟨by decide, by decide, ?_⟩, by simp⟩⟩, Files.free_of_none check⟩
    · simpa using Files.free_of_none first
    · simpa using Files.free_of_none second
  have place : (Path.mk "/t").place [] = ["t"] := by decide +kernel
  have refused : ((run plainFill Plan.halfSchema ⟨"/t"⟩ .fat false).run pagesHost).1 =
      .error (.validation (SchemaFlaw.missingTree "b" "y").message) := by decide +kernel
  have ended := run_atomic plainFill Plan.halfSchema ⟨"/t"⟩ .fat false [] pagesHost bare (by decide)
    fun _ => place.symm ▸ stores
  rcases ended with ⟨compiled, worked⟩ | ⟨failed, same⟩
  · rw [refused] at worked
    cases worked
  · exact ⟨bare, stores, failed, fun place => same place (by simp [pagesHost])⟩

/-- An id that holds the null character passes all checks, and its module cannot be stored when that of
another page has been written. -/
theorem null_page_leaves_module :
    ((run plainFill (pagesSchema "a" "\x00") ⟨"/t"⟩ .fat false).run pagesHost).1 =
        .error (.io .nulInName) ∧
      pagesHost.files.pathExists ⟨"/t/src/pages/a.js"⟩ = false ∧
      ((run plainFill (pagesSchema "a" "\x00") ⟨"/t"⟩ .fat false).run pagesHost).2.files.pathExists
        ⟨"/t/src/pages/a.js"⟩ = true := by
  decide +kernel

end Compile

end PageBuild
