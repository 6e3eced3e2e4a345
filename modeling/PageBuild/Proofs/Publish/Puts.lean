import PageBuild.Proofs.Build.Confined
import PageBuild.Proofs.Files.Lasting
import PageBuild.Proofs.Publish.Stocked

/-!
# Puts one after another

Every key that was kept has a file for its object and one for its cache header, whatever is put
afterwards (`LocalStore.Filled.isPresent`). A put writes the files of its own key, so what is kept under
other keys stays, apart from keys of the same names and from keys that name the cache header of another
one (`LocalStore.put_among_kept`).
-/
namespace PageBuild

open PageBuild.Action (Moves)
open Files (Edit)

variable {σ : Type}

/-! ## Edits that take nothing away -/

/-- Whether an edit makes a directory. -/
def Files.Edit.Makes : Edit → Prop
  | make _ => True
  | write _ _ | remove _ | clear _ => False

/-- Whether an edit takes nothing away. -/
def Files.Edit.Adds : Edit → Prop
  | make _ | write _ _ => True
  | remove _ | clear _ => False

/-- What takes nothing away leaves every file to be found. -/
theorem Files.Edit.Adds.leaves {edit : Edit} (adds : edit.Adds) (here : Location) (path : Path) :
    edit.Leaves here path := by
  cases edit with
  | make | write => trivial
  | remove | clear => cases adds

/-- An edit that makes a directory makes it at a place or misses the place. -/
theorem Files.Edit.Makes.misses {edit : Edit} (makes : edit.Makes) (place : Location) :
    edit.Misses place ∨ edit = .make place := by
  cases edit with
  | make other => exact (ne_or_eq other place).imp_right (congrArg Edit.make)
  | write | remove | clear => cases makes

namespace LocalStore

variable {store : LocalStore} {here : Location} {key other : String} {file : Path}
  {cache : String} {start host after : Host σ} {result : Except Failure Unit} {keys : List String}

/-- A put takes nothing away, whatever becomes of it. -/
theorem adds_put (sound : host.files.IsSound here)
    (put : (store.put key file cache).run host = (result, after)) :
    after.files.IsSound here ∧ Files.Edits Edit.Adds host.files after.files := by
  have performs : Moves (Host.Performs here host.log Edit.Adds)
      (store.put key file cache : HostM σ Unit) :=
    performs_put (fun _ _ => trivial) (fun _ _ _ => trivial) file cache
  obtain ⟨tended, edits⟩ := performs host ⟨sound, rfl⟩
  rw [put] at tended edits
  exact ⟨tended.sound, edits⟩

/-- Before a put copies its file it makes directories only. -/
theorem made_of_ensureParents {object header : Path} {files first second : Files}
    (sound : files.IsSound here) (objects : (FileM.ensureParent object).run files = (.ok (), first))
    (headers : (FileM.ensureParent header).run first = (.ok (), second)) :
    second.IsSound here ∧ Files.Edits Edit.Makes files second := by
  have makes : ∀ path, Moves (Files.Performs here Edit.Makes) (FileM.ensureParent path) :=
    fun path => FileM.performs_ensureParent fun _ _ _ _ => trivial
  have before := makes object files
  have behind := makes header first
  rw [objects] at before
  rw [headers] at behind
  exact trans_of (Files.Performs here Edit.Makes) before behind sound

/-- What a put that works out leaves at places where something stood: its header and the content of its
file at those of its key, and what was there at others. -/
theorem find?_of_put (sound : host.files.IsSound here)
    (apart : file.place here ≠ (store.objectPath key).place here)
    (put : (store.put key file cache).run host = (.ok (), after)) :
    ∃ content, host.files.tree.find? (file.place here) = some (.file content) ∧
      ∀ place entry, host.files.tree.find? place = some entry →
        after.files.tree.find? place =
          if place = (store.headerPath key).place here then some (.file cache.toUTF8)
          else if place = (store.objectPath key).place here then some (.file content)
          else some entry := by
  obtain ⟨-, first, second, third, last, objects, headers, copied, wrote, rfl⟩ := steps_of_put put
  obtain ⟨second_sound, made⟩ := made_of_ensureParents sound objects headers
  have same_or_made : ∀ place, second.tree.find? place = host.files.tree.find? place ∨
      host.files.tree.find? place = none ∧ second.tree.find? place = some .directory := by
    intro place
    rcases made.find?_eq_or_made fun _ makes => makes.misses place with same | ⟨free, directory, -⟩
    · exact .inl same
    · exact .inr ⟨free, directory⟩
  have stood : ∀ place entry, host.files.tree.find? place = some entry →
      second.tree.find? place = some entry := by
    intro place entry stands
    rcases same_or_made place with same | ⟨free, -⟩
    · rw [same, stands]
    · rw [free] at stands
      cases stands
  obtain ⟨content, source, copy⟩ := Files.find?_of_copyFile second_sound apart copied
  have third_sound : third.IsSound here := second_sound.of_copyFile copied
  refine ⟨content, ?_, fun place entry stands => ?_⟩
  · rcases same_or_made (file.place here) with same | ⟨-, directory⟩
    · rw [← same, source]
    · rw [source] at directory
      cases directory
  · rw [Files.find?_of_writeFile third_sound.toAt wrote, copy, stood place entry stands]

/-! ## Kept keys -/

/-- Whether an object and its cache header stand under a key that is accepted. -/
structure IsPresent (store : LocalStore) (files : Files) (key : String) : Prop where
  accepted : accepts key = true
  object : files.isFile (store.objectPath key) = true
  header : files.isFile (store.headerPath key) = true

/-- What is present stays present where nothing is taken away. -/
theorem IsPresent.of_adds {files later : Files} (present : store.IsPresent files key)
    (sound : files.IsSound here) (edits : Files.Edits Edit.Adds files later) :
    store.IsPresent later key :=
  ⟨present.accepted,
    edits.isFile sound (fun _ adds => adds.leaves here _) present.object,
    edits.isFile sound (fun _ adds => adds.leaves here _) present.header⟩

/-- A put that works out leaves its key present. -/
theorem isPresent_of_put (sound : host.files.IsSound here)
    (put : (store.put key file cache).run host = (.ok (), after)) :
    store.IsPresent after.files key := by
  obtain ⟨accepted, first, second, third, last, objects, headers, copied, wrote, rfl⟩ := steps_of_put put
  obtain ⟨second_sound, -⟩ := made_of_ensureParents sound objects headers
  have third_sound : third.IsSound here := second_sound.of_copyFile copied
  have written := Files.applies_writeFile third_sound wrote
  refine ⟨accepted, ?_, ?_⟩
  · exact written.isFile third_sound trivial (Files.isFile_of_copyFile copied)
  · rw [Files.isFile, Files.stat_of_writeFile wrote]

/-- What may change elsewhere: files outside the store. -/
def Outside (store : LocalStore) (here : Location) (place : Location) (entry : Entry) : Prop :=
  entry ≠ .directory ∧ ¬store.root.place here <+: place

/-- Which keys of a store were kept, and what the host has become, after puts that worked out or not,
and after files outside the store changed. -/
inductive Filled (store : LocalStore) (here : Location) (start : Host σ) : List String → Host σ → Prop
  | empty : Filled store here start [] start
  | kept {keys : List String} {host after : Host σ} {key : String} {file : Path} {cache : String}
      (filled : Filled store here start keys host)
      (put : (store.put key file cache).run host = (.ok (), after)) :
    Filled store here start (key :: keys) after
  | refused {keys : List String} {host after : Host σ} {key : String} {file : Path} {cache : String}
      {failure : Failure} (filled : Filled store here start keys host)
      (put : (store.put key file cache).run host = (.error failure, after)) :
    Filled store here start keys after
  | elsewhere {keys : List String} {host after : Host σ} (filled : Filled store here start keys host)
      (sound : after.files.IsSound here)
      (spared : host.files.Spares (store.Outside here) after.files) :
    Filled store here start keys after

/-- What is present stays present where only files outside the store change. -/
theorem IsPresent.of_outside {files later : Files} (present : store.IsPresent files key)
    (at_ : files.At here) (here_eq : later.here = files.here)
    (spared : files.Spares (store.Outside here) later) : store.IsPresent later key := by
  have kept : ∀ place, files.tree.find? place = some .directory →
      later.tree.find? place = some .directory :=
    fun place stands => spared place _ (fun outside => outside.1 rfl) stands
  have inside : ∀ path : Path, store.root.place here <+: path.place here →
      files.isFile path = true → later.isFile path = true := by
    intro path within stands
    refine Files.isFile_of_directories stands here_eq kept fun place content found located => ?_
    rw [at_.locate_eq located] at found ⊢
    exact ⟨content, spared _ _ (fun outside => outside.2 within) found⟩
  refine ⟨present.accepted, inside _ ?_ present.object, inside _ ?_ present.header⟩
  · rw [place_objectPath present.accepted]
    exact List.prefix_append _ _
  · rw [place_headerPath present.accepted]
    exact List.prefix_append _ _

/-- Every key that was kept is present. -/
theorem Filled.isPresent (filled : Filled store here start keys host)
    (sound : start.files.IsSound here) :
    host.files.IsSound here ∧ ∀ key ∈ keys, store.IsPresent host.files key := by
  induction filled with
  | empty => exact ⟨sound, by simp⟩
  | kept filled put ih =>
    obtain ⟨before, present⟩ := ih
    obtain ⟨later, edits⟩ := adds_put before put
    refine ⟨later, List.forall_mem_cons.mpr ⟨isPresent_of_put before put, fun key member => ?_⟩⟩
    exact (present key member).of_adds before edits
  | refused filled put ih =>
    obtain ⟨before, present⟩ := ih
    obtain ⟨later, edits⟩ := adds_put before put
    exact ⟨later, fun key member => (present key member).of_adds before edits⟩
  | elsewhere filled later spared ih =>
    obtain ⟨before, present⟩ := ih
    refine ⟨later, fun key member => ?_⟩
    exact (present key member).of_outside before.toAt (later.here_eq.trans before.here_eq.symm) spared

/-- What is read under a key that is present, once a put has left its own files where things stood. -/
theorem IsPresent.read_of_put {content : ByteArray} (present : store.IsPresent host.files other)
    (before : host.files.IsSound here)
    (edits : Files.Edits Edit.Adds host.files after.files) (sound : after.files.IsSound here)
    (accepted : accepts key = true)
    (places : ∀ place entry, host.files.tree.find? place = some entry →
      after.files.tree.find? place =
        if place = (store.headerPath key).place here then some (.file cache.toUTF8)
        else if place = (store.objectPath key).place here then some (.file content)
        else some entry) :
    (∃ old, host.files.readFile (store.objectPath other) = .ok old ∧
      after.files.readFile (store.objectPath other) = .ok
        (if names other = headerDirectory :: names key then cache.toUTF8
        else if names other = names key then content else old)) ∧
    ∃ old, host.files.readFile (store.headerPath other) = .ok old ∧
      after.files.readFile (store.headerPath other) = .ok
        (if names other = names key then cache.toUTF8
        else if headerDirectory :: names other = names key then content else old) := by
  have here_eq : after.files.here = host.files.here := sound.here_eq.trans before.here_eq.symm
  have directories : ∀ place, host.files.tree.find? place = some .directory →
      after.files.tree.find? place = some .directory :=
    fun place stands => edits.directory (fun _ adds => adds.elim) stands
  constructor
  · obtain ⟨old, read, stands⟩ := Files.readFile_of_isFile present.object
    refine ⟨old, read, Files.readFile_of_directories present.object here_eq directories ?_⟩
    rw [places _ _ stands, before.here_eq, place_objectPath present.accepted,
      place_objectPath accepted, place_headerPath accepted]
    simp only [List.append_cancel_left_eq]
    split_ifs <;> rfl
  · obtain ⟨old, read, stands⟩ := Files.readFile_of_isFile present.header
    refine ⟨old, read, Files.readFile_of_directories present.header here_eq directories ?_⟩
    rw [places _ _ stands, before.here_eq, place_headerPath present.accepted,
      place_objectPath accepted, place_headerPath accepted]
    simp only [List.append_cancel_left_eq, List.cons.injEq, true_and]
    split_ifs <;> rfl

/-- What is kept as the cache header of a key is the text that is read there. -/
theorem cacheControl_of_read {files : Files} {content : ByteArray}
    (read : files.readFile (store.headerPath key) = .ok content) :
    store.cacheControl files key = String.fromUTF8? content := by
  rw [cacheControl, Files.readText, read]
  cases decoded : String.fromUTF8? content <;> simp [decoded, Except.toOption]

/-- After puts of whatever outcome, a put that works out keeps the content of its file and its cache
header under its key. Under every other key that was kept before, the object and the header are what
they were, apart from three cases: both keys have the same names, or the other key is that of the header
of this one, which then is its object, or this key is that of the header of the other one. -/
theorem put_among_kept (store : LocalStore) (here : Location) (start host after : Host σ)
    (keys : List String) (key : String) (file : Path) (cache : String)
    (sound : start.files.IsSound here) (filled : Filled store here start keys host)
    (outside : ¬store.root.place here <+: file.place here)
    (put : (store.put key file cache).run host = (.ok (), after)) :
    ∃ content, host.files.tree.find? (file.place here) = some (.file content) ∧
      store.Stocked after.files key content cache ∧
      ∀ other ∈ keys,
        (∃ old, host.files.readFile (store.objectPath other) = .ok old ∧
          after.files.readFile (store.objectPath other) = .ok
            (if names other = headerDirectory :: names key then cache.toUTF8
            else if names other = names key then content else old)) ∧
        store.cacheControl after.files other =
          if names other = names key then some cache
          else if headerDirectory :: names other = names key then String.fromUTF8? content
          else store.cacheControl host.files other := by
  obtain ⟨before, present⟩ := filled.isPresent sound
  obtain ⟨later, edits⟩ := adds_put before put
  have accepted : accepts key = true := (steps_of_put put).1
  have apart : file.place here ≠ (store.objectPath key).place here := by
    rw [place_objectPath accepted]
    exact fun same => outside (same ▸ List.prefix_append _ _)
  obtain ⟨content, source, places⟩ := find?_of_put before apart put
  refine ⟨content, source, ?_, fun other member => ?_⟩
  · exact stocked_of_put before.toAt source apart put
  · obtain ⟨object, old, read, header⟩ :=
      (present other member).read_of_put before edits later accepted places
    refine ⟨object, ?_⟩
    rw [cacheControl_of_read header, cacheControl_of_read read]
    split_ifs
    · exact fromUTF8?_toUTF8 cache
    · rfl
    · rfl

section Sample

/-- A store in a directory. -/
def sampleShelf : LocalStore := ⟨⟨"/s"⟩⟩

/-- Two files outside the store. -/
def sampleSources : Host Unit where
  files := ((Files.mk .empty []).plant [] "t/a" "one".toUTF8).plant [] "t/b" "two".toUTF8
  log := none
  now := ⟨0⟩
  uptime := 0
  bundlers := []
  store := ()

/-- The files put under keys one after the other, without a header. -/
def samplePuts (puts : List (String × String)) : Except Failure Unit × Host Unit :=
  (puts.forM fun (key, file) => sampleShelf.put key ⟨file⟩ "no-cache").run sampleSources

/-- A put under another key replaces the cache header of a key, if it is named as the header is, and the
object of a key, if it has the same names. -/
theorem put_replaces_other :
    ((samplePuts [("a", "/t/a"), (".loom-meta/a", "/t/b")]).1 = .ok () ∧
      sampleShelf.cacheControl (samplePuts [("a", "/t/a")]).2.files "a" = some "no-cache" ∧
      sampleShelf.cacheControl (samplePuts [("a", "/t/a"), (".loom-meta/a", "/t/b")]).2.files "a" =
        some "two") ∧
    plainKey "d/b" ≠ plainKey "d//b" ∧
      (samplePuts [("d/b", "/t/a"), ("d//b", "/t/b")]).1 = .ok () ∧
      (samplePuts [("d/b", "/t/a")]).2.files.readFile (sampleShelf.objectPath "d/b") =
        .ok "one".toUTF8 ∧
      (samplePuts [("d/b", "/t/a"), ("d//b", "/t/b")]).2.files.readFile
        (sampleShelf.objectPath "d/b") = .ok "two".toUTF8 := by
  decide +kernel

/-- A put under a second key leaves the first one with its content and header. -/
theorem put_among_kept_pair :
    ∃ first second : Host Unit,
      (sampleShelf.put "a" ⟨"/t/a"⟩ "no-cache").run sampleSources = (.ok (), first) ∧
      (sampleShelf.put "d/b" ⟨"/t/b"⟩ "no-cache").run first = (.ok (), second) ∧
      sampleShelf.cacheControl second.files "a" = sampleShelf.cacheControl first.files "a" ∧
      second.files.readFile (sampleShelf.objectPath "a") =
        first.files.readFile (sampleShelf.objectPath "a") := by
  have sound : sampleSources.files.IsSound [] :=
    ⟨⟨by decide +kernel, FileTree.isNamed_of_entries (by decide +kernel), by simp⟩,
      FileTree.isClosed_of_entries (by decide +kernel)⟩
  have works : ((sampleShelf.put "a" ⟨"/t/a"⟩ "no-cache").run sampleSources).1 = .ok () := by
    decide +kernel
  have works' : ((sampleShelf.put "d/b" ⟨"/t/b"⟩ "no-cache").run
      ((sampleShelf.put "a" ⟨"/t/a"⟩ "no-cache").run sampleSources).2).1 = .ok () := by
    decide +kernel
  have ends : ∀ run : Except Failure Unit × Host Unit, run.1 = .ok () → ∃ after, run = (.ok (), after) :=
    fun run works => ⟨run.2, Prod.ext works rfl⟩
  obtain ⟨first, ran⟩ := ends _ works
  rw [ran] at works'
  obtain ⟨second, ran'⟩ := ends _ works'
  obtain ⟨content, -, -, others⟩ := put_among_kept sampleShelf [] sampleSources first second ["a"]
    "d/b" ⟨"/t/b"⟩ "no-cache" sound (.kept .empty ran) (by decide +kernel) ran'
  obtain ⟨⟨old, read, still⟩, header⟩ := others "a" (List.mem_singleton_self "a")
  have apart : names "a" ≠ headerDirectory :: names "d/b" ∧ names "a" ≠ names "d/b" ∧
      headerDirectory :: names "a" ≠ names "d/b" := by
    decide +kernel
  rw [if_neg apart.1, if_neg apart.2.1] at still
  rw [if_neg apart.2.1, if_neg apart.2.2] at header
  exact ⟨first, second, ran, ran', header, still.trans read.symm⟩

end Sample

end LocalStore

end PageBuild
