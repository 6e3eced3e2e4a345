import PageBuild.Proofs.Publish.LocalStore
import PageBuild.Proofs.Publish.Uploads

/-!
# What uploads leave in a local store

A put that works out leaves the content of its file and its cache header under its key
(`LocalStore.stocked_of_put`). Uploads that keep out of each other's way, of their sources and of the
log leave this for every file under each of its keys, in whatever order the workers proceed
(`LocalStore.stocked_of_run_ok`).
-/
namespace PageBuild

open PageBuild.Action (Moves)

variable {σ : Type}

/-! ## Places of keys -/

/-- Pieces that do not go up lead down by those that are steps. -/
theorem Location.foldl_step_straight {pieces : List String} (straight : ".." ∉ pieces)
    (location : Location) :
    pieces.foldl Location.step location =
      location ++ pieces.filter fun piece => !Path.isBlankPiece piece := by
  induction pieces generalizing location with
  | nil => simp
  | cons piece pieces ih =>
    rw [List.mem_cons, not_or] at straight
    rw [List.foldl_cons, ih straight.2, Location.step]
    by_cases blank : Path.isBlankPiece piece = true
    · simp [blank]
    · simp [blank, Ne.symm straight.1]

/-- The pieces of a text after the slashes that it starts with. -/
theorem exists_split_plainKey (key : String) :
    ∃ count, Text.split '/' key = List.replicate count "" ++ Text.split '/' (plainKey key) := by
  suffices chars : ∀ text : List Char, ∃ count, Text.splitChars '/' text =
      List.replicate count [] ++ Text.splitChars '/' (text.dropWhile (· == '/')) by
    obtain ⟨count, pieces⟩ := chars key.toList
    exact ⟨count, by simp [Text.split, plainKey, pieces]⟩
  intro text
  induction text with
  | nil => exact ⟨0, rfl⟩
  | cons c rest ih =>
    by_cases slash : c = '/'
    · obtain ⟨count, pieces⟩ := ih
      refine ⟨count + 1, ?_⟩
      simp [slash, Text.splitChars, pieces, List.replicate_succ]
    · exact ⟨0, by simp [slash]⟩

namespace LocalStore

variable {store : LocalStore} {here : Location} {key other : String} {file : Path}
  {content : ByteArray} {cache : String} {files later : Files} {host after : Host σ}

/-- The names that a key leads down by. -/
def names (key : String) : List String :=
  (Text.split '/' key).filter fun piece => !Path.isBlankPiece piece

/-- A key that is accepted does not go up. -/
theorem straight_of_accepts (accepted : accepts key = true) :
    ".." ∉ (Path.mk (plainKey key)).pieces := by
  have both : plainKey key ≠ "" ∧ ".." ∉ (Path.mk (plainKey key)).pieces := by
    simpa [accepts, Path.pieces] using accepted
  exact both.2

/-- A key that is accepted leads down by its names. -/
theorem place_join_plainKey (accepted : accepts key = true) (path : Path) :
    (path.join ⟨plainKey key⟩).place here = path.place here ++ names key := by
  obtain ⟨count, pieces⟩ := exists_split_plainKey key
  rw [Path.place_join (isAbsolute_plainKey key),
    Location.foldl_step_straight (straight_of_accepts accepted), names, pieces, List.filter_append]
  simp [Path.isBlankPiece, Path.pieces]

/-- An object stands where the names of its key lead. -/
theorem place_objectPath (accepted : accepts key = true) :
    (store.objectPath key).place here = store.root.place here ++ names key :=
  place_join_plainKey accepted store.root

/-- A cache header stands where the names of the key lead, below the directory of headers. -/
theorem place_headerPath (accepted : accepts key = true) :
    (store.headerPath key).place here = store.root.place here ++ headerDirectory :: names key := by
  have header : Path.IsName headerDirectory := by decide
  rw [headerPath, place_join_plainKey accepted, header.place_join, List.append_assoc,
    List.singleton_append]

/-- The object of a key does not stand where its cache header does. -/
theorem place_object_ne_header (accepted : accepts key = true) :
    (store.objectPath key).place here ≠ (store.headerPath key).place here := by
  rw [place_objectPath accepted, place_headerPath accepted]
  intro same
  have lengths := congrArg List.length (List.append_cancel_left same)
  simp at lengths

/-! ## Puts -/

/-- Whether an object with a content is kept under a key, with its cache header. -/
structure Stocked (store : LocalStore) (files : Files) (key : String) (content : ByteArray)
    (cache : String) : Prop where
  object : files.readFile (store.objectPath key) = .ok content
  header : store.cacheControl files key = some cache

/-- The bytes of a text are read as the text. -/
theorem fromUTF8?_toUTF8 (text : String) : String.fromUTF8? text.toUTF8 = some text := by
  have valid : text.toUTF8.IsValidUTF8 := text.isValidUTF8
  rw [String.fromUTF8?, dif_pos valid]
  rfl

/-- A cache header is kept where its file is. -/
theorem cacheControl_eq_some (stands : files.stat (store.headerPath key) = .ok (.file cache.toUTF8)) :
    store.cacheControl files key = some cache := by
  have read : files.readText (store.headerPath key) = .ok cache :=
    Files.readText_eq_ok.mpr ⟨_, stands, fromUTF8?_toUTF8 cache⟩
  rw [cacheControl, read]
  rfl

/-- An object is still kept where nothing was changed but other files. -/
theorem Stocked.of_spares {touched : Location → Entry → Prop}
    (stocked : store.Stocked files key content cache) (spared : files.Spares touched later)
    (here_eq : later.here = files.here) (directories : ∀ place, ¬touched place .directory)
    (object : ∀ entry, ¬touched ((store.objectPath key).place files.here) entry)
    (header : ∀ entry, ¬touched ((store.headerPath key).place files.here) entry) :
    store.Stocked later key content cache := by
  refine ⟨Files.readFile_eq_ok.mpr ?_, ?_⟩
  · exact spared.stat here_eq directories (object _) (Files.readFile_eq_ok.mp stocked.object)
  · have kept := stocked.header
    rw [cacheControl] at kept ⊢
    cases read : files.readText (store.headerPath key) with
    | error cause =>
      rw [read] at kept
      cases kept
    | ok text =>
      rw [read] at kept
      obtain ⟨bytes, stands, decoded⟩ := Files.readText_eq_ok.mp read
      have still := spared.stat here_eq directories (header _) stands
      rw [Files.readText_eq_ok.mpr ⟨bytes, still, decoded⟩]
      exact kept

/-- Directories made on the way to a path leave every file where it stands. -/
theorem kept_of_ensureParent {path : Path} (at_ : files.At here)
    (made : (FileM.ensureParent path).run files = (.ok (), later)) :
    later.At here ∧ files.Spares (fun _ _ => False) later := by
  have kept : Moves (Files.Keeps here fun _ _ => False) (FileM.ensureParent path) :=
    FileM.keeps_ensureParent path
  have kept := kept files
  rw [made] at kept
  exact kept at_

/-- What a put that works out does to the files, step by step. -/
theorem steps_of_put (put : (store.put key file cache).run host = (.ok (), after)) :
    accepts key = true ∧ ∃ first second third last,
      (FileM.ensureParent (store.objectPath key)).run host.files = (.ok (), first) ∧
      (FileM.ensureParent (store.headerPath key)).run first = (.ok (), second) ∧
      second.copyFile file (store.objectPath key) = .ok third ∧
      third.writeFile (store.headerPath key) cache.toUTF8 = .ok last ∧
      after = { host with files := last } := by
  rw [LocalStore.put] at put
  split at put
  · obtain ⟨_, _, refused, -⟩ := Action.of_run_bind_ok put
    cases refused
  · rename_i accepted
    obtain ⟨_, _, made, put⟩ := Action.of_run_bind_ok put
    obtain ⟨_, _, made', put⟩ := Action.of_run_bind_ok put
    obtain ⟨_, _, kept, stamped⟩ := Action.of_run_bind_ok put
    obtain ⟨first, objects, rfl⟩ := HostM.of_run_onFiles_ok made
    obtain ⟨second, headers, rfl⟩ := HostM.of_run_onFiles_ok made'
    obtain ⟨third, copied, rfl⟩ := HostM.of_run_change_ok kept
    obtain ⟨last, wrote, rfl⟩ := HostM.of_run_change_ok stamped
    exact ⟨by simpa using accepted, first, second, third, last, objects, headers, copied, wrote, rfl⟩

/-- A put that works out leaves the content of its file and the cache header under its key, if the file
stands outside the place of the object. -/
theorem stocked_of_put (at_ : host.files.At here)
    (stands : host.files.tree.find? (file.place here) = some (.file content))
    (apart : file.place here ≠ (store.objectPath key).place here)
    (put : (store.put key file cache).run host = (.ok (), after)) :
    store.Stocked after.files key content cache := by
  obtain ⟨accepted, first, second, third, last, objects, headers, copied, wrote, rfl⟩ :=
    steps_of_put put
  obtain ⟨first_at, first_spared⟩ := kept_of_ensureParent at_ objects
  obtain ⟨second_at, second_spared⟩ := kept_of_ensureParent first_at headers
  have stands : second.tree.find? (file.place here) = some (.file content) :=
    second_spared _ _ id (first_spared _ _ id stands)
  have copy : third.stat (store.objectPath key) = .ok (.file content) :=
    Files.stat_of_copyFile second_at stands apart copied
  have copies : Files.Keeps here (fun _ _ => True) second third :=
    Files.keeps_copyFile (fun _ => trivial) copied
  have third_at : third.At here := (copies second_at).1
  -- The header is written elsewhere, so the object that was copied stays.
  have spares : Files.Keeps here (fun place entry => place = (store.headerPath key).place here ∧
      entry ≠ .directory) third last :=
    Files.keeps_writeFile (fun old => ⟨rfl, by simp⟩) wrote
  obtain ⟨last_at, spared⟩ := spares third_at
  refine ⟨Files.readFile_eq_ok.mpr ?_, cacheControl_eq_some (Files.stat_of_writeFile wrote)⟩
  refine spared.stat (last_at.here_eq.trans third_at.here_eq.symm) (fun place touched => ?_)
    (fun touched => ?_) copy
  · exact touched.2 rfl
  · rw [third_at.here_eq] at touched
    exact place_object_ne_header accepted touched.1

end LocalStore

/-! ## Uploads -/

namespace Uploads

variable {store : LocalStore} {here : Location} {log : Option Location}
  {allowed : Path → String → Prop} {start : Files} {host middle after : Host σ} {file : Path}
  {key other : String} {content : ByteArray} {cache : String}

/-- Whether files that are put under keys keep out of each other's way, their sources and the log stand
outside the store, and no cache header is taken for an object. -/
structure Apart (store : LocalStore) (here : Location) (log : Option Location)
    (allowed : Path → String → Prop) : Prop where
  /-- Keys of the same names are one key of one file. -/
  keys : ∀ {file key other key'}, allowed file key → allowed other key' →
    LocalStore.names key = LocalStore.names key' → file = other ∧ key = key'
  headers : ∀ {file key other key'}, allowed file key → allowed other key' →
    LocalStore.names key ≠ LocalStore.headerDirectory :: LocalStore.names key'
  sources : ∀ {file key}, allowed file key → ¬store.root.place here <+: file.place here
  log : ∀ location ∈ log, ¬store.root.place here <+: location ∧
    ∀ file key, allowed file key → file.place here ≠ location

/-- What a put under a key may change: its object, its cache header and the log. -/
def Touches (store : LocalStore) (here : Location) (log : Option Location) (key : String)
    (place : Location) (entry : Entry) : Prop :=
  entry ≠ .directory ∧
    ((LocalStore.accepts key = true ∧ (place = (store.objectPath key).place here ∨
      place = (store.headerPath key).place here)) ∨ log = some place)

/-- Whether a host has the log open and the sources as they were at first. -/
structure Calm (here : Location) (log : Option Location) (allowed : Path → String → Prop)
    (start : Files) (host : Host σ) : Prop where
  at_ : host.files.At here
  log_eq : host.log = log
  sources : ∀ file key, allowed file key → ∀ content,
    start.tree.find? (file.place here) = some (.file content) →
      host.files.tree.find? (file.place here) = some (.file content)

/-- A put and the narration of it change no more than a put may. -/
theorem keeps_put_told (store : LocalStore) (calm : Calm here log allowed start host) (key : String)
    (file : Path) (cache : String) (text : String) :
    (((store.put key file cache).run host).2.told .info text).files.At here ∧
      host.files.Spares (Touches store here log key)
        (((store.put key file cache).run host).2.told .info text).files := by
  have puts : Moves (Host.Keeps here (Touches store here log key))
      (store.put key file cache : HostM σ Unit) :=
    LocalStore.keeps_put fun accepted old =>
      ⟨⟨by simp, .inl ⟨accepted, .inl rfl⟩⟩, by simp, .inl ⟨accepted, .inr rfl⟩⟩
  have narrates : Moves (Host.Keeps here (Touches store here log key))
      (HostM.info text : HostM σ Unit) := HostM.keeps_narrate _ _
  have both := trans_of (Host.Keeps here (Touches store here log key)) (puts host)
    (narrates ((store.put key file cache).run host).2)
  have at_ : host.At here (Touches store here log key) :=
    ⟨calm.at_, fun location opened _ => ⟨by simp, .inr (calm.log_eq.symm.trans opened)⟩⟩
  exact ⟨(both at_).1.files, (both at_).2⟩

/-- No put touches a source. -/
theorem Apart.not_touches_source (apart : Apart store here log allowed) {source : Path}
    {key' : String} (used : allowed source key') (entry : Entry) :
    ¬Touches store here log key (source.place here) entry := by
  rintro ⟨-, ⟨accepted, object | header⟩ | opened⟩
  · rw [LocalStore.place_objectPath accepted] at object
    exact apart.sources used (object ▸ List.prefix_append _ _)
  · rw [LocalStore.place_headerPath accepted] at header
    exact apart.sources used (header ▸ List.prefix_append _ _)
  · exact (apart.log _ opened).2 _ _ used rfl

/-- No put touches what is kept under a key of other names. -/
theorem Apart.not_touches_other (apart : Apart store here log allowed) (used : allowed file key)
    {source : Path} {other : String} (used' : allowed source other)
    (accepted : LocalStore.accepts other = true)
    (differ : LocalStore.names other ≠ LocalStore.names key) (entry : Entry) :
    ¬Touches store here log key ((store.objectPath other).place here) entry ∧
      ¬Touches store here log key ((store.headerPath other).place here) entry := by
  rw [LocalStore.place_objectPath accepted, LocalStore.place_headerPath accepted]
  constructor
  · rintro ⟨-, ⟨accepts, object | header⟩ | opened⟩
    · rw [LocalStore.place_objectPath accepts] at object
      exact differ (List.append_cancel_left object)
    · rw [LocalStore.place_headerPath accepts] at header
      exact apart.headers used' used (List.append_cancel_left header)
    · exact (apart.log _ opened).1 (List.prefix_append _ _)
  · rintro ⟨-, ⟨accepts, object | header⟩ | opened⟩
    · rw [LocalStore.place_objectPath accepts] at object
      exact apart.headers used used' (List.append_cancel_left object).symm
    · rw [LocalStore.place_headerPath accepts] at header
      exact differ (List.cons.inj (List.append_cancel_left header)).2
    · exact (apart.log _ opened).1 (List.prefix_append _ _)

/-- A put that works out leaves its host calm. -/
theorem Calm.of_put (calm : Calm here log allowed start host) (apart : Apart store here log allowed)
    (put : (store.put key file cache).run host = (.ok (), middle)) (text : String) :
    Calm here log allowed start (middle.told .info text) := by
  obtain ⟨at_, spared⟩ := keeps_put_told store calm key file cache text
  rw [put] at at_ spared
  refine ⟨at_, ?_, fun source other used content stands => ?_⟩
  · obtain ⟨-, _, _, _, _, -, -, -, -, rfl⟩ := LocalStore.steps_of_put put
    rw [HostM.log_told]
    exact calm.log_eq
  · exact spared _ _ (apart.not_touches_source used _) (calm.sources source other used content stands)

/-- What a put leaves under its key is there after it was told of. -/
theorem Calm.stocked_of_put (calm : Calm here log allowed start host)
    (apart : Apart store here log allowed) (used : allowed file key)
    (stands : start.tree.find? (file.place here) = some (.file content))
    (put : (store.put key file cache).run host = (.ok (), middle)) (text : String) :
    LocalStore.accepts key = true ∧
      store.Stocked (middle.told .info text).files key content cache := by
  obtain ⟨accepted, _, _, _, last, -, -, -, -, same⟩ := LocalStore.steps_of_put put
  have object : ¬Touches store here log key (file.place here) (.file content) :=
    apart.not_touches_source used _
  have stocked : store.Stocked middle.files key content cache := by
    refine LocalStore.stocked_of_put calm.at_ (calm.sources file key used content stands) ?_ put
    exact fun same => object ⟨by simp, .inl ⟨accepted, .inl same⟩⟩
  obtain ⟨spared, here_eq⟩ := HostM.spares_told middle .info text
  have middle_here : middle.files.here = here :=
    here_eq.symm.trans (calm.of_put apart put text).at_.here_eq
  have opened : middle.log = log := by
    rw [same]
    exact calm.log_eq
  refine ⟨accepted, stocked.of_spares spared here_eq (fun place touched => touched.1 rfl) ?_ ?_⟩
  · rw [middle_here, opened, LocalStore.place_objectPath accepted]
    exact fun entry touched => (apart.log _ touched.2).1 (List.prefix_append _ _)
  · rw [middle_here, opened, LocalStore.place_headerPath accepted]
    exact fun entry touched => (apart.log _ touched.2).1 (List.prefix_append _ _)

/-- What is kept under a key of other names stays through a put. -/
theorem Calm.stocked_stays (calm : Calm here log allowed start host)
    (apart : Apart store here log allowed) (used : allowed file key) {source : Path}
    (used' : allowed source other) (accepted : LocalStore.accepts other = true)
    (differ : LocalStore.names other ≠ LocalStore.names key)
    (put : (store.put key file cache).run host = (.ok (), middle)) (text : String) {kept : ByteArray}
    {header : String} (stocked : store.Stocked host.files other kept header) :
    store.Stocked (middle.told .info text).files other kept header := by
  obtain ⟨at_, spared⟩ := keeps_put_told store calm key file cache text
  rw [put] at at_ spared
  have here_eq := calm.at_.here_eq
  refine stocked.of_spares spared (at_.here_eq.trans here_eq.symm) (fun place touched => touched.1 rfl)
    ?_ ?_
  · rw [here_eq]
    exact fun entry => (apart.not_touches_other used used' accepted differ entry).1
  · rw [here_eq]
    exact fun entry => (apart.not_touches_other used used' accepted differ entry).2

/-- Whether every file that was there at first is kept under each of its keys, or left to be put, unless
an upload has failed. -/
def Stocks (store : LocalStore) (here : Location) (log : Option Location)
    (allowed : Path → String → Prop) (start : Files) (state : Uploads × Host σ) : Prop :=
  state.1.Within allowed ∧ (state.1.failure = none → Calm here log allowed start state.2 ∧
    ∀ file key, allowed file key → ∀ content,
      start.tree.find? (file.place here) = some (.file content) →
        (LocalStore.accepts key = true ∧
          store.Stocked state.2.files key content file.cacheControl) ∨ state.1.Left file key)

/-- A change without a failure leaves the host as it is, or puts a file under a key and tells so. -/
theorem cases_of_change {target : Store σ} {uploads next : Uploads} (within : uploads.Within allowed)
    (change : Change target (uploads, host) (next, after)) (fine : next.failure = none) :
    after = host ∨ ∃ file key middle, allowed file key ∧
      (target.put key file file.cacheControl).run host = (.ok (), middle) ∧
        after = middle.told .info ("Uploaded " ++ key) := by
  cases change with
  | take | skip => exact .inl rfl
  | last put | put put => exact .inr ⟨_, _, _, within.of_taken, put, rfl⟩
  | fail put => exact absurd fine (failure_fail _ _ _)

/-- A change keeps the store stocked. -/
theorem Stocks.of_change {state later : Uploads × Host σ} (apart : Apart store here log allowed)
    (stocks : Stocks store here log allowed start state)
    (change : Change store.toStore state later) : Stocks store here log allowed start later := by
  obtain ⟨within, stocks⟩ := stocks
  refine ⟨within.of_change change, fun fine => ?_⟩
  have unfailed : state.1.failure = none := by
    by_contra failed
    exact failure_stays change failed fine
  obtain ⟨calm, accounts⟩ := stocks unfailed
  constructor
  · rcases cases_of_change within change fine with same | ⟨file, key, middle, used, put, told⟩
    · rwa [same]
    · rw [told]
      exact calm.of_put apart put _
  · intro file key used content stands
    rcases accounts file key used content stands with ⟨accepted, kept⟩ | left
    · left
      refine ⟨accepted, ?_⟩
      rcases cases_of_change within change fine with same | ⟨file', key', middle, used', put, told⟩
      · rwa [same]
      · rw [told]
        by_cases rivals : LocalStore.names key = LocalStore.names key'
        · obtain ⟨rfl, rfl⟩ := apart.keys used used' rivals
          exact (calm.stocked_of_put apart used stands put _).2
        · exact calm.stocked_stays apart used' used accepted rivals put _ kept
    · rcases left.of_change change with left | failed | ⟨middle, put, told⟩
      · exact .inr left
      · exact absurd fine failed
      · left
        rw [told]
        exact calm.stocked_of_put apart used stands put _

/-- Uploads that work out leave every file that they started with under each of its keys, whatever the
policy. -/
theorem stocked_of_run_ok {policy : Policy} {workers : Nat} {files : List (Path × List String)}
    (apart : Apart store here log fun file key => ∃ pair ∈ files, pair.1 = file ∧ key ∈ pair.2)
    (at_ : host.files.At here) (opened : host.log = log)
    (ran : (run store.toStore policy workers files).run host = (.ok (), after)) :
    ∀ pair ∈ files, ∀ key ∈ pair.2, ∀ content,
      host.files.tree.find? (pair.1.place here) = some (.file content) →
        store.Stocked after.files key content pair.1.cacheControl := by
  obtain ⟨last, changes, fine, done⟩ := exists_changes_of_run_ok ran
  have stocks : Stocks store here log (fun file key => ∃ pair ∈ files, pair.1 = file ∧ key ∈ pair.2)
      host.files (last, after) := by
    generalize (last, after) = state at changes
    induction changes with
    | refl =>
      refine ⟨within_ofFiles fun pair member key keyed => ⟨pair, member, rfl, keyed⟩, fun _ => ?_⟩
      refine ⟨⟨at_, opened, fun _ _ _ _ stands => stands⟩, ?_⟩
      rintro _ key ⟨pair, member, rfl, keyed⟩ content stands
      exact .inr (left_ofFiles member keyed)
    | tail _ change ih => exact ih.of_change apart change
  intro pair member key keyed content stands
  have kept := (stocks.2 fine).2 pair.1 key ⟨pair, member, rfl, keyed⟩ content stands
  exact (kept.resolve_right (done pair.1 key)).2

end Uploads

end PageBuild
