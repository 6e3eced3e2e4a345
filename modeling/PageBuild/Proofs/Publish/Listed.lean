import Mathlib.Data.String.Basic
import PageBuild.Proofs.Listing
import PageBuild.Proofs.Publish.Stocked

/-!
# What a local store lists

A listing shows the files below the root whose names have no directory of cache headers among them and
whose key starts with a text (`LocalStore.Shows`). They come in the order of the lists of their names,
which is that of a depth-first walk with sorted names, each once and up to the limit; but the first object
is listed even when none is asked for (`LocalStore.lists_shown`).
-/
namespace PageBuild

variable {σ : Type}

/-! ## Order -/

/-- Locations come one before another as lists of names do. -/
theorem Location.before_iff {first second : Location} : first.before second ↔ first < second := by
  rw [before]
  induction first generalizing second with
  | nil => cases second <;> simp
  | cons name first ih =>
    cases second with
    | nil => simp
    | cons other second =>
      rw [List.compare_cons_cons, Ordering.then_eq_lt, List.cons_lt_cons_iff, ih]
      exact or_congr Std.LawfulLTCmp.eq_lt_iff_lt (and_congr_left' Std.compare_eq_iff_eq)

/-- Below a location the names decide which place comes first. -/
theorem Location.before_append_iff (base : Location) {first second : List String} :
    Location.before (base ++ first) (base ++ second) ↔ first < second := by
  rw [before_iff]
  induction base with
  | nil => rfl
  | cons name base ih => simp [ih]

/-! ## Walks -/

namespace Files

variable {files : Files} {root : Path} {base : Location} {slashed : Bool} {items : List Walked}

/-- A walk comes by its places in the order of the names on the way down. -/
theorem pairwise_of_walk (walked : files.walk root = .ok items) :
    items.Pairwise fun first second => first.names < second.names := by
  rw [walk] at walked
  split at walked
  · rename_i base slashed entry located stands
    cases walked
    refine List.pairwise_cons.mpr ⟨fun item member => ?_, ?_⟩
    · obtain ⟨⟨names, entry⟩, below, rfl⟩ := List.mem_map.mp member
      obtain ⟨name, rest, rfl⟩ := List.exists_cons_of_ne_nil (FileTree.mem_below.mp below).1
      exact List.nil_lt_cons name rest
    · exact List.pairwise_map.mpr ((FileTree.pairwise_below files.tree base).imp
        (Location.before_append_iff base).mp)
  · cases walked
  · cases walked

/-- A walk meets what stands at its root and below it, each at the names on the way down. -/
theorem enumerates_walk {top : Entry} (walked : files.walk root = .ok items)
    (located : files.locate root = .ok (base, slashed)) (found : files.stat root = .ok top) :
    Enumerates (fun names item => ∃ entry, files.tree.find? (base ++ names) = some entry ∧
      item = ⟨root.descend names, names, entry⟩) items := by
  obtain ⟨_, _, located', stands⟩ := stat_eq_ok found
  obtain ⟨rfl, rfl⟩ := Prod.mk.inj (Except.ok.inj (located.symm.trans located'))
  refine ⟨items.map fun item => (item.names, item), ?_, ?_, fun names item => ?_⟩
  · rw [List.map_map]
    exact List.map_id items
  · exact List.pairwise_map.mpr (pairwise_of_walk walked)
  · rw [List.mem_map]
    constructor
    · rintro ⟨item, member, same⟩
      obtain ⟨rfl, rfl⟩ := Prod.mk.inj same
      rcases (mem_of_walk walked located).mp member with ⟨entry, at_root, rfl⟩ | ⟨names, entry, -, below, rfl⟩
      · cases found.symm.trans at_root
        exact ⟨_, by rwa [List.append_nil], rfl⟩
      · exact ⟨entry, below, rfl⟩
    · rintro ⟨entry, below, rfl⟩
      refine ⟨⟨root.descend names, names, entry⟩, (mem_of_walk walked located).mpr ?_, rfl⟩
      by_cases blank : names = []
      · subst blank
        rw [List.append_nil, stands] at below
        cases below
        exact .inl ⟨top, found, rfl⟩
      · exact .inr ⟨names, entry, blank, below, rfl⟩

end Files

/-! ## Listings -/

namespace LocalStore

variable {store : LocalStore} {files : Files} {start : String} {here : Location}

/-- Whether a listing shows an object, for the file that names lead to from the root: neither the root
nor one of the names is a directory of cache headers, the key that the names make starts with a text, and
the object has the size of the file. -/
structure Shows (store : LocalStore) (files : Files) (start : String) (names : List String)
    (object : StoredObject) : Prop where
  rooted : store.root.fileName? ≠ some headerDirectory
  visible : headerDirectory ∉ names
  key_eq : object.key = Text.join '/' names
  starts : (plainKey start).toList <+: object.key.toList
  stands : ∃ base slashed content, files.locate store.root = .ok (base, slashed) ∧
    files.tree.find? (base ++ names) = some (.file content) ∧ object.size = content.size

/-- What a listing makes of a file below its root. -/
theorem objectOf?_eq_some {names : List String} {entry : Entry} {object : StoredObject}
    (named : ∀ name ∈ names, Path.IsName name) :
    store.objectOf? start ⟨store.root.descend names, names, entry⟩ = some object ↔
      ∃ content, entry = .file content ∧ start.toList <+: object.key.toList ∧
        object = ⟨Text.join '/' names, content.size⟩ := by
  cases entry with
  | directory => simp [objectOf?]
  | file content =>
    simp only [objectOf?, Path.relativeKey_descend named, List.isPrefixOf_iff_prefix,
      Option.ite_none_right_eq_some, Option.some.injEq, Entry.file.injEq]
    constructor
    · rintro ⟨starts, rfl⟩
      exact ⟨content, rfl, starts, rfl⟩
    · rintro ⟨_, rfl, starts, rfl⟩
      exact ⟨starts, rfl⟩

/-- The key that names make leads down by them. -/
theorem names_join {path : List String} (named : ∀ name ∈ path, Path.IsName name) :
    names (Text.join '/' path) = path := by
  by_cases blank : path = []
  · subst blank
    decide +kernel
  · rw [names, Text.split_join blank fun name member => (named name member).1, List.filter_eq_self]
    intro name member
    obtain ⟨-, filled, dot, -⟩ := named name member
    simp [Path.isBlankPiece, filled, dot]

/-- No key is shown twice. -/
theorem nodup_keys {shown : List StoredObject} (at_ : files.At here)
    (enumerates : Enumerates (store.Shows files start) shown) : (shown.map (·.key)).Nodup := by
  obtain ⟨placed, rfl, ordered, each⟩ := enumerates
  rw [List.map_map]
  refine List.pairwise_map.mpr (ordered.imp_of_mem ?_)
  rintro ⟨path, first⟩ ⟨other, second⟩ member member' before (same : first.key = second.key)
  have leads : ∀ {path : List String} {object : StoredObject}, (path, object) ∈ placed →
      names object.key = path := by
    intro path object member
    obtain ⟨-, -, key_eq, -, base, slashed, content, -, stands, -⟩ := (each path object).mp member
    rw [key_eq]
    exact names_join fun name inside =>
      at_.named _ _ stands name (List.mem_append_right base inside)
  have lists : path = other := by rw [← leads member, ← leads member', same]
  exact lt_irrefl other (lists ▸ before)

/-- A listing without a limit: what it makes of a walk is what it shows. -/
theorem enumerates_shown {items : List Files.Walked} {base : Location} {slashed : Bool} {top : Entry}
    (at_ : files.At here) (walked : files.walk store.root = .ok items)
    (located : files.locate store.root = .ok (base, slashed))
    (found : files.stat store.root = .ok top) :
    Enumerates (store.Shows files start)
      ((items.filter store.isListed).filterMap (store.objectOf? (plainKey start))) := by
  have met := ((Files.enumerates_walk walked located found).filter store.isListed).filterMap
    (store.objectOf? (plainKey start))
  refine met.congr fun path object => ?_
  constructor
  · rintro ⟨item, ⟨⟨entry, stands, rfl⟩, listed⟩, made⟩
    obtain ⟨content, rfl, starts, rfl⟩ := (objectOf?_eq_some fun name inside =>
      at_.named _ _ stands name (List.mem_append_right base inside)).mp made
    have listed : store.root.fileName? ≠ some headerDirectory ∧ headerDirectory ∉ path := by
      simpa [isListed] using listed
    exact ⟨listed.1, listed.2, rfl, starts, base, slashed, content, located, stands, rfl⟩
  · rintro ⟨rooted, visible, key_eq, starts, base', slashed', content, located', stands, size_eq⟩
    obtain ⟨rfl, rfl⟩ := Prod.mk.inj (Except.ok.inj (located.symm.trans located'))
    refine ⟨⟨store.root.descend path, path, .file content⟩, ⟨⟨_, stands, rfl⟩, ?_⟩, ?_⟩
    · simp [isListed, rooted, visible]
    · refine (objectOf?_eq_some fun name inside =>
        at_.named _ _ stands name (List.mem_append_right base inside)).mpr ⟨content, rfl, starts, ?_⟩
      obtain ⟨key, size⟩ := object
      cases key_eq
      cases size_eq
      rfl

/-- A listing of a store whose root does not exist is empty. Any other one holds what the store shows, in
the order of the names and no key twice, up to the limit; but the first object is listed even when none is
asked for. -/
theorem lists_shown (store : LocalStore) (start : String) (limit : Nat) (host : Host σ)
    (at_ : host.files.At here) :
    (host.files.pathExists store.root = false →
      (store.list start limit).run host = (.ok [], host)) ∧
    (host.files.pathExists store.root = true →
      ∃ shown, Enumerates (store.Shows host.files start) shown ∧ (shown.map (·.key)).Nodup ∧
        (store.list start limit).run host = (.ok (shown.take (max limit 1)), host)) := by
  refine ⟨run_list_of_missing start limit host, fun there => ?_⟩
  obtain ⟨top, items, found, walked, ran⟩ := exists_walk_list start limit host there
  obtain ⟨base, slashed, located, -⟩ := Files.stat_eq_ok found
  have enumerates : Enumerates (store.Shows host.files start)
      ((items.filter store.isListed).filterMap (store.objectOf? (plainKey start))) :=
    enumerates_shown at_ walked located found
  exact ⟨_, enumerates, nodup_keys at_ enumerates, ran⟩

section Sample

/-- A host with a store of two objects and the cache header of one. -/
def sampleShop : Host Unit where
  files := (((Files.mk .empty []).plant [] "s/a/x" ⟨#[1, 2]⟩).plant [] "s/b" ⟨#[3]⟩).plant []
    "s/.loom-meta/b" ⟨#[4]⟩
  log := none
  now := ⟨0⟩
  uptime := 0
  bundlers := []
  store := ()

/-- An object is listed although none is asked for. -/
theorem list_exceeds_limit :
    (((LocalStore.mk ⟨"/s"⟩).list "" 0).run sampleShop).1 = .ok [⟨"a/x", 2⟩] := by
  decide +kernel

/-- The store of the sample is listed up to two objects. -/
theorem lists_shown_shop :
    sampleShop.files.pathExists ⟨"/s"⟩ = true ∧
      ∃ shown, Enumerates ((LocalStore.mk ⟨"/s"⟩).Shows sampleShop.files "/") shown ∧
        ((LocalStore.mk ⟨"/s"⟩).list "/" 2).run sampleShop = (.ok (shown.take 2), sampleShop) := by
  have at_ : sampleShop.files.At [] :=
    ⟨by decide +kernel, FileTree.isNamed_of_entries (by decide +kernel), by simp⟩
  have there : sampleShop.files.pathExists ⟨"/s"⟩ = true := by decide +kernel
  obtain ⟨shown, enumerates, -, listed⟩ :=
    (lists_shown (LocalStore.mk ⟨"/s"⟩) "/" 2 sampleShop at_).2 there
  exact ⟨there, shown, enumerates, listed⟩

end Sample

end LocalStore

end PageBuild
