import Mathlib.Data.Finset.Card
import Mathlib.Data.Finset.Dedup
import PageBuild.Component.Import
import PageBuild.Component.Index
import PageBuild.Proofs.Listing

/-!
# Laws of the component index

Registering entries keeps their list and the places of their names in step (`ComponentIndex.IsSound`),
so the entry at the place of a name is always there and is the first one of this name
(`ComponentIndex.find?_ofEntries`). What is kept, the packages and the imports for side effects are
first occurrences of three keys in two lists (`ComponentIndex.first_wins`).
-/
namespace PageBuild

/-- Imports of different modules are different statements. -/
theorem sideEffectStatement_injective : sideEffectStatement.Injective := by
  intro module_ other same
  rw [sideEffectStatement, sideEffectStatement] at same
  simpa using same

/-- The side imports are those of all entries. -/
theorem mem_sideStatements {entries : List ComponentEntry} {statement : String} :
    statement ∈ sideStatements entries ↔
      ∃ entry ∈ entries, ∃ side ∈ entry.sideImports,
        statement = sideEffectStatement (entry.sideModule side) := by
  simp only [sideStatements, sideModules, List.mem_map, mem_distinct, List.mem_flatMap]
  constructor
  · rintro ⟨_, ⟨entry, member, side, listed, rfl⟩, rfl⟩
    exact ⟨entry, member, side, listed, rfl⟩
  · rintro ⟨entry, member, side, listed, rfl⟩
    exact ⟨_, ⟨entry, member, side, listed, rfl⟩, rfl⟩

namespace ComponentIndex

variable {index : ComponentIndex} {entry : ComponentEntry} {entries : List ComponentEntry}
  {name : String} {place : Nat}

/-! ## Registering -/

/-- The place of a name after another one was given a place. -/
theorem lookup_append_singleton (places : List (String × Nat)) (name other : String) (next : Nat) :
    (places ++ [(other, next)]).lookup name =
      (places.lookup name).or (if name = other then some next else none) := by
  rw [List.lookup_append, List.lookup_cons, List.lookup_nil]
  by_cases same : name = other
  · simp [same]
  · simp [same, beq_false_of_ne same]

/-- An entry is passed over if its name is empty or taken, and otherwise stands last, at a place of its
own. -/
theorem register_cases (index : ComponentIndex) (entry : ComponentEntry) :
    index.register entry = index ∧ (entry.name = "" ∨ (index.place? entry.name).isSome = true) ∨
      (index.register entry).entries = index.entries ++ [entry] ∧
        (∀ name, (index.register entry).place? name =
          (index.place? name).or (if name = entry.name then some index.entries.length else none)) ∧
        entry.name ≠ "" ∧ index.place? entry.name = none := by
  rw [register]
  split_ifs with unnamed taken
  · exact .inl ⟨rfl, .inl unnamed⟩
  · exact .inl ⟨rfl, .inr taken⟩
  · exact .inr ⟨rfl, fun name => lookup_append_singleton _ name _ _, unnamed, by simpa using taken⟩

/-- Whether the places lead exactly to the entries of their names, and no name is empty. -/
structure IsSound (index : ComponentIndex) : Prop where
  place?_eq_some : ∀ {name place}, index.place? name = some place ↔
    ∃ entry, index.entries[place]? = some entry ∧ entry.name = name
  named : ∀ entry ∈ index.entries, entry.name ≠ ""

/-- The index of no entries is sound. -/
theorem isSound_empty : empty.IsSound := ⟨by simp [empty, place?], by simp [empty]⟩

/-- Registering an entry keeps the list and the places in step. -/
theorem IsSound.register (sound : index.IsSound) (entry : ComponentEntry) :
    (index.register entry).IsSound := by
  rcases index.register_cases entry with ⟨same, -⟩ | ⟨listed, placed, named, free⟩
  · rwa [same]
  · constructor
    · intro name place
      rw [placed, listed, Option.or_eq_some_iff, sound.place?_eq_some]
      constructor
      · rintro (⟨found, there, same⟩ | ⟨-, last⟩)
        · have before : place < index.entries.length := (List.getElem?_eq_some_iff.mp there).1
          exact ⟨found, by rw [List.getElem?_append_left before, there], same⟩
        · obtain ⟨rfl, here⟩ := Option.ite_none_right_eq_some.mp last
          obtain rfl := Option.some.inj here
          exact ⟨entry, List.getElem?_concat_length, rfl⟩
      · rintro ⟨found, there, rfl⟩
        rcases Nat.lt_trichotomy place index.entries.length with before | rfl | beyond
        · rw [List.getElem?_append_left before] at there
          exact .inl ⟨found, there, rfl⟩
        · rw [List.getElem?_concat_length] at there
          obtain rfl := Option.some.inj there
          exact .inr ⟨free, by simp⟩
        · rw [List.getElem?_eq_none (by simpa using Nat.succ_le_of_lt beyond)] at there
          cases there
    · rw [listed]
      intro found member
      rcases List.mem_append.mp member with old | new
      · exact sound.named found old
      · rwa [List.mem_singleton.mp new]

/-- The index of a list of entries is sound. -/
theorem isSound_ofEntries (entries : List ComponentEntry) : (ofEntries entries).IsSound := by
  have kept : ∀ index : ComponentIndex, index.IsSound → (entries.foldl register index).IsSound := by
    induction entries with
    | nil => exact fun index sound => sound
    | cons entry rest ih => exact fun index sound => ih _ (sound.register entry)
  exact kept empty isSound_empty

/-- Registering more entries keeps the first one of each name that has no place yet. -/
theorem entries_foldl_register {seen : List String}
    (known : ∀ name, name ∈ seen ↔ (index.place? name).isSome = true) :
    (entries.foldl register index).entries =
      index.entries ++ distinctFrom (·.name) seen (entries.filter (·.name ≠ "")) := by
  induction entries generalizing index seen with
  | nil => simp [distinctFrom]
  | cons entry rest ih =>
    rw [List.foldl_cons]
    rcases index.register_cases entry with ⟨same, passed⟩ | ⟨listed, placed, named, free⟩
    · rw [same, ih known]
      by_cases unnamed : entry.name = ""
      · simp [unnamed]
      · have taken := (known entry.name).mpr (passed.resolve_left unnamed)
        simp [unnamed, distinctFrom, taken]
    · have fresh : entry.name ∉ seen := by simp [known, free]
      have knows : ∀ name, name ∈ entry.name :: seen ↔
          ((index.register entry).place? name).isSome = true := by
        intro name
        rw [List.mem_cons, known, placed, Option.isSome_or]
        by_cases same : name = entry.name <;> simp [same]
      rw [ih knows, listed, List.filter_cons_of_pos (by simpa using named), distinctFrom,
        if_neg (by simpa using fresh), List.append_assoc, List.singleton_append]

/-- The entries that are kept are the first ones of their names. -/
theorem entries_ofEntries (entries : List ComponentEntry) :
    (ofEntries entries).entries = distinctBy (·.name) (entries.filter (·.name ≠ "")) := by
  have unplaced : ∀ name : String, name ∈ [] ↔ (empty.place? name).isSome = true := by
    simp [empty, place?]
  rw [ofEntries, entries_foldl_register unplaced, empty, List.nil_append, distinctBy]

/-! ## Looking up -/

/-- The entry at the place of a name is the first one of this name. -/
theorem IsSound.find?_eq (sound : index.IsSound) (name : String) :
    index.find? name = index.entries.find? (·.name == name) := by
  rw [find?]
  cases found : index.place? name with
  | none =>
    symm
    rw [Option.bind_none, List.find?_eq_none]
    intro entry member same
    obtain ⟨place, there⟩ := List.mem_iff_getElem?.mp member
    rw [sound.place?_eq_some.mpr ⟨entry, there, by simpa using same⟩] at found
    cases found
  | some place =>
    obtain ⟨entry, there, same⟩ := sound.place?_eq_some.mp found
    obtain ⟨within, at_place⟩ := List.getElem?_eq_some_iff.mp there
    symm
    rw [Option.bind_some, there, List.find?_eq_some_iff_getElem]
    refine ⟨by simpa using same, place, within, at_place, fun other earlier => ?_⟩
    -- An earlier entry of the name would be the one at its place.
    suffices index.entries[other].name ≠ name by simpa using this
    intro same'
    have again := sound.place?_eq_some.mpr
      ⟨_, List.getElem?_eq_getElem (earlier.trans within), same'⟩
    rw [found] at again
    exact earlier.ne (Option.some.inj again).symm

/-- A name is looked up among all entries: the first one of the name is found, if the name is not
empty. -/
theorem find?_ofEntries (entries : List ComponentEntry) (name : String) :
    (ofEntries entries).find? name =
      entries.find? fun entry => entry.name ≠ "" ∧ entry.name = name := by
  rw [(isSound_ofEntries entries).find?_eq, entries_ofEntries, find?_distinctBy, List.find?_filter]
  simp only [decide_eq_true_eq, beq_iff_eq]

/-! ## First occurrences -/

/-- Whether an entry with a name stands at a place of a list. -/
def NamedAt (entries : List ComponentEntry) (place : Nat) (entry : ComponentEntry) : Prop :=
  entries[place]? = some entry ∧ entry.name ≠ ""

/-- Whether the entry at a place of a list has a package in a version. -/
def PackageAt (entries : List ComponentEntry) (place : Nat) (dependency : PackageDependency) : Prop :=
  ∃ entry, entries[place]? = some entry ∧ PackageDependency.mk entry.package entry.version = dependency

/-- Whether a statement is that of an import for side effects: its place is that of the entry, and
then that among the side imports of the entry. -/
def SideImportAt (entries : List ComponentEntry) (place : Nat ×ₗ Nat) (statement : String) : Prop :=
  ∃ first second entry side, place = toLex (first, second) ∧ entries[first]? = some entry ∧
    entry.sideImports[second]? = some side ∧
      "import '" ++ (entry.package ++ side.path.getD "") ++ "'" = statement

/-- The entries that are kept are the first ones of their names. -/
theorem enumerates_entries (entries : List ComponentEntry) :
    Enumerates (FirstOccurs (NamedAt entries) (·.name)) (ofEntries entries).entries := by
  rw [entries_ofEntries]
  refine Enumerates.distinctBy (((Enumerates.getElem? entries).filter _).congr fun place entry => ?_) _
  rw [NamedAt, decide_eq_true_eq]

/-- As many entries are kept as there are names that are not empty. -/
theorem size_ofEntries (entries : List ComponentEntry) :
    (ofEntries entries).size = ((entries.map (·.name)).toFinset.erase "").card := by
  have names : ((entries.map (·.name)).toFinset.erase "") =
      ((ofEntries entries).entries.map (·.name)).toFinset := by
    ext name
    simp only [entries_ofEntries, Finset.mem_erase, List.mem_toFinset, List.mem_map]
    rw [exists_mem_distinctBy]
    simp only [List.mem_filter, decide_eq_true_eq]
    constructor
    · rintro ⟨named, entry, member, rfl⟩
      exact ⟨entry, ⟨member, named⟩, rfl⟩
    · rintro ⟨entry, ⟨member, named⟩, rfl⟩
      exact ⟨named, entry, member, rfl⟩
  have once : ((ofEntries entries).entries.map (·.name)).Nodup := by
    rw [entries_ofEntries]
    exact nodup_distinctBy
  rw [names, List.toFinset_card_of_nodup once, List.length_map, size]

/-- The packages are the first ones of their names, each in the version that stands there. -/
theorem enumerates_packages (index : ComponentIndex) :
    Enumerates (FirstOccurs (PackageAt index.entries) (·.package)) index.packages := by
  have all := (Enumerates.getElem? index.entries).map
    fun entry => PackageDependency.mk entry.package entry.version
  rw [packages, map_distinctBy PackageDependency.package
    (fun entry : ComponentEntry => PackageDependency.mk entry.package entry.version)]
  exact all.distinctBy _

/-- No package is listed twice. -/
theorem nodup_packages (index : ComponentIndex) : (index.packages.map (·.package)).Nodup := by
  rw [packages, List.map_map]
  exact nodup_distinctBy

/-- A package is listed exactly if an entry that is kept has it. -/
theorem mem_packages {package : String} :
    package ∈ index.packages.map (·.package) ↔ ∃ entry ∈ index.entries, entry.package = package := by
  rw [packages, List.map_map, List.mem_map]
  exact exists_mem_distinctBy

/-- The statements for side effects are the first ones for their modules. -/
theorem enumerates_sideStatements (entries : List ComponentEntry) :
    Enumerates (FirstOccurs (SideImportAt entries) id) (sideStatements entries) := by
  have all : Enumerates
      (fun (place : Nat ×ₗ Nat) module_ => ∃ first entry second, place = toLex (first, second) ∧
        entries[first]? = some entry ∧
          ∃ side, entry.sideImports[second]? = some side ∧ entry.sideModule side = module_)
      (entries.flatMap fun entry => entry.sideImports.map entry.sideModule) :=
    (Enumerates.getElem? entries).flatMap (fun first second => toLex (first, second))
      (fun entry _ => (Enumerates.getElem? entry.sideImports).map entry.sideModule)
      (fun before => Prod.Lex.toLex_lt_toLex.mpr (.inl before))
      (fun before => Prod.Lex.toLex_lt_toLex.mpr (.inr ⟨rfl, before⟩))
  have statements := (all.distinctBy id).map sideEffectStatement
  refine statements.congr fun place statement => ?_
  rw [← firstOccurs_map sideEffectStatement_injective]
  refine iff_of_eq (congrArg (FirstOccurs · id place statement) ?_)
  funext place statement
  refine propext ⟨?_, ?_⟩
  · rintro ⟨_, ⟨first, entry, second, rfl, there, side, listed, rfl⟩, rfl⟩
    exact ⟨first, second, entry, side, rfl, there, listed, rfl⟩
  · rintro ⟨first, second, entry, side, rfl, there, listed, rfl⟩
    exact ⟨_, ⟨first, entry, second, rfl, there, side, listed, rfl⟩, rfl⟩

/-- No import for side effects is stated twice. -/
theorem nodup_sideStatements (entries : List ComponentEntry) : (sideStatements entries).Nodup := by
  have modules : (sideModules entries).Nodup := nodup_distinct
  exact modules.map sideEffectStatement_injective

/-- Of all entries with one name that is not empty the first is kept and found: the place of a name is
always that of an entry, no entry is found for the empty name, and there are as many entries as names.
The packages of these entries, and the modules that all entries need for their side effects, are listed
once each, in the order of first occurrence and with the version that occurs first. -/
theorem first_wins (entries : List ComponentEntry) :
    ((∀ name, (ofEntries entries).find? name =
        entries.find? fun entry => entry.name ≠ "" ∧ entry.name = name) ∧
      (∀ name place, (ofEntries entries).place? name = some place →
        place < (ofEntries entries).entries.length) ∧
      (ofEntries entries).find? "" = none) ∧
    (Enumerates (FirstOccurs (NamedAt entries) (·.name)) (ofEntries entries).entries ∧
      (ofEntries entries).size = ((entries.map (·.name)).toFinset.erase "").card) ∧
    (((ofEntries entries).packages.map (·.package)).Nodup ∧
      (∀ package, package ∈ (ofEntries entries).packages.map (·.package) ↔
        ∃ entry ∈ (ofEntries entries).entries, entry.package = package) ∧
      Enumerates (FirstOccurs (PackageAt (ofEntries entries).entries) (·.package))
        (ofEntries entries).packages) ∧
    (sideStatements entries).Nodup ∧
    (∀ statement, statement ∈ sideStatements entries ↔
      ∃ entry ∈ entries, ∃ side ∈ entry.sideImports,
        statement = "import '" ++ (entry.package ++ side.path.getD "") ++ "'") ∧
    Enumerates (FirstOccurs (SideImportAt entries) id) (sideStatements entries) := by
  refine ⟨⟨find?_ofEntries entries, fun name place found => ?_, ?_⟩,
    ⟨enumerates_entries entries, size_ofEntries entries⟩,
    ⟨nodup_packages _, fun package => mem_packages, enumerates_packages _⟩,
    nodup_sideStatements entries, fun statement => mem_sideStatements,
    enumerates_sideStatements entries⟩
  · obtain ⟨entry, there, -⟩ := (isSound_ofEntries entries).place?_eq_some.mp found
    exact (List.getElem?_eq_some_iff.mp there).1
  · rw [find?_ofEntries, List.find?_eq_none]
    simp

end ComponentIndex

end PageBuild
