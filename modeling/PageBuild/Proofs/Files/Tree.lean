import Mathlib.Data.List.Induction
import Mathlib.Data.List.Sort
import PageBuild.Files.Tree
import PageBuild.Proofs.Files.Path

/-!
# Laws of file trees

What a removal leaves, what stands below a location, and the two properties that trees of a real
machine have: every name on the way to an entry is one step (`FileTree.IsNamed`), and whatever
stands somewhere stands in a directory (`FileTree.IsClosed`).
-/
namespace PageBuild

/-- Two files are the same if their contents are. -/
instance : DecidableEq Entry
  | .file a, .file b =>
    @decidable_of_iff _ (a = b) (by rw [Entry.file.injEq]) (ByteArray.instDecidableEq a b)
  | .directory, .directory => isTrue rfl
  | .file _, .directory | .directory, .file _ => isFalse (by simp)

/-- Whether an entry is a file. -/
def Entry.isFile : Entry → Bool
  | file _ => true
  | directory => false

namespace FileTree

variable {tree later : FileTree} {location other : Location} {entry : Entry}

/-! ## Lookups -/

/-- The root is a directory. -/
theorem find?_nil (tree : FileTree) : tree.find? [] = some .directory := if_pos rfl

/-- What stands below the root is an entry of the tree. -/
theorem find?_eq_some (below : location ≠ []) :
    tree.find? location = some entry ↔ (location, entry) ∈ tree.entries := by
  rw [find?, if_neg below]
  obtain ⟨entries, sorted⟩ := tree
  dsimp only
  induction entries with
  | nil => simp
  | cons found rest ih =>
    obtain ⟨place, stands⟩ := found
    obtain ⟨first, tail⟩ := List.pairwise_cons.mp sorted
    by_cases same : location = place
    · subst same
      have once : (location, entry) ∉ rest := fun member => by
        have before : compare location location = .lt := first _ member
        simp only [Std.ReflCmp.compare_self, reduceCtorEq] at before
      simp [once, eq_comm]
    · simp [List.lookup_cons, beq_eq_false_iff_ne.mpr same, same, ih tail]

/-- After an entry was removed all else stands as before. -/
theorem find?_erase (tree : FileTree) (location other : Location) (below : other ≠ []) :
    (tree.erase location).find? other =
      if other = location then none else tree.find? other := by
  rw [erase, find?_restrict, if_neg below]
  by_cases same : other = location <;> simp [same]

/-- After all at and below a location was removed all else stands as before. -/
theorem find?_eraseBelow (tree : FileTree) (location other : Location) (below : other ≠ []) :
    (tree.eraseBelow location).find? other =
      if location <+: other then none else tree.find? other := by
  rw [eraseBelow, find?_restrict, if_neg below]
  by_cases within : location <+: other
  · simp [within, List.isPrefixOf_iff_prefix.mpr within]
  · have apart : location.isPrefixOf other = false := by
      rw [Bool.eq_false_iff, ne_eq, List.isPrefixOf_iff_prefix]
      exact within
    simp [within, apart]

/-! ## Walks -/

/-- The names on the way down from a location. -/
theorem namesBelow?_eq_some {names : List String} :
    namesBelow? location other = some names ↔ other = location ++ names := by
  induction location generalizing other with
  | nil => simp [namesBelow?, eq_comm]
  | cons name location ih =>
    cases other with
    | nil => simp [namesBelow?]
    | cons first other =>
      by_cases same : name = first
      · simp [namesBelow?, same, ih]
      · simp [namesBelow?, same, Ne.symm same]

/-- What stands below a location, by the names on the way down. -/
theorem mem_below {names : List String} :
    (names, entry) ∈ tree.below location ↔
      names ≠ [] ∧ tree.find? (location ++ names) = some entry := by
  rw [below, List.mem_filterMap]
  constructor
  · rintro ⟨⟨found, stands⟩, member, chosen⟩
    dsimp only at chosen
    split at chosen
    · cases chosen
    · rename_i way filled leads
      obtain ⟨rfl, rfl⟩ := Prod.mk.inj (Option.some.inj chosen)
      rw [namesBelow?_eq_some] at leads
      subst leads
      exact ⟨filled, (find?_eq_some fun root => filled (List.append_eq_nil_iff.mp root).2).mpr
        member⟩
    · cases chosen
  · rintro ⟨filled, stands⟩
    refine ⟨(location ++ names, entry), (find?_eq_some (by simp [filled])).mp stands, ?_⟩
    dsimp only
    rw [namesBelow?_eq_some.mpr rfl]
    cases names with
    | nil => exact absurd rfl filled
    | cons name names => rfl

/-- The names in a directory. -/
theorem mem_children {name : String} :
    name ∈ tree.children location ↔ ∃ entry, tree.find? (location ++ [name]) = some entry := by
  rw [children, List.mem_filterMap]
  constructor
  · rintro ⟨⟨names, entry⟩, member, chosen⟩
    dsimp only at chosen
    split at chosen
    · obtain rfl := Option.some.inj chosen
      exact ⟨entry, (mem_below.mp member).2⟩
    · cases chosen
  · rintro ⟨entry, stands⟩
    exact ⟨([name], entry), mem_below.mpr ⟨by simp, stands⟩, rfl⟩

/-- What stands below a location comes in the order of its names. -/
theorem pairwise_below (tree : FileTree) (location : Location) :
    (tree.below location).Pairwise fun a b =>
      Location.before (location ++ a.1) (location ++ b.1) := by
  -- What an entry alone contributes is known from the tree of that entry.
  have leads : ∀ (item : Location × Entry) (x : List String × Entry),
      x ∈ (FileTree.mk [item] (List.pairwise_singleton _ _)).below location →
        item.1 = location ++ x.1 := by
    intro item x member
    obtain ⟨filled, stands⟩ := mem_below.mp member
    rw [find?_eq_some (by simp [filled])] at stands
    rw [← List.mem_singleton.mp stands]
  rw [below, List.pairwise_filterMap]
  refine tree.sorted.imp fun {a b} before x first y second => ?_
  rwa [← leads a x (List.mem_filterMap.mpr ⟨a, List.mem_singleton_self a, first⟩),
    ← leads b y (List.mem_filterMap.mpr ⟨b, List.mem_singleton_self b, second⟩)]

/-- What stands below a location is known from what is found there. -/
theorem below_eq (same : ∀ names, tree.find? (location ++ names) = later.find? (location ++ names)) :
    tree.below location = later.below location := by
  have irrefl : Std.Irrefl fun a b : List String × Entry =>
      Location.before (location ++ a.1) (location ++ b.1) :=
    ⟨fun a before => by simp [Location.before, Std.ReflCmp.compare_self] at before⟩
  have antisymm : Std.Antisymm fun a b : List String × Entry =>
      Location.before (location ++ a.1) (location ++ b.1) :=
    ⟨fun a b first second => absurd second (by
      have after := Std.OrientedCmp.gt_of_lt first
      simp [Location.before, after])⟩
  refine (pairwise_below tree location).eq_of_mem_iff (pairwise_below later location) ?_
  rintro ⟨names, entry⟩
  rw [mem_below, mem_below, same]

/-- The names in a directory are known from what is found below it. -/
theorem children_eq
    (same : ∀ names, tree.find? (location ++ names) = later.find? (location ++ names)) :
    tree.children location = later.children location := by
  rw [children, children, below_eq same]

/-! ## Trees of a machine -/

/-- Whether every name on the way to an entry is one step. -/
def IsNamed (tree : FileTree) : Prop :=
  ∀ location entry, tree.find? location = some entry → ∀ name ∈ location, Path.IsName name

/-- Whether whatever stands somewhere stands in a directory. -/
def IsClosed (tree : FileTree) : Prop :=
  ∀ location name entry, tree.find? (location ++ [name]) = some entry →
    tree.find? location = some .directory

/-- A tree is named if the locations of its entries are. -/
theorem isNamed_of_entries (named : ∀ item ∈ tree.entries, ∀ name ∈ item.1, Path.IsName name) :
    tree.IsNamed := by
  intro location entry stands
  by_cases root : location = []
  · simp [root]
  · exact named _ ((find?_eq_some root).mp stands)

/-- An entry at a place of names keeps a tree named. -/
theorem IsNamed.insert (named : tree.IsNamed) (names : ∀ name ∈ location, Path.IsName name)
    (entry : Entry) : (tree.insert location entry).IsNamed := by
  intro place found stands
  by_cases root : place = []
  · simp [root]
  · have lookup := lookup_place location entry tree.entries tree.sorted place
    rw [find?, if_neg root, FileTree.insert, lookup] at stands
    split at stands
    · rename_i same
      exact same ▸ names
    · exact named place found (by rwa [find?, if_neg root])

/-- A tree of which entries were removed is still named. -/
theorem IsNamed.restrict (named : tree.IsNamed) (keep : Location → Bool) :
    (tree.restrict keep).IsNamed := by
  intro place found stands
  rw [find?_restrict] at stands
  split at stands
  · rename_i root
    simp [root]
  · split at stands
    · exact named place found stands
    · cases stands

/-- A tree is closed if its entries stand in directories. -/
theorem isClosed_of_entries (closed : ∀ item ∈ tree.entries,
    (tree.find? item.1.dropLast).any (fun entry => !entry.isFile) = true) : tree.IsClosed := by
  intro location name entry stands
  have within := closed _ ((find?_eq_some (by simp)).mp stands)
  rw [List.dropLast_concat] at within
  cases above : tree.find? location with
  | none =>
    rw [above] at within
    cases within
  | some found =>
    rw [above] at within
    cases found with
    | file content => cases within
    | directory => rfl

/-- What leads to an entry of a closed tree is a directory. -/
theorem IsClosed.directory_of_below (closed : tree.IsClosed) {names : List String}
    (below : names ≠ []) (stands : tree.find? (location ++ names) = some entry) :
    tree.find? location = some .directory := by
  induction names using List.reverseRecOn generalizing entry with
  | nil => exact absurd rfl below
  | append_singleton names name ih =>
    rw [← List.append_assoc] at stands
    have parent := closed _ _ _ stands
    by_cases last : names = []
    · simpa [last] using parent
    · exact ih last parent

end FileTree

end PageBuild
