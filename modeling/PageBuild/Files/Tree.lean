/-!
# File trees

The files and directories of a machine, each at a location: the names on the way down from the
root. Entries are kept in the order of their locations, name by name, so the entries below a
directory follow it in the order of a depth-first walk with sorted names. The laws say what each
change does to what is found at a location.
-/
namespace PageBuild

/-- The names on the way from the root. -/
abbrev Location := List String

/-- What stands at a location. -/
inductive Entry where
  | file (content : ByteArray)
  | directory

/-- Whether one location comes before another. -/
def Location.before (a b : Location) : Prop := compare a b = .lt

/-- The entries of a machine, apart from its root directory. -/
structure FileTree where
  entries : List (Location × Entry)
  /-- Each location stands once, and in order. -/
  sorted : entries.Pairwise fun a b => Location.before a.1 b.1

namespace FileTree

/-- The tree of the root directory alone. -/
def empty : FileTree := ⟨[], .nil⟩

instance : Inhabited FileTree := ⟨empty⟩

/-- What stands at a location; the root is always a directory. -/
def find? (tree : FileTree) (location : Location) : Option Entry :=
  if location = [] then some .directory else tree.entries.lookup location

/-- Put an entry into its place, in exchange for one that stands there. -/
def place (location : Location) (entry : Entry) :
    List (Location × Entry) → List (Location × Entry)
  | [] => [(location, entry)]
  | found :: rest =>
    match compare location found.1 with
    | .lt => (location, entry) :: found :: rest
    | .eq => (location, entry) :: rest
    | .gt => found :: place location entry rest

/-- The locations after a placement are those before it and the one placed. -/
theorem mem_place {location : Location} {entry : Entry} {entries : List (Location × Entry)}
    {item : Location × Entry} (member : item ∈ place location entry entries) :
    item = (location, entry) ∨ item ∈ entries := by
  induction entries with
  | nil => simpa [place] using member
  | cons found rest ih =>
    simp only [place] at member
    split at member
    · simpa using member
    · rcases List.mem_cons.1 member with rfl | member
      · exact .inl rfl
      · exact .inr (List.mem_cons_of_mem _ member)
    · rcases List.mem_cons.1 member with rfl | member
      · exact .inr List.mem_cons_self
      · rcases ih member with rfl | member
        · exact .inl rfl
        · exact .inr (List.mem_cons_of_mem _ member)

/-- A placement keeps the order. -/
theorem sorted_place {location : Location} {entry : Entry} {entries : List (Location × Entry)}
    (sorted : entries.Pairwise fun a b => Location.before a.1 b.1) :
    (place location entry entries).Pairwise fun a b => Location.before a.1 b.1 := by
  induction entries with
  | nil => simp [place]
  | cons found rest ih =>
    obtain ⟨first, tail⟩ := List.pairwise_cons.1 sorted
    simp only [place]
    split
    · rename_i before
      refine List.pairwise_cons.2 ⟨fun item member => ?_, sorted⟩
      rcases List.mem_cons.1 member with rfl | member
      · exact before
      · exact Std.TransCmp.lt_trans before (first item member)
    · rename_i same
      refine List.pairwise_cons.2 ⟨fun item member => ?_, tail⟩
      rw [Std.LawfulEqCmp.eq_of_compare same]
      exact first item member
    · rename_i after
      refine List.pairwise_cons.2 ⟨fun item member => ?_, ih tail⟩
      rcases mem_place member with rfl | member
      · exact Std.OrientedCmp.lt_of_gt after
      · exact first item member

/-- The tree with an entry at a location. -/
def insert (tree : FileTree) (location : Location) (entry : Entry) : FileTree :=
  ⟨place location entry tree.entries, sorted_place tree.sorted⟩

/-- The tree with only the entries at some locations. -/
def restrict (tree : FileTree) (keep : Location → Bool) : FileTree :=
  ⟨tree.entries.filter fun item => keep item.1, tree.sorted.filter _⟩

/-- The tree without the entry at a location. -/
def erase (tree : FileTree) (location : Location) : FileTree :=
  tree.restrict fun found => found ≠ location

/-- The tree without the entry at a location and all below it. -/
def eraseBelow (tree : FileTree) (location : Location) : FileTree :=
  tree.restrict fun found => !location.isPrefixOf found

/-- The names on the way from one location down to another, when it lies below. -/
def namesBelow? : Location → Location → Option (List String)
  | [], names => some names
  | _ :: _, [] => none
  | name :: base, found :: names => if name = found then namesBelow? base names else none

/-- The entries below a location, in order, with the names on the way down to each. -/
def below (tree : FileTree) (location : Location) : List (List String × Entry) :=
  tree.entries.filterMap fun (found, entry) =>
    match namesBelow? location found with
    | some [] => none
    | some names => some (names, entry)
    | none => none

/-- The names in a directory, in order. -/
def children (tree : FileTree) (location : Location) : List String :=
  (tree.below location).filterMap fun (names, _) =>
    match names with
    | [name] => some name
    | _ => none

/-- What is found after a placement in a list. -/
theorem lookup_place (location : Location) (entry : Entry) (entries : List (Location × Entry))
    (sorted : entries.Pairwise fun a b => Location.before a.1 b.1) (other : Location) :
    (place location entry entries).lookup other =
      if other = location then some entry else entries.lookup other := by
  induction entries with
  | nil =>
    by_cases same : other = location
    · simp [place, same]
    · simp [place, List.lookup_cons, same, beq_eq_false_iff_ne.2 same]
  | cons found rest ih =>
    obtain ⟨foundLocation, foundEntry⟩ := found
    have tail := (List.pairwise_cons.1 sorted).2
    simp only [place]
    split
    · by_cases same : other = location
      · simp [same]
      · simp [List.lookup_cons, same, beq_eq_false_iff_ne.2 same]
    · rename_i equal
      have equal : location = foundLocation := Std.LawfulEqCmp.eq_of_compare equal
      subst equal
      by_cases same : other = location
      · simp [same]
      · simp [List.lookup_cons, same, beq_eq_false_iff_ne.2 same]
    · rename_i after
      have different : location ≠ foundLocation := by
        rintro rfl
        simp only [Std.ReflCmp.compare_self, reduceCtorEq] at after
      by_cases same : other = foundLocation
      · subst same
        simp [Ne.symm different]
      · simp only [List.lookup_cons, beq_eq_false_iff_ne.2 same]
        exact ih tail

/-- After an insertion the entry stands at its location, and all else as before. -/
theorem find?_insert (tree : FileTree) (location other : Location) (entry : Entry)
    (below : location ≠ []) :
    (tree.insert location entry).find? other =
      if other = location then some entry else tree.find? other := by
  unfold find? insert
  by_cases root : other = []
  · subst root
    simp [Ne.symm below]
  · simp only [root, ↓reduceIte]
    exact lookup_place location entry tree.entries tree.sorted other

/-- What is found in a list after a filter on locations. -/
theorem lookup_filter (keep : Location → Bool) (entries : List (Location × Entry))
    (location : Location) :
    (entries.filter fun item => keep item.1).lookup location =
      if keep location then entries.lookup location else none := by
  induction entries with
  | nil => simp
  | cons found rest ih =>
    obtain ⟨foundLocation, foundEntry⟩ := found
    by_cases same : location = foundLocation
    · subst same
      by_cases kept : keep location
      · simp [kept]
      · simp only [List.filter, kept, ih, Bool.false_eq_true, ↓reduceIte]
    · by_cases kept : keep foundLocation
      · simp only [List.filter, kept, List.lookup_cons, beq_eq_false_iff_ne.2 same, ih]
      · simp only [List.filter, kept, List.lookup_cons, beq_eq_false_iff_ne.2 same, ih]

/-- A restriction keeps what stands at the locations kept, and nothing else below the root. -/
theorem find?_restrict (tree : FileTree) (keep : Location → Bool) (location : Location) :
    (tree.restrict keep).find? location =
      if location = [] then some .directory
      else if keep location then tree.find? location else none := by
  unfold find? restrict
  by_cases root : location = []
  · simp [root]
  · simp only [root, ↓reduceIte]
    exact lookup_filter keep tree.entries location

end FileTree

end PageBuild
