import PageBuild.Distinct
import PageBuild.Schema.Basic

/-!
# Component index

The entries that component names stand for: of all entries with one name the first, and none for
the empty name. The index keeps these entries in order, and beside them the place of each name's
entry. The packages of the index, each once with the version met first, are the dependencies of the
generated application.
-/
namespace PageBuild

/-- A package that the application depends on. -/
structure PackageDependency where
  package : String
  version : String
  deriving DecidableEq, Repr

/-- The entries that names stand for. -/
structure ComponentIndex where
  /-- The entries that are kept, in order. -/
  entries : List ComponentEntry
  /-- The names, each with the place of its entry. -/
  places : List (String × Nat)
  deriving Repr

namespace ComponentIndex

/-- The index of no entries. -/
def empty : ComponentIndex := ⟨[], []⟩

/-- The place of a name's entry. -/
def place? (index : ComponentIndex) (name : String) : Option Nat := index.places.lookup name

/-- The index with one more entry, unless this has no name or its name has an entry already. -/
def register (index : ComponentIndex) (entry : ComponentEntry) : ComponentIndex :=
  if entry.name = "" then index
  else if (index.place? entry.name).isSome then index
  else ⟨index.entries ++ [entry], index.places ++ [(entry.name, index.entries.length)]⟩

/-- The index of a list of entries. -/
def ofEntries (entries : List ComponentEntry) : ComponentIndex := entries.foldl register empty

/-- The entry of a component name: the one at its place. -/
def find? (index : ComponentIndex) (name : String) : Option ComponentEntry :=
  (index.place? name).bind fun place => index.entries[place]?

/-- The number of names that have an entry. -/
def size (index : ComponentIndex) : Nat := index.entries.length

/-- Whether no name has an entry. -/
def isEmpty (index : ComponentIndex) : Bool := index.entries.isEmpty

/-- The packages of the entries, each once. -/
def packages (index : ComponentIndex) : List PackageDependency :=
  (distinctBy (·.package) index.entries).map fun entry => ⟨entry.package, entry.version⟩

end ComponentIndex

end PageBuild
