import PageBuild.Proofs.Component.Index
import PageBuild.Proofs.Page.Plan

/-!
# Imports and dependencies

Every import of a page comes from an entry that the index keeps, so the manifest of the application
lists its package. The imports for side effects are gathered from all entries, also from those that
the index drops; the package of one is listed exactly if some entry that is kept has it
(`Plan.imports_listed`).
-/
namespace PageBuild

/-- Whether a statement imports a module: for its side effects, with its default export bound or with
one of its exports bound by name. -/
inductive Imports : String → String → Prop
  | forEffect (module_ : String) : Imports ("import '" ++ module_ ++ "'") module_
  | asDefault (binding module_ : String) :
    Imports ("import " ++ binding ++ " from '" ++ module_ ++ "'") module_
  | byName (binding module_ : String) :
    Imports ("import \x7b " ++ binding ++ " \x7d from '" ++ module_ ++ "'") module_

/-- The import statement of a component imports its module. -/
theorem ComponentEntry.imports_importStatement (entry : ComponentEntry) :
    Imports entry.importStatement entry.modulePath := by
  rw [importStatement]
  cases entry.exportName with
  | none => exact .forEffect _
  | some binding =>
    dsimp only
    split_ifs
    · exact .forEffect _
    · exact .byName _ _
    · exact .asDefault _ _

/-! ## Entries that are kept -/

namespace Schema

variable {schema : Schema} {entry : ComponentEntry}

/-- Whether an entry is the first one of its name, which is not empty. -/
def Keeps (schema : Schema) (entry : ComponentEntry) : Prop :=
  entry.name ≠ "" ∧ ∃ before after, schema.entries = before ++ entry :: after ∧
    ∀ other ∈ before, other.name ≠ entry.name

/-- The index holds the entries that are kept. -/
theorem mem_entries_ofEntries :
    entry ∈ (ComponentIndex.ofEntries schema.entries).entries ↔ schema.Keeps entry := by
  rw [ComponentIndex.entries_ofEntries, mem_distinctBy, Keeps]
  constructor
  · rintro ⟨before, after, split, others⟩
    obtain ⟨front, back, entries, rfl, found⟩ := List.filter_eq_append_iff.mp split
    obtain ⟨skipped, rest, rfl, unnamed, named, rfl⟩ := List.filter_eq_cons_iff.mp found
    have named : entry.name ≠ "" := by simpa using named
    refine ⟨named, front ++ skipped, rest, by simp [entries], fun other member => ?_⟩
    rcases List.mem_append.mp member with early | late
    · by_cases empty : other.name = ""
      · exact fun same => named (same ▸ empty)
      · exact others other (List.mem_filter.mpr ⟨early, by simpa using empty⟩)
    · have empty : other.name = "" := by simpa using unnamed other late
      exact fun same => named (same ▸ empty)
  · rintro ⟨named, before, after, split, others⟩
    refine ⟨before.filter (·.name ≠ ""), after.filter (·.name ≠ ""), ?_, fun other member => ?_⟩
    · simp [split, List.filter_append, named]
    · exact others other (List.mem_of_mem_filter member)

/-- A package is listed exactly if an entry that is kept has it. -/
theorem mem_packages {package : String} :
    package ∈ (ComponentIndex.ofEntries schema.entries).packages.map (·.package) ↔
      ∃ entry, schema.Keeps entry ∧ entry.package = package := by
  rw [ComponentIndex.mem_packages]
  simp only [mem_entries_ofEntries]

end Schema

/-! ## Imports of a plan -/

namespace Plan

variable {schema : Schema} {mode : Mode} {environment : Environment} {isPreview : Bool} {plan : Plan}

/-- Every source among those of pages is the source of one of them. -/
theorem exists_isSource {pages : List Page} {sources : List (String × PageSource)}
    (each : List.Forall₂ (IsSource schema) pages sources) {source : String × PageSource}
    (member : source ∈ sources) : ∃ page ∈ pages, IsSource schema page source := by
  induction each with
  | nil => cases member
  | @cons page _ _ _ first _ ih =>
    rcases List.mem_cons.mp member with rfl | later
    · exact ⟨page, List.mem_cons_self, first⟩
    · obtain ⟨page, listed, is⟩ := ih later
      exact ⟨page, List.mem_cons_of_mem _ listed, is⟩

/-- The imports of a page come from entries that are kept. -/
theorem keeps_of_mem_imports {nodes : List Node} {statement : String}
    (member : statement ∈
      (PageSource.ofNodes nodes (ComponentIndex.ofEntries schema.entries)).imports) :
    ∃ entry, schema.Keeps entry ∧ statement = entry.importStatement := by
  rw [PageSource.ofNodes, mem_distinct, List.mem_filterMap] at member
  obtain ⟨name, -, imported⟩ := member
  obtain ⟨entry, found, rfl⟩ := Option.map_eq_some_iff.mp imported
  rw [(ComponentIndex.isSound_ofEntries schema.entries).find?_eq] at found
  have held := List.mem_of_find?_eq_some found
  exact ⟨entry, Schema.mem_entries_ofEntries.mp held, rfl⟩

/-- In every plan, each import of a page imports the module of an entry that is kept, whose package
the dependencies list. Each import for side effects imports a path inside the package of some entry,
and the dependencies list that package exactly if an entry that is kept has it. -/
theorem imports_listed (schema : Schema) (mode : Mode) (environment : Environment) (isPreview : Bool)
    (plan : Plan) (planned : ofSchema schema mode environment isPreview = .ok plan) :
    (∀ source ∈ plan.pages, ∀ statement ∈ source.2.imports, ∃ entry, schema.Keeps entry ∧
      statement = entry.importStatement ∧
      Imports statement (entry.package ++ entry.path.getD "") ∧
      entry.package ∈ plan.context.dependencies.map (·.package)) ∧
    (∀ statement ∈ plan.context.sideImports,
      ∃ entry ∈ schema.entries, ∃ side ∈ entry.sideImports,
        Imports statement (entry.package ++ side.path.getD "") ∧
        (entry.package ∈ plan.context.dependencies.map (·.package) ↔
          ∃ kept, schema.Keeps kept ∧ kept.package = entry.package)) ∧
    ∀ entry, schema.Keeps entry → ∀ side ∈ entry.sideImports,
      sideEffectStatement (entry.sideModule side) ∈ plan.context.sideImports ∧
      entry.package ∈ plan.context.dependencies.map (·.package) := by
  obtain ⟨-, first, rest, sources, -, made, rfl⟩ := of_ofSchema_ok planned
  have each := pageSources_eq_ok.mp made
  refine ⟨fun source member statement imported => ?_, fun statement imported => ?_,
    fun entry kept side listed => ⟨?_, Schema.mem_packages.mpr ⟨entry, kept, rfl⟩⟩⟩
  · obtain ⟨page, -, children, -, rfl⟩ := exists_isSource each member
    obtain ⟨entry, kept, rfl⟩ := keeps_of_mem_imports imported
    exact ⟨entry, kept, rfl, entry.imports_importStatement,
      Schema.mem_packages.mpr ⟨entry, kept, rfl⟩⟩
  · obtain ⟨entry, member, side, listed, rfl⟩ := mem_sideStatements.mp imported
    exact ⟨entry, member, side, listed, .forEffect _, Schema.mem_packages⟩
  · obtain ⟨-, before, after, split, -⟩ := kept
    exact mem_sideStatements.mpr ⟨entry, by simp [split], side, listed, rfl⟩

/-- A schema of one page with a button, whose entry stands between one without a name and a second
one for the button. -/
def buttonSchema : Schema where
  version := "1"
  entries :=
    [⟨"", "reset", "1", false, none, none, [⟨some "/reset.css"⟩]⟩,
      ⟨"Button", "ui", "1", true, some "Button", some "/button.js", [⟨some "/button.css"⟩]⟩,
      ⟨"Button", "other", "1", false, none, none, []⟩]
  trees := [⟨some "x", "Page", none, some [.component ⟨none, "Button", none, none, none⟩], none⟩]
  pages := [⟨"a", "x"⟩]
  router := none
  app := ⟨none, "", "", []⟩

/-- The module of the button is imported, and its package is listed. -/
theorem imports_listed_button :
    ∃ plan, ofSchema buttonSchema .standard .fat false = .ok plan ∧
      (∃ source ∈ plan.pages, source.2.imports = ["import \x7b Button \x7d from 'ui/button.js'"]) ∧
      ∀ source ∈ plan.pages, ∀ statement ∈ source.2.imports, ∃ entry, buttonSchema.Keeps entry ∧
        statement = entry.importStatement ∧
        Imports statement (entry.package ++ entry.path.getD "") ∧
        entry.package ∈ plan.context.dependencies.map (·.package) :=
  ⟨_, rfl, ⟨_, List.mem_cons_self, by decide +kernel⟩,
    (imports_listed buttonSchema .standard .fat false _ rfl).1⟩

/-- The entry without a name brings an import for side effects, of whose package the dependencies
list nothing. -/
theorem side_import_unlisted :
    ∃ plan, ofSchema { buttonSchema with entries := buttonSchema.entries.take 1 } .standard .fat
        false = .ok plan ∧
      ∃ statement ∈ plan.context.sideImports, Imports statement "reset/reset.css" ∧
        ¬∃ package ∈ plan.context.dependencies.map (·.package), ∃ path,
          Imports statement (package ++ path) := by
  refine ⟨_, rfl, _, List.mem_cons_self, .forEffect _, ?_⟩
  rintro ⟨package, listed, -⟩
  have none : (ComponentIndex.ofEntries (buttonSchema.entries.take 1)).packages = [] := by
    decide +kernel
  have listed : package ∈ (ComponentIndex.ofEntries
      (buttonSchema.entries.take 1)).packages.map (·.package) := listed
  rw [none] at listed
  cases listed

end Plan

end PageBuild
