import Mathlib.Data.List.Forall2
import PageBuild.Build.Compile
import PageBuild.Proofs.Action

/-!
# Which schemas have a plan

A schema has a plan exactly when its pages and trees fit together (`Plan.Accepts`), and the plan then
holds the source of each page that the mode generates. Any other schema has a first flaw
(`Plan.FirstFlaw`), which is the one reported.
-/
namespace PageBuild

namespace Schema

variable {schema : Schema} {id : String} {tree : Component}

/-- Whether a tree is the first one with an id. -/
def IsTreeOf (schema : Schema) (id : String) (tree : Component) : Prop :=
  ∃ before after, schema.trees = before ++ tree :: after ∧ tree.id = some id ∧
    ∀ other ∈ before, other.id ≠ some id

/-- The tree that is found is the first one with the id. -/
theorem findTree?_eq_some : schema.findTree? id = some tree ↔ schema.IsTreeOf id tree := by
  rw [findTree?, List.find?_eq_some_iff_append, IsTreeOf]
  simp only [beq_iff_eq, Bool.not_eq_eq_eq_not, Bool.not_true, beq_eq_false_iff_ne]
  constructor
  · rintro ⟨same, before, after, trees, others⟩
    exact ⟨before, after, trees, same, others⟩
  · rintro ⟨before, after, trees, same, others⟩
    exact ⟨same, before, after, trees, others⟩

/-- No tree is found if none has the id. -/
theorem findTree?_eq_none : schema.findTree? id = none ↔ ∀ tree ∈ schema.trees, tree.id ≠ some id := by
  simp [findTree?]

/-- Whether a page shows the children of its tree, of which there are some. -/
def Shows (schema : Schema) (page : Page) (children : List Node) : Prop :=
  ∃ tree, schema.IsTreeOf page.treeId tree ∧ tree.children = some children ∧ children ≠ []

end Schema

namespace Plan

variable {schema : Schema} {mode : Mode} {environment : Environment} {isPreview : Bool} {plan : Plan}
  {flaw : SchemaFlaw} {page : Page} {pages : List Page} {source : String × PageSource}
  {sources : List (String × PageSource)}

/-! ## Acceptance -/

/-- Whether a schema passes the checks that do not depend on the mode. -/
structure Admits (schema : Schema) : Prop where
  pages : schema.pages ≠ []
  trees : schema.trees ≠ []
  ids : ∀ page ∈ schema.pages, Text.isPlainName page.id = true
  version : schema.app.version = "" ∨ Text.isPlainName schema.app.version = true

/-- Whether the pages and trees of a schema fit together in a mode. -/
structure Accepts (schema : Schema) (mode : Mode) : Prop extends Admits schema where
  shown : ∀ page ∈ selected mode schema.pages, ∃ children, schema.Shows page children

/-- The first flaw of a schema in the order of the checks and, among the pages, in the order of their
declaration. -/
inductive FirstFlaw (schema : Schema) (mode : Mode) : SchemaFlaw → Prop
  | noPages (none : schema.pages = []) : FirstFlaw schema mode .noPages
  | noTrees (pages : schema.pages ≠ []) (none : schema.trees = []) : FirstFlaw schema mode .noTrees
  | pageId {before after : List Page} {page : Page} (trees : schema.trees ≠ [])
      (pages : schema.pages = before ++ page :: after)
      (plain : ∀ other ∈ before, Text.isPlainName other.id = true)
      (bad : Text.isPlainName page.id = false) :
    FirstFlaw schema mode (.pageId page.id)
  | appVersion (pages : schema.pages ≠ []) (trees : schema.trees ≠ [])
      (ids : ∀ page ∈ schema.pages, Text.isPlainName page.id = true)
      (filled : schema.app.version ≠ "") (bad : Text.isPlainName schema.app.version = false) :
    FirstFlaw schema mode (.appVersion schema.app.version)
  | missingTree {before after : List Page} {page : Page} (admits : Admits schema)
      (pages : selected mode schema.pages = before ++ page :: after)
      (shown : ∀ other ∈ before, ∃ children, schema.Shows other children)
      (missing : ∀ tree ∈ schema.trees, tree.id ≠ some page.treeId) :
    FirstFlaw schema mode (.missingTree page.id page.treeId)
  | emptyTree {before after : List Page} {page : Page} {tree : Component} (admits : Admits schema)
      (pages : selected mode schema.pages = before ++ page :: after)
      (shown : ∀ other ∈ before, ∃ children, schema.Shows other children)
      (found : schema.IsTreeOf page.treeId tree)
      (empty : ∀ children, tree.children = some children → children = []) :
    FirstFlaw schema mode (.emptyTree page.id page.treeId)

/-- The pages that a mode generates are pages. -/
theorem mem_of_selected (member : page ∈ selected mode pages) : page ∈ pages := by
  cases mode with
  | standard => exact member
  | simple => exact List.mem_of_mem_take member

/-! ## Sources of pages -/

/-- Whether a source is that of a page of a schema, with the id of the page. -/
def IsSource (schema : Schema) (page : Page) (source : String × PageSource) : Prop :=
  ∃ children, schema.Shows page children ∧
    source = (page.id, PageSource.ofNodes children (ComponentIndex.ofEntries schema.entries))

/-- A tree has no children if it declares none or an empty list of them. -/
theorem childList_eq_nil {tree : Component} :
    tree.childList = [] ↔ ∀ children, tree.children = some children → children = [] := by
  rw [Component.childList]
  cases tree.children <;> simp

/-- A page has a source if its tree has children. -/
theorem pageSource_eq_ok :
    pageSource schema (ComponentIndex.ofEntries schema.entries) page = .ok source ↔
      IsSource schema page source := by
  rw [pageSource]
  constructor
  · intro made
    split at made
    · cases made
    · rename_i tree found
      split at made
      · cases made
      · rename_i filled
        cases made
        rw [List.isEmpty_iff, Component.childList] at filled
        obtain ⟨children, declared⟩ : ∃ children, tree.children = some children := by
          cases declared : tree.children with
          | none => simp [declared] at filled
          | some children => exact ⟨children, rfl⟩
        rw [declared] at filled
        refine ⟨children, ⟨tree, Schema.findTree?_eq_some.mp found, declared, filled⟩, ?_⟩
        rw [Component.childList, declared, Option.getD_some]
  · rintro ⟨children, ⟨tree, found, declared, filled⟩, rfl⟩
    rw [Schema.findTree?_eq_some.mpr found]
    simp [Component.childList, declared, filled]

/-- A page has no source if its tree is missing or has no children. -/
theorem pageSource_eq_error {index : ComponentIndex} :
    pageSource schema index page = .error flaw ↔
      ((∀ tree ∈ schema.trees, tree.id ≠ some page.treeId) ∧
        flaw = .missingTree page.id page.treeId) ∨
      ((∃ tree, schema.IsTreeOf page.treeId tree ∧
          ∀ children, tree.children = some children → children = []) ∧
        flaw = .emptyTree page.id page.treeId) := by
  rw [pageSource, ← Schema.findTree?_eq_none]
  simp only [← Schema.findTree?_eq_some, ← childList_eq_nil]
  cases found : schema.findTree? page.treeId with
  | none => simp [eq_comm (b := flaw)]
  | some tree => by_cases empty : tree.childList = [] <;> simp [empty, eq_comm (b := flaw)]

/-- Pages have sources if each of them has one. -/
theorem pageSources_eq_ok :
    pageSources schema (ComponentIndex.ofEntries schema.entries) pages = .ok sources ↔
      List.Forall₂ (IsSource schema) pages sources := by
  induction pages generalizing sources with
  | nil => simp [pageSources, eq_comm]
  | cons page rest ih =>
    rw [pageSources]
    constructor
    · intro made
      split at made
      · cases made
      · rename_i source first
        split at made
        · cases made
        · rename_i others following
          cases made
          exact .cons (pageSource_eq_ok.mp first) (ih.mp following)
    · rintro (_ | ⟨first, others⟩)
      rw [pageSource_eq_ok.mpr first]
      dsimp only
      rw [ih.mpr others]

/-- The sources of pages have their ids. -/
theorem ids_eq (each : List.Forall₂ (IsSource schema) pages sources) :
    sources.map (·.1) = pages.map (·.id) := by
  induction each with
  | nil => rfl
  | cons first _ ih =>
    obtain ⟨children, -, rfl⟩ := first
    rw [List.map_cons, List.map_cons, ih]

/-- Pages have no sources if one has none, up to which all have one. -/
theorem pageSources_eq_error :
    pageSources schema (ComponentIndex.ofEntries schema.entries) pages = .error flaw ↔
      ∃ before page after, pages = before ++ page :: after ∧
        (∀ other ∈ before, ∃ children, schema.Shows other children) ∧
        pageSource schema (ComponentIndex.ofEntries schema.entries) page = .error flaw := by
  induction pages with
  | nil => simp [pageSources]
  | cons page rest ih =>
    rw [pageSources]
    constructor
    · intro failed
      split at failed
      · rename_i found missing
        cases failed
        exact ⟨[], page, rest, rfl, by simp, missing⟩
      · rename_i source made
        obtain ⟨children, shows, -⟩ := pageSource_eq_ok.mp made
        split at failed
        · rename_i found later
          cases failed
          obtain ⟨before, bad, after, rfl, shown, missing⟩ := ih.mp later
          exact ⟨page :: before, bad, after, rfl,
            List.forall_mem_cons.mpr ⟨⟨children, shows⟩, shown⟩, missing⟩
        · cases failed
    · rintro ⟨before, bad, after, split, shown, missing⟩
      cases before with
      | nil =>
        obtain ⟨rfl, rfl⟩ := List.cons.inj split
        rw [missing]
      | cons first before =>
        obtain ⟨rfl, rfl⟩ := List.cons.inj split
        obtain ⟨⟨children, shows⟩, others⟩ := List.forall_mem_cons.mp shown
        rw [pageSource_eq_ok.mpr ⟨children, shows, rfl⟩]
        dsimp only
        rw [ih.mpr ⟨before, bad, after, rfl, others, missing⟩]

/-! ## Plans -/

/-- A schema that passes the first checks has a plan if its pages have sources, and the flaw of its
pages otherwise. -/
theorem ofSchema_of_admits (admits : Admits schema) :
    ∃ first rest, schema.pages = first :: rest ∧
      ofSchema schema mode environment isPreview =
        (pageSources schema (ComponentIndex.ofEntries schema.entries)
          (selected mode schema.pages)).map fun sources =>
            ⟨mode, sources, contextOf schema mode environment isPreview first sources⟩ := by
  obtain ⟨first, rest, pages⟩ := List.exists_cons_of_ne_nil admits.pages
  have plain : (schema.pages.find? fun page => !Text.isPlainName page.id) = none := by
    simpa using admits.ids
  have version : ¬(schema.app.version ≠ "" ∧ (!Text.isPlainName schema.app.version) = true) := by
    rcases admits.version with empty | plain
    · simp [empty]
    · simp [plain]
  refine ⟨first, rest, pages, ?_⟩
  rw [pages] at plain
  rw [ofSchema, pages]
  simp only [List.isEmpty_iff, admits.trees, ↓reduceIte, plain, version]
  cases pageSources schema (ComponentIndex.ofEntries schema.entries)
    (selected mode (first :: rest)) <;> rfl

/-- A schema that has a plan passes the first checks, and its pages have sources. -/
theorem of_ofSchema_ok (planned : ofSchema schema mode environment isPreview = .ok plan) :
    Admits schema ∧ ∃ first rest sources, schema.pages = first :: rest ∧
      pageSources schema (ComponentIndex.ofEntries schema.entries) (selected mode schema.pages) =
        .ok sources ∧
      plan = ⟨mode, sources, contextOf schema mode environment isPreview first sources⟩ := by
  rw [ofSchema] at planned
  split at planned
  · cases planned
  · rename_i first rest pages
    split at planned
    · cases planned
    · rename_i trees
      split at planned
      · cases planned
      · rename_i plain
        split at planned
        · cases planned
        · rename_i version
          split at planned
          · cases planned
          · rename_i sources made
            cases planned
            refine ⟨⟨by simp [pages], by simpa using trees, by simpa using plain, ?_⟩, first, rest,
              sources, pages, made, rfl⟩
            simpa [or_iff_not_imp_left] using version

/-- The flaw that is reported is the first one. -/
theorem firstFlaw_of_ofSchema (refused : ofSchema schema mode environment isPreview = .error flaw) :
    FirstFlaw schema mode flaw := by
  rw [ofSchema] at refused
  split at refused
  · rename_i pages
    cases refused
    exact .noPages pages
  · rename_i first rest pages
    have filled : schema.pages ≠ [] := by simp [pages]
    split at refused
    · rename_i trees
      cases refused
      exact .noTrees filled (by simpa using trees)
    · rename_i trees
      have trees : schema.trees ≠ [] := by simpa using trees
      split at refused
      · rename_i page found
        cases refused
        obtain ⟨bad, before, after, split, plain⟩ := List.find?_eq_some_iff_append.mp found
        exact .pageId trees split (by simpa using plain) (by simpa using bad)
      · rename_i plain
        have plain : ∀ page ∈ schema.pages, Text.isPlainName page.id = true := by simpa using plain
        split at refused
        · rename_i version
          cases refused
          exact .appVersion filled trees plain version.1 (by simpa using version.2)
        · rename_i version
          have admits : Admits schema :=
            ⟨filled, trees, plain, by simpa [or_iff_not_imp_left] using version⟩
          split at refused
          · rename_i found failed
            cases refused
            obtain ⟨before, page, after, split, shown, none⟩ := pageSources_eq_error.mp failed
            rcases pageSource_eq_error.mp none with ⟨missing, rfl⟩ | ⟨⟨tree, found, empty⟩, rfl⟩
            · exact .missingTree admits split shown missing
            · exact .emptyTree admits split shown found empty
          · cases refused

/-- The first flaw is reported. -/
theorem FirstFlaw.ofSchema_eq (first : FirstFlaw schema mode flaw) :
    ofSchema schema mode environment isPreview = .error flaw := by
  cases first with
  | noPages none => rw [ofSchema, none]
  | noTrees pages none =>
    obtain ⟨first, rest, found⟩ := List.exists_cons_of_ne_nil pages
    rw [ofSchema, found]
    simp [none]
  | @pageId before after page trees pages plain bad =>
    have found : (schema.pages.find? fun page => !Text.isPlainName page.id) = some page :=
      List.find?_eq_some_iff_append.mpr ⟨by simp [bad], before, after, pages, by simpa using plain⟩
    obtain ⟨first, rest, split⟩ : ∃ first rest, schema.pages = first :: rest :=
      List.exists_cons_of_ne_nil (by simp [pages])
    rw [split] at found
    rw [ofSchema, split]
    simp only [List.isEmpty_iff, trees, ↓reduceIte, found]
  | appVersion pages trees ids filled bad =>
    have plain : (schema.pages.find? fun page => !Text.isPlainName page.id) = none := by
      simpa using ids
    obtain ⟨first, rest, split⟩ := List.exists_cons_of_ne_nil pages
    rw [split] at plain
    rw [ofSchema, split]
    simp [trees, plain, filled, bad]
  | @missingTree before after page admits pages shown missing =>
    obtain ⟨first, rest, -, planned⟩ := ofSchema_of_admits admits
    rw [planned, pageSources_eq_error.mpr
      ⟨before, page, after, pages, shown, pageSource_eq_error.mpr (.inl ⟨missing, rfl⟩)⟩]
    rfl
  | @emptyTree before after page tree admits pages shown found empty =>
    obtain ⟨first, rest, -, planned⟩ := ofSchema_of_admits admits
    rw [planned, pageSources_eq_error.mpr
      ⟨before, page, after, pages, shown, pageSource_eq_error.mpr (.inr ⟨⟨tree, found, empty⟩, rfl⟩)⟩]
    rfl

/-! ## What a plan holds -/

/-- Whether a plan is what a schema asks for in a mode: the source of each page that the mode
generates in the order of the pages, the settings of the tree of the first page, and the declared
routes or one from the empty path to the first page. -/
structure Fits (schema : Schema) (mode : Mode) (plan : Plan) : Prop where
  mode_eq : plan.mode = mode
  pages : List.Forall₂ (IsSource schema) (selected mode schema.pages) plan.pages
  pageConfig : ∀ first tree, schema.pages.head? = some first → schema.IsTreeOf first.treeId tree →
    plan.context.pageConfig = tree.pageConfig.getD (.object [])
  declared : ∀ router routes, schema.router = some router → router.routes = some routes →
    plan.context.routes = routes.map fun route => ⟨route.path, route.page, "./pages/" ++ route.page⟩
  undeclared : (∀ router, schema.router = some router → router.routes = none) →
    ∀ first, schema.pages.head? = some first →
      plan.context.routes = [⟨"", first.id, "./pages/" ++ first.id⟩]

/-- A plan is what its schema asks for. -/
theorem fits_of_ofSchema (planned : ofSchema schema mode environment isPreview = .ok plan) :
    Fits schema mode plan := by
  obtain ⟨-, first, rest, sources, pages, made, rfl⟩ := of_ofSchema_ok planned
  refine ⟨rfl, pageSources_eq_ok.mp made, ?_, ?_, ?_⟩
  · intro page tree head found
    obtain rfl : first = page := by simpa [pages] using head
    rw [← Schema.findTree?_eq_some] at found
    change Plan.pageConfig schema first = _
    rw [Plan.pageConfig, found, Option.bind_some]
  · intro router routes table listed
    change schema.resolvedRoutes = _
    rw [Schema.resolvedRoutes, Schema.declaredRoutes?, table, Option.bind_some, listed]
    rfl
  · intro undeclared page head
    obtain rfl : first = page := by simpa [pages] using head
    have none : schema.declaredRoutes? = none := by
      rw [Schema.declaredRoutes?]
      cases table : schema.router with
      | none => rfl
      | some router => exact undeclared router table
    change schema.resolvedRoutes = _
    rw [Schema.resolvedRoutes, none, pages]
    rfl

/-- A schema whose pages and trees fit together has a plan. -/
theorem exists_ofSchema (accepts : Accepts schema mode) :
    ∃ plan, ofSchema schema mode environment isPreview = .ok plan := by
  have sources : ∃ sources, List.Forall₂ (IsSource schema) (selected mode schema.pages) sources := by
    have shown := accepts.shown
    generalize selected mode schema.pages = pages at shown
    induction pages with
    | nil => exact ⟨[], .nil⟩
    | cons page rest ih =>
      obtain ⟨⟨children, shows⟩, others⟩ := List.forall_mem_cons.mp shown
      obtain ⟨sources, following⟩ := ih others
      exact ⟨_ :: sources, .cons ⟨children, shows, rfl⟩ following⟩
  obtain ⟨sources, each⟩ := sources
  obtain ⟨first, rest, -, planned⟩ := ofSchema_of_admits accepts.toAdmits
  rw [pageSources_eq_ok.mpr each] at planned
  exact ⟨_, planned⟩

/-- A schema that has a plan has pages and trees that fit together. -/
theorem accepts_of_ofSchema (planned : ofSchema schema mode environment isPreview = .ok plan) :
    Accepts schema mode := by
  obtain ⟨admits, first, rest, sources, -, made, -⟩ := of_ofSchema_ok planned
  refine ⟨admits, fun page member => ?_⟩
  have each := pageSources_eq_ok.mp made
  clear made
  generalize selected mode schema.pages = pages at each member
  induction each with
  | nil => cases member
  | cons shows _ ih =>
    rcases List.mem_cons.mp member with rfl | later
    · obtain ⟨children, shows, -⟩ := shows
      exact ⟨children, shows⟩
    · exact ih later

/-- A schema has a plan exactly if its pages and trees fit together, and the plan is then what the
schema asks for. Otherwise its first flaw is reported, and a compilation fails with the words for
it. -/
theorem ofSchema_decides {σ : Type} (schema : Schema) (mode : Mode) (environment : Environment)
    (isPreview : Bool) :
    ((∃ plan, ofSchema schema mode environment isPreview = .ok plan) ↔ Accepts schema mode) ∧
    (∀ plan, ofSchema schema mode environment isPreview = .ok plan → Fits schema mode plan) ∧
    ∀ flaw, (ofSchema schema mode environment isPreview = .error flaw ↔
        FirstFlaw schema mode flaw) ∧
      (FirstFlaw schema mode flaw → ∀ (fill : Filler) (root : Path) (host : Host σ),
        Compile.mode host.files root = mode →
          ((Compile.run fill schema root environment isPreview).run host).1 =
            .error (.validation flaw.message)) := by
  refine ⟨⟨fun ⟨plan, planned⟩ => accepts_of_ofSchema planned, exists_ofSchema⟩,
    fun plan => fits_of_ofSchema, fun flaw => ⟨⟨firstFlaw_of_ofSchema, FirstFlaw.ofSchema_eq⟩, ?_⟩⟩
  intro first fill root host inMode
  rw [Compile.run, Action.run_get_bind]
  dsimp only
  have narrated : ∃ after, (HostM.info (Compile.modeText (Compile.mode host.files root))).run host =
      (.ok (), after) := ⟨_, rfl⟩
  obtain ⟨after, narrated⟩ := narrated
  rw [Action.run_bind_of_ok narrated, inMode, first.ofSchema_eq]
  rfl

/-- A schema with one tree, to which only the first of its two pages refers. -/
def halfSchema : Schema where
  version := "1"
  entries := []
  trees := [⟨some "x", "Page", none, some [.text "hi"], none⟩]
  pages := [⟨"a", "x"⟩, ⟨"b", "y"⟩]
  router := none
  app := ⟨none, "", "", []⟩

/-- The second page is refused where each page is generated, and not where only the first is. -/
theorem ofSchema_decides_second :
    FirstFlaw halfSchema .standard (.missingTree "b" "y") ∧ Accepts halfSchema .simple :=
  ⟨((@ofSchema_decides Unit halfSchema .standard .fat false).2.2 _).1.mp rfl,
    (@ofSchema_decides Unit halfSchema .simple .fat false).1.mp ⟨_, rfl⟩⟩

end Plan

end PageBuild
