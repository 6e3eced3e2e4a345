import PageBuild.Proofs.Build.Compile

/-!
# The two modes

Neither the checks of a schema nor the source of a page depends on the mode: a single document only
asks for fewer pages. So its flaw is also the first flaw of the modules (`FirstFlaw.standard`), it
shows the first page of their plan (`ofSchema_simple`), and a flaw that only the modules have is that
of a later page (`FirstFlaw.exists_later`).
-/
namespace PageBuild.Plan

variable {schema : Schema} {environment : Environment} {isPreview : Bool} {plan : Plan}
  {flaw : SchemaFlaw} {page : Page} {before after : List Page}

/-! ## Pages without a source -/

/-- Whether a flaw is that the tree of a page is missing or has no children. -/
inductive Unshown (schema : Schema) (page : Page) : SchemaFlaw → Prop
  | missingTree (missing : ∀ tree ∈ schema.trees, tree.id ≠ some page.treeId) :
    Unshown schema page (.missingTree page.id page.treeId)
  | emptyTree {tree : Component} (found : schema.IsTreeOf page.treeId tree)
      (empty : ∀ children, tree.children = some children → children = []) :
    Unshown schema page (.emptyTree page.id page.treeId)

/-- A page with such a flaw shows nothing. -/
theorem Unshown.not_shows {children : List Node} (unshown : Unshown schema page flaw) :
    ¬schema.Shows page children := by
  intro shows
  have refused : pageSource schema (ComponentIndex.ofEntries schema.entries) page = .error flaw := by
    apply pageSource_eq_error.mpr
    cases unshown with
    | missingTree missing => exact .inl ⟨missing, rfl⟩
    | emptyTree found empty => exact .inr ⟨⟨_, found, empty⟩, rfl⟩
  rw [pageSource_eq_ok.mpr ⟨children, shows, rfl⟩] at refused
  cases refused

/-! ## Flaws -/

/-- What stands among the pages of a single document stands there among all pages. -/
theorem split_of_selected (split : selected .simple schema.pages = before ++ page :: after) :
    selected .standard schema.pages = before ++ page :: (after ++ schema.pages.drop 1) :=
  calc schema.pages = selected .simple schema.pages ++ schema.pages.drop 1 :=
        (List.take_append_drop 1 schema.pages).symm
    _ = before ++ page :: (after ++ schema.pages.drop 1) := by
        rw [split, List.append_assoc, List.cons_append]

/-- The first flaw of a single document is the first flaw of the modules. -/
theorem FirstFlaw.standard (first : FirstFlaw schema .simple flaw) :
    FirstFlaw schema .standard flaw := by
  cases first with
  | noPages none => exact .noPages none
  | noTrees pages none => exact .noTrees pages none
  | pageId trees pages plain bad => exact .pageId trees pages plain bad
  | appVersion pages trees ids filled bad => exact .appVersion pages trees ids filled bad
  | missingTree admits pages shown missing =>
    exact .missingTree admits (split_of_selected pages) shown missing
  | emptyTree admits pages shown found empty =>
    exact .emptyTree admits (split_of_selected pages) shown found empty

/-- A page without a source is not the first one if a single document is accepted. -/
theorem exists_first_of_unshown (accepts : Accepts schema .simple)
    (pages : schema.pages = before ++ page :: after) (unshown : Unshown schema page flaw) :
    ∃ first earlier, before = first :: earlier := by
  cases before with
  | nil =>
    have member : page ∈ selected .simple schema.pages := by simp [selected, pages]
    obtain ⟨children, shows⟩ := accepts.shown page member
    exact absurd shows unshown.not_shows
  | cons first earlier => exact ⟨first, earlier, rfl⟩

/-- A flaw of the modules alone is that of a later page, before which all pages show something. -/
theorem FirstFlaw.exists_later (found : FirstFlaw schema .standard flaw)
    (accepts : Accepts schema .simple) :
    ∃ first earlier page after, schema.pages = first :: (earlier ++ page :: after) ∧
      (∀ other ∈ first :: earlier, ∃ children, schema.Shows other children) ∧
      Unshown schema page flaw := by
  have late : ∀ {before page after}, schema.pages = before ++ page :: after →
      (∀ other ∈ before, ∃ children, schema.Shows other children) → Unshown schema page flaw →
      ∃ first earlier page after, schema.pages = first :: (earlier ++ page :: after) ∧
        (∀ other ∈ first :: earlier, ∃ children, schema.Shows other children) ∧
        Unshown schema page flaw := by
    intro before page after pages shown unshown
    obtain ⟨first, earlier, rfl⟩ := exists_first_of_unshown accepts pages unshown
    exact ⟨first, earlier, page, after, pages, shown, unshown⟩
  cases found with
  | noPages none => exact absurd none accepts.pages
  | noTrees _ none => exact absurd none accepts.trees
  | @pageId _ _ page _ pages _ bad =>
    rw [accepts.ids page (by simp [pages])] at bad
    cases bad
  | appVersion _ _ _ filled bad =>
    rw [accepts.version.resolve_left filled] at bad
    cases bad
  | missingTree _ pages shown missing => exact late pages shown (.missingTree missing)
  | emptyTree _ pages shown found empty => exact late pages shown (.emptyTree found empty)

/-! ## Plans -/

/-- A single document shows the first page of the plan of the modules, in the same context but for
the imports and the markup of that page. -/
theorem ofSchema_simple (planned : ofSchema schema .standard environment isPreview = .ok plan) :
    ∃ first rest, plan.pages = first :: rest ∧
      ofSchema schema .simple environment isPreview =
        .ok ⟨.simple, [first],
          { plan.context with
            importContent := some first.2.importBlock
            componentsContent := some first.2.markup }⟩ := by
  obtain ⟨admits, page, others, sources, pages, made, rfl⟩ := of_ofSchema_ok planned
  have each := pageSources_eq_ok.mp made
  rw [selected, pages] at each
  obtain _ | @⟨_, source, _, rest, shows, _⟩ := each
  have alone : pageSources schema (ComponentIndex.ofEntries schema.entries)
      (selected .simple schema.pages) = .ok [source] := by
    rw [selected, pages]
    exact pageSources_eq_ok.mpr (.cons shows .nil)
  obtain ⟨first, following, same, planned⟩ :=
    @ofSchema_of_admits schema .simple environment isPreview admits
  obtain ⟨rfl, rfl⟩ := List.cons.inj (pages.symm.trans same)
  refine ⟨source, rest, rfl, ?_⟩
  rw [planned, alone]
  rfl

/-- The two modes agree on a schema. What refuses a single document refuses the modules; the plan of
the modules gives that of a single document, which shows its first page; and if only a single document
has a plan, then the modules are refused for a later page, whose tree is missing or has no children. -/
theorem modes_agree (schema : Schema) (environment : Environment) (isPreview : Bool) :
    (∀ flaw, ofSchema schema .simple environment isPreview = .error flaw →
      ofSchema schema .standard environment isPreview = .error flaw) ∧
    (∀ plan, ofSchema schema .standard environment isPreview = .ok plan →
      ∃ first rest, plan.pages = first :: rest ∧
        ofSchema schema .simple environment isPreview =
          .ok ⟨.simple, [first],
            { plan.context with
              importContent := some first.2.importBlock
              componentsContent := some first.2.markup }⟩) ∧
    ∀ plan flaw, ofSchema schema .simple environment isPreview = .ok plan →
      ofSchema schema .standard environment isPreview = .error flaw →
      (∃ first earlier page after, schema.pages = first :: (earlier ++ page :: after) ∧
        (∀ other ∈ first :: earlier, ∃ children, schema.Shows other children) ∧
        Unshown schema page flaw) ∧
      ∀ {σ : Type} (fill : Filler) (root : Path) (host : Host σ),
        Compile.mode host.files root = .standard →
        ((Compile.run fill schema root environment isPreview).run host).1 =
          .error (.validation flaw.message) := by
  refine ⟨fun flaw refused => (firstFlaw_of_ofSchema refused).standard.ofSchema_eq,
    fun plan => ofSchema_simple, fun plan flaw planned refused => ⟨?_, ?_⟩⟩
  · exact (firstFlaw_of_ofSchema refused).exists_later (accepts_of_ofSchema planned)
  · intro σ fill root host inMode
    rw [Compile.run_of_flaw (by rwa [inMode])]

/-- Three pairs of pages: a missing tree of the first, of none and of the second. -/
theorem modes_agree_pairs :
    ofSchema { halfSchema with pages := [⟨"b", "y"⟩, ⟨"a", "x"⟩] } .standard .fat false =
        .error (.missingTree "b" "y") ∧
      (∃ plan, ofSchema { halfSchema with pages := [⟨"a", "x"⟩, ⟨"b", "x"⟩] } .standard .fat false =
          .ok plan ∧
        ∃ first rest, plan.pages = first :: rest ∧
          ofSchema { halfSchema with pages := [⟨"a", "x"⟩, ⟨"b", "x"⟩] } .simple .fat false =
            .ok ⟨.simple, [first],
              { plan.context with
                importContent := some first.2.importBlock
                componentsContent := some first.2.markup }⟩) ∧
      ∃ first earlier page after, halfSchema.pages = first :: (earlier ++ page :: after) ∧
        (∀ other ∈ first :: earlier, ∃ children, halfSchema.Shows other children) ∧
        Unshown halfSchema page (.missingTree "b" "y") :=
  ⟨(modes_agree _ .fat false).1 _ rfl, ⟨_, rfl, (modes_agree _ .fat false).2.1 _ rfl⟩,
    ((modes_agree halfSchema .fat false).2.2 _ _ rfl rfl).1⟩

end PageBuild.Plan
