import PageBuild.Proofs.Json.Record
import PageBuild.Proofs.Schema.Node

/-!
# Schemas read back

What is written of a schema that was read is read as the same schema (`Schema.ofText_render`), so
writing it again gives the same text. Most parts of a schema are read back whatever they hold; the free
values in component trees and in the metadata are read back because reading settled them and kept
their depth (`Component.Settled`, `AppInfo.Settled`). Of the doubles among them it is asked that each
is read back from its own text.
-/
namespace PageBuild

open Json (Reads Form Fills Takes Exact object array string)

variable {α β : Type} {depth : Nat} {input rest : Json.Input}

/-! ## Parts that are always read back -/

section Fields

variable {name : String} {reader : Json.Reader β} {store : α → β → α} {fields : List (Json.Field α)}
  {r r' : α} {ms : Properties} {v : Json} {x : β} {found : Option β} {write : β → Json}

/-- A field that may be left out is given. -/
theorem fills_free (reads : Reads reader depth v x) (others : Fills depth fields (store r x) ms r') :
    Fills depth (.free name reader store :: fields) r ((name, v) :: ms) r' :=
  .fill (Json.reads_free reads) others

/-- A field that may not be left out is given. -/
theorem fills_needed (reads : Reads reader depth v x)
    (others : Fills depth fields (store r x) ms r') :
    Fills depth (.needed name reader store :: fields) r ((name, v) :: ms) r' :=
  .fill (Json.reads_needed reads) others

variable {store : α → Option β → α}

/-- A field is given unless it is absent. -/
theorem fills_optional
    (reads : ∀ x, found = some x → Reads reader depth (write x) x ∧ write x ≠ .null)
    (blank : store r none = r) (others : Fills depth fields (store r found) ms r') :
    Fills depth (.free name (Json.optional reader) store :: fields) r
      (optionalMember name (found.map write) ++ ms) r' := by
  cases found with
  | none =>
    rw [blank] at others
    exact .skip rfl others
  | some x =>
    obtain ⟨reads, filled⟩ := reads x rfl
    exact fills_free (Json.reads_optional reads filled) others

/-- An option is read back when null stands for absence. -/
theorem reads_orNull
    (reads : ∀ x, found = some x → Reads reader depth (write x) x ∧ write x ≠ .null) :
    Reads (Json.optional reader) depth (orNull (found.map write)) found := by
  cases found with
  | none => exact Json.reads_null
  | some x =>
    obtain ⟨reads, filled⟩ := reads x rfl
    exact Json.reads_optional reads filled

end Fields

/-- Optional strings are strings. -/
theorem reads_string (text : Option String) :
    ∀ x, text = some x → Reads Json.text depth (string x) x ∧ string x ≠ .null :=
  fun x _ => ⟨Json.reads_text x, nofun⟩

/-- A side import is read back. -/
theorem SideImport.reads (entry : SideImport) :
    Reads SideImport.form.reader (depth + 1) entry.toJson entry :=
  Form.reads_object (by decide) (fills_free (reads_orNull (reads_string entry.path)) .done)

/-- A component entry is read back. -/
theorem ComponentEntry.reads (entry : ComponentEntry) :
    Reads ComponentEntry.form.reader (depth + 3) entry.toJson entry := by
  refine Form.reads_object (by decide) ?_
  simp only [List.append_assoc, List.cons_append, List.nil_append]
  refine fills_free (Json.reads_text _) <| fills_free (Json.reads_text _) <|
    fills_free (Json.reads_text _) <| fills_free (Json.reads_boolean _) <|
    fills_optional (reads_string _) rfl <| fills_optional (reads_string _) rfl <|
    fills_free (Json.reads_nullable (Json.reads_sequence ?_) nofun) .done
  exact fun entry _ => entry.reads

/-- A page is read back. -/
theorem Page.reads (page : Page) : Reads Page.form.reader (depth + 1) page.toJson page :=
  Form.reads_object (by decide) <|
    fills_needed (Json.reads_text _) <| fills_needed (Json.reads_text _) .done

/-- A route is read back. -/
theorem Route.reads (route : Route) : Reads Route.form.reader (depth + 1) route.toJson route :=
  Form.reads_object (by decide) <|
    fills_free (Json.reads_text _) <| fills_needed (Json.reads_text _) .done

/-- A routing table is read back. -/
theorem Router.reads (router : Router) :
    Reads Router.form.reader (depth + 3) router.toJson router := by
  have routes : ∀ routes : List Route, router.routes = some routes →
      Reads (Json.sequence Route.form.reader) (depth + 2) (array (routes.map Route.toJson)) routes ∧
        array (routes.map Route.toJson) ≠ .null :=
    fun routes _ => ⟨Json.reads_sequence fun route _ => route.reads, nofun⟩
  exact Form.reads_object (by decide) (fills_free (reads_orNull routes) .done)

/-! ## Component trees -/

/-- Nodes that are described are read back as the children of a component. -/
theorem reads_children {nodes : List Node} (deep : (array (nodes.map Node.toJson)).depth ≤ depth)
    (described : ∀ node ∈ nodes, node.Described)
    (faithful : (array (nodes.map Node.toJson)).Exact) :
    Reads (Json.sequence Node.reader) depth (array (nodes.map Node.toJson)) nodes := by
  obtain ⟨depth, rfl⟩ : ∃ d, depth = d + 1 :=
    Nat.exists_eq_add_one_of_ne_zero (by rintro rfl; simp [Json.depth] at deep)
  rw [Json.depth_array_le, List.forall_mem_map] at deep
  rw [Json.exact_array, List.forall_mem_map] at faithful
  exact Json.reads_sequence fun node member =>
    (described node member).reads (deep node member) (faithful node member)

/-- A settled component is read back as the root of a tree. -/
theorem Component.Settled.reads {component : Component} (settled : component.Settled depth)
    (faithful : component.toJson.Exact) :
    Reads Component.form.reader (depth + 1) component.toJson component := by
  obtain ⟨id, name, properties, children, pageConfig⟩ := component
  obtain ⟨ofProperties, ofChildren, ofConfig⟩ := settled
  rw [Component.toJson_eq] at faithful ⊢
  obtain ⟨-, -, exactProperties, exactChildren, exactConfig⟩ :=
    forall_componentMembers.mp (Json.exact_object.mp faithful)
  have parts : componentMembers id name properties
        (children.map fun nodes => nodes.map Node.toJson) pageConfig =
      optionalMember "id" (id.map string) ++ ("componentName", string name) ::
        (optionalMember "props" (properties.map object) ++
          (optionalMember "children" (children.map fun nodes => array (nodes.map Node.toJson)) ++
            (optionalMember "pageConfig" (pageConfig.map fun v => v) ++ []))) := by
    simp [componentMembers, Function.comp_def]
  rw [parts]
  refine Form.reads_object (by decide) <|
    fills_optional (reads_string id) rfl <| fills_free (Json.reads_text _) <|
    fills_optional (fun ms is => ⟨?_, by simp⟩) rfl <|
    fills_optional (fun nodes is => ⟨?_, by simp⟩) rfl <|
    fills_optional (fun v is => ⟨?_, (ofConfig v is).2.1⟩) rfl .done
  · obtain ⟨settled, deep⟩ := ofProperties ms is
    exact Json.reads_dictionary settled deep (exactProperties _ (by rw [is]; rfl))
  · obtain ⟨deep, described⟩ := ofChildren nodes is
    exact reads_children deep described (exactChildren _ (by rw [is]; rfl))
  · obtain ⟨settled, -, deep⟩ := ofConfig v is
    exact Json.reads_value settled deep (exactConfig v is)

/-- The root of a tree that is read is settled. -/
theorem Component.settled_of_reader {component : Component}
    (accepted : Component.form.reader (depth + 2) input = .ok (component, rest)) :
    component.Settled (depth + 1) := by
  refine @Form.reader_keeps _ _ _ _ _ _ (Component.Settled (depth + 1)) ?_ .blank accepted
  simp only [form, List.forall_mem_cons, Json.Field.free_read]
  refine ⟨?_, ?_, ?_, ?_, ?_, by simp⟩
  · rintro component input _ rest settled ⟨id, -, rfl⟩
    exact settled.withTexts _ _
  · rintro component input _ rest settled ⟨name, -, rfl⟩
    exact settled.withTexts _ _
  · rintro component input _ rest settled ⟨properties, read, rfl⟩
    refine ⟨fun ms is => ?_, settled.children, settled.pageConfig⟩
    cases is
    obtain ⟨text, read, -⟩ := Json.exists_of_optional read
    exact Json.settled_of_dictionary read
  · rintro component input _ rest settled ⟨children, read, rfl⟩
    refine ⟨settled.properties, fun nodes is => ?_, settled.pageConfig⟩
    cases is
    obtain ⟨text, read, -⟩ := Json.exists_of_optional read
    have each := Json.forall_sequence Node.described_of_reader read
    rw [Json.depth_array_le, List.forall_mem_map]
    exact ⟨fun node member => (each node member).2, fun node member => (each node member).1⟩
  · rintro component input _ rest settled ⟨pageConfig, read, rfl⟩
    refine ⟨settled.properties, settled.children, fun v is => ?_⟩
    cases is
    obtain ⟨text, read, other⟩ := Json.exists_of_optional read
    obtain ⟨settled, deep⟩ := Json.settled_of_value read
    exact ⟨settled, Json.ne_null_of_value other read, deep⟩

/-! ## Metadata -/

/-- Whether the free members of application metadata repeat no key, are no named fields, and are
settled and no deeper than a number of levels. -/
structure AppInfo.Settled (depth : Nat) (app : AppInfo) : Prop where
  distinct : (app.extra.map Prod.fst).Nodup
  free : ∀ m ∈ app.extra, AppInfo.form.fields.find? (·.name == m.1) = none
  settled : ∀ m ∈ app.extra, m.2.settled = m.2 ∧ m.2.depth ≤ depth

/-- Free members are taken after those before them. -/
theorem AppInfo.takes_extra {app : AppInfo} {found : List String} {ms : Properties}
    (distinct : ((app.extra ++ ms).map Prod.fst).Nodup)
    (free : ∀ m ∈ ms, AppInfo.form.fields.find? (·.name == m.1) = none)
    (settled : ∀ m ∈ ms, m.2.settled = m.2 ∧ m.2.depth ≤ depth) (faithful : ∀ m ∈ ms, m.2.Exact) :
    Takes (AppInfo.member depth) (app, found) ms ({ app with extra := app.extra ++ ms }, found) := by
  induction ms generalizing app with
  | nil =>
    rw [List.append_nil]
    exact .nil
  | cons m ms ih =>
    obtain ⟨key, v⟩ := m
    obtain ⟨unknown, free⟩ := List.forall_mem_cons.mp free
    obtain ⟨⟨same, deep⟩, settled⟩ := List.forall_mem_cons.mp settled
    obtain ⟨here, faithful⟩ := List.forall_mem_cons.mp faithful
    have fresh : key ∉ app.extra.map Prod.fst := by
      rw [List.map_append, List.map_cons] at distinct
      exact fun before =>
        (List.nodup_append.mp distinct).2.2 key before key List.mem_cons_self rfl
    have others := @ih { app with extra := app.extra ++ [(key, v)] } (by simpa using distinct) free
      settled faithful
    rw [List.append_assoc, List.singleton_append] at others
    refine .cons (fun rest ends => ?_) others
    rw [AppInfo.member, unknown]
    dsimp only
    rw [Json.colon_cons]
    dsimp only [bind, Except.bind]
    rw [Json.reads_value same deep here rest ends]
    dsimp only
    rw [Json.put_of_fresh fresh]

/-- The members of application metadata store its named fields. -/
theorem AppInfo.stores_member {field : Json.Field AppInfo} (named : field ∈ AppInfo.form.fields) :
    Json.Stores (AppInfo.member depth) depth field := by
  intro app seen input unseen
  rw [AppInfo.member, Form.find?_name (by decide) named]
  exact Form.stores_member (by decide) named app seen input unseen

/-- Application metadata is what stands after its opening brace. -/
theorem AppInfo.reader_brace (input : Json.Input) :
    AppInfo.reader (depth + 1) ('\x7b' :: input) = (do
      let ((app, _), rest) ←
        Json.members (AppInfo.member depth) (input.length + 1) true (AppInfo.form.blank, []) input
      .ok (app, rest)) := by
  rw [reader, Json.skipBlanks_cons (by decide)]
  rfl

/-- Settled metadata is read back. -/
theorem AppInfo.Settled.reads {app : AppInfo} (settled : app.Settled depth)
    (faithful : app.toJson.Exact) : Reads AppInfo.reader (depth + 1) app.toJson app := by
  obtain ⟨name, version, project, extra⟩ := app
  obtain ⟨distinct, free, settled⟩ := settled
  rw [AppInfo.toJson, Json.exact_object] at faithful
  have fills : Fills depth AppInfo.form.fields AppInfo.form.blank
      (optionalMember "name" (name.map string) ++
        [("appVersion", string version), ("project_name", string project)])
      ⟨name, version, project, []⟩ :=
    fills_optional (reads_string name) rfl <| fills_free (Json.reads_text _) <|
      fills_free (Json.reads_text _) .done
  obtain ⟨found, named, -, -⟩ :=
    fills.takes (fun _ => AppInfo.stores_member) (by decide) (fun _ _ => List.not_mem_nil)
  have others := @AppInfo.takes_extra depth ⟨name, version, project, []⟩ found extra distinct free
    settled (List.forall_mem_append.mp faithful).2
  obtain ⟨body, text, read⟩ := (named.append others).exists_object
  intro rest _
  rw [AppInfo.toJson, text, List.cons_append, AppInfo.reader_brace, read]
  rfl

/-- Metadata without free members is settled. -/
theorem AppInfo.Settled.blank {name : Option String} {version project : String} :
    AppInfo.Settled depth ⟨name, version, project, []⟩ := ⟨by simp, by simp, by simp⟩

/-- Metadata stays settled with each member that is read. -/
theorem AppInfo.settled_of_member {app app' : AppInfo} {key : String} {found found' : List String}
    (before : app.Settled depth)
    (accepted : AppInfo.member depth (app, found) key input = .ok ((app', found'), rest)) :
    app'.Settled depth := by
  rw [AppInfo.member] at accepted
  split at accepted
  · refine @Form.member_keeps _ _ _ _ _ _ _ (AppInfo.Settled depth) _ _ _ ?_ before accepted
    simp only [AppInfo.form, List.forall_mem_cons, Json.Field.free_read]
    have texts : ∀ {app app' : AppInfo}, app.Settled depth → app.extra = app'.extra →
        app'.Settled depth := by
      rintro app app' ⟨distinct, free, settled⟩ same
      rw [same] at distinct free settled
      exact ⟨distinct, free, settled⟩
    refine ⟨?_, ?_, ?_, by simp⟩
    all_goals rintro app input _ rest settled ⟨_, -, rfl⟩
    all_goals exact texts settled rfl
  · rename_i unknown
    obtain ⟨left, -, accepted⟩ := Json.bind_eq_ok.mp accepted
    obtain ⟨⟨v, left⟩, read, same⟩ := Json.bind_eq_ok.mp accepted
    cases same
    refine ⟨Json.nodup_put before.distinct _ _, fun m member => ?_, fun m member => ?_⟩
    · rcases Json.mem_put member with rfl | member
      · exact unknown
      · exact before.free m member
    · rcases Json.mem_put member with rfl | member
      · exact Json.settled_of_value read
      · exact before.settled m member

/-- Metadata that is read is settled. -/
theorem AppInfo.settled_of_reader {app : AppInfo}
    (accepted : AppInfo.reader (depth + 1) input = .ok (app, rest)) : app.Settled depth := by
  rw [AppInfo.reader] at accepted
  split at accepted
  · obtain ⟨⟨⟨app, found⟩, left⟩, read, same⟩ := Json.bind_eq_ok.mp accepted
    cases same
    exact @Json.members_keep _ _ _ _ _ _ _ _ (fun state => state.1.Settled depth)
      (fun before taken => AppInfo.settled_of_member before taken) .blank read
  · cases accepted

/-! ## Schemas -/

/-- Whether the component trees and the metadata of a schema are settled, as deep as a schema of some
depth may hold them. -/
structure Schema.Settled (depth : Nat) (schema : Schema) : Prop where
  trees : ∀ tree ∈ schema.trees, tree.Settled (depth + 2)
  app : schema.app.Settled (depth + 3)

/-- A schema that is read is settled. -/
theorem Schema.settled_of_reader {schema : Schema}
    (accepted : Schema.form.reader (depth + 5) input = .ok (schema, rest)) :
    schema.Settled depth := by
  have blank : Schema.Settled depth Schema.form.blank := ⟨by simp [form], .blank⟩
  refine @Form.reader_keeps _ _ _ _ _ _ (Schema.Settled depth) ?_ blank accepted
  simp only [form, List.forall_mem_cons, Json.Field.free_read]
  refine ⟨?_, ?_, ?_, ?_, ?_, ?_, by simp⟩
  · rintro schema input _ rest settled ⟨version, -, rfl⟩
    exact ⟨settled.trees, settled.app⟩
  · rintro schema input _ rest settled ⟨entries, -, rfl⟩
    exact ⟨settled.trees, settled.app⟩
  · rintro schema input _ rest settled ⟨trees, read, rfl⟩
    refine ⟨?_, settled.app⟩
    rcases Json.nullable_cases read with rfl | ⟨text, read⟩
    · exact fun _ member => absurd member List.not_mem_nil
    · exact Json.forall_sequence Component.settled_of_reader read
  · rintro schema input _ rest settled ⟨pages, -, rfl⟩
    exact ⟨settled.trees, settled.app⟩
  · rintro schema input _ rest settled ⟨router, -, rfl⟩
    exact ⟨settled.trees, settled.app⟩
  · rintro schema input _ rest settled ⟨app, read, rfl⟩
    refine ⟨settled.trees, ?_⟩
    rcases Json.nullable_cases read with rfl | ⟨text, read⟩
    · exact .blank
    · exact AppInfo.settled_of_reader read

/-- A settled schema is read back. -/
theorem Schema.Settled.reads {schema : Schema} (settled : schema.Settled depth)
    (faithful : schema.toJson.Exact) :
    Reads Schema.form.reader (depth + 5) schema.toJson schema := by
  obtain ⟨version, entries, trees, pages, router, app⟩ := schema
  obtain ⟨ofTrees, ofApp⟩ := settled
  rw [Schema.toJson, Json.exact_object] at faithful
  have exactTrees : ∀ tree ∈ trees, tree.toJson.Exact := by
    have all := faithful ("componentsTree", array (trees.map Component.toJson)) (by simp)
    rwa [Json.exact_array, List.forall_mem_map] at all
  have exactApp : app.toJson.Exact := faithful ("meta", app.toJson) (by simp)
  refine Form.reads_object (by decide) <|
    fills_free (Json.reads_nullable (Json.reads_text _) nofun) <|
    fills_free (Json.reads_nullable (Json.reads_sequence ?_) nofun) <|
    fills_free (Json.reads_nullable (Json.reads_sequence ?_) nofun) <|
    fills_free (Json.reads_nullable (Json.reads_sequence ?_) nofun) <|
    fills_free (reads_orNull ?_) <|
    fills_free (Json.reads_nullable (ofApp.reads exactApp) nofun) .done
  · exact fun entry _ => entry.reads
  · exact fun tree member => (ofTrees tree member).reads (exactTrees tree member)
  · exact fun page _ => page.reads
  · exact fun router _ => ⟨router.reads, nofun⟩

/-- The text of a schema that was read is read as the same schema, so its text is the same again, if
each double of the schema is read back from its text. -/
theorem Schema.ofText_render {source : String} {schema : Schema}
    (accepted : Schema.ofText source = .ok schema)
    (doubles : ∀ x ∈ schema.toJson.doubles, x.ReadsBack) :
    Schema.ofText schema.render = .ok schema ∧
      (Schema.ofText schema.render).map Schema.render = .ok schema.render := by
  have settled : schema.Settled 122 := by
    rw [Schema.ofText, Json.ofText] at accepted
    split at accepted
    · cases accepted
    · rename_i read
      split at accepted
      · cases accepted
        exact Schema.settled_of_reader read
      · cases accepted
  have again : Schema.ofText schema.render = .ok schema := by
    have read := settled.reads doubles [] Json.ends_nil
    rw [List.append_nil] at read
    rw [Schema.ofText, Json.ofText, Schema.render, Json.render, String.toList_ofList]
    rw [show Json.maxDepth = 122 + 5 from rfl, read]
    rfl
  rw [again]
  exact ⟨rfl, rfl⟩

/-- One half. -/
def Binary64.half : Binary64 :=
  ⟨false, 4503599627370496, 1021, by decide, by decide, .inr (by decide)⟩

/-- A schema that stands as an array, with arrays for its parts and a key that is repeated with
another value. -/
def Schema.arrayText : String :=
  "[null,[],[[\"t\",\"View\",\x7b\"a\":1,\"b\":[],\"a\":0.5\x7d,[\"x\",[null,\"Text\"]]]]," ++
    "[[\"p\",\"t\"]],null,\x7b\"z\":true,\"name\":null\x7d]"

/-- That schema is read back once it is written. -/
theorem Schema.ofText_render_array :
    ∃ schema, Schema.ofText Schema.arrayText = .ok schema ∧ schema.toJson.doubles = [.half] ∧
      (∀ x ∈ schema.toJson.doubles, x.ReadsBack) ∧ Schema.ofText schema.render = .ok schema ∧
        (Schema.ofText schema.render).map Schema.render = .ok schema.render := by
  have found : ((Schema.ofText Schema.arrayText).toOption.map fun schema => schema.toJson.doubles) =
      some [.half] := by decide +kernel
  cases accepted : Schema.ofText Schema.arrayText with
  | error fault =>
    rw [accepted] at found
    cases found
  | ok schema =>
    rw [accepted] at found
    have doubles : schema.toJson.doubles = [.half] := Option.some.inj found
    have back : ∀ x ∈ schema.toJson.doubles, x.ReadsBack := by
      rw [doubles, List.forall_mem_singleton]
      decide +kernel
    exact ⟨schema, rfl, doubles, back, Schema.ofText_render accepted back⟩

end PageBuild
