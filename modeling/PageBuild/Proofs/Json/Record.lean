import PageBuild.Json.Record
import PageBuild.Proofs.Json.Accepts

/-!
# Reading records back

A record is read back from an object that has some of its fields in order, all required ones among
them, if each value is read back as what the field stores (`Json.Form.reads_object`). Conversely, what
every field keeps when it is stored is kept by a whole record that is read, from an object or from an
array (`Json.Form.reader_keeps`).
-/
namespace PageBuild.Json

variable {α β : Type} {depth : Nat} {input rest : Input} {ms : List (String × Json)}
  {fields : List (Field α)} {r r' : α}

/-! ## Fields -/

/-- A field stores what its reader reads. -/
theorem Field.free_read {name : String} {reader : Reader β} {store : α → β → α} :
    (Field.free name reader store).read r depth input = .ok (r', rest) ↔
      ∃ x, reader depth input = .ok (x, rest) ∧ store r x = r' := by
  rw [Field.free, map_eq_ok]
  constructor
  · rintro ⟨⟨x, left⟩, read, same⟩
    cases same
    exact ⟨x, read, rfl⟩
  · rintro ⟨x, read, rfl⟩
    exact ⟨(x, rest), read, rfl⟩

/-- A field is read back if its value is. -/
theorem reads_free {name : String} {reader : Reader β} {store : α → β → α} {v : Json} {x : β}
    (reads : Reads reader depth v x) :
    Reads ((Field.free name reader store).read r) depth v (store r x) :=
  fun rest ends => Field.free_read.mpr ⟨x, reads rest ends, rfl⟩

/-- A field that may not be left out stores what its reader reads. -/
theorem reads_needed {name : String} {reader : Reader β} {store : α → β → α} {v : Json} {x : β}
    (reads : Reads reader depth v x) :
    Reads ((Field.needed name reader store).read r) depth v (store r x) :=
  @reads_free _ _ _ _ name _ _ _ _ reads

/-- Whether members give some of the fields in order, and all required ones, so that storing their
values changes a record into another one. -/
inductive Fills (depth : Nat) : List (Field α) → α → List (String × Json) → α → Prop where
  /-- No field is left. -/
  | done {r : α} : Fills depth [] r [] r
  /-- A field is left out. -/
  | skip {field : Field α} {fields : List (Field α)} {r r' : α} {ms : List (String × Json)}
      (free : field.required = false) (others : Fills depth fields r ms r') :
      Fills depth (field :: fields) r ms r'
  /-- A field is given by the first member. -/
  | fill {field : Field α} {fields : List (Field α)} {r r' r'' : α} {v : Json}
      {ms : List (String × Json)} (first : Reads (field.read r) depth v r')
      (others : Fills depth fields r' ms r'') :
      Fills depth (field :: fields) r ((field.name, v) :: ms) r''

/-- Whether members of an object store the fields of a record that they name, each at most once. -/
def Stores (member : α × List String → String → Input → Except Fault ((α × List String) × Input))
    (depth : Nat) (field : Field α) : Prop :=
  ∀ record seen input, field.name ∉ seen →
    member (record, seen) field.name input = do
      let rest ← colon input
      let (record, rest) ← field.read record depth rest
      .ok ((record, field.name :: seen), rest)

/-- Members that fill fields are taken, and each required field is found. -/
theorem Fills.takes {seen : List String}
    {member : α × List String → String → Input → Except Fault ((α × List String) × Input)}
    (fills : Fills depth fields r ms r') (stores : ∀ field ∈ fields, Stores member depth field)
    (distinct : (fields.map Field.name).Nodup) (fresh : ∀ field ∈ fields, field.name ∉ seen) :
    ∃ found, Takes member (r, seen) ms (r', found) ∧ seen ⊆ found ∧
      ∀ field ∈ fields, field.required = true → field.name ∈ found := by
  induction fills generalizing seen with
  | done => exact ⟨seen, .nil, List.Subset.refl _, by simp⟩
  | skip free others ih =>
    obtain ⟨-, stores⟩ := List.forall_mem_cons.mp stores
    obtain ⟨-, fresh⟩ := List.forall_mem_cons.mp fresh
    obtain ⟨found, takes, kept, all⟩ := ih stores (List.nodup_cons.mp distinct).2 fresh
    refine ⟨found, takes, kept, List.forall_mem_cons.mpr ⟨fun required => ?_, all⟩⟩
    rw [free] at required
    cases required
  | @fill field fields r r' r'' v ms first others ih =>
    obtain ⟨new, distinct⟩ := List.nodup_cons.mp distinct
    obtain ⟨store, stores⟩ := List.forall_mem_cons.mp stores
    obtain ⟨unseen, fresh⟩ := List.forall_mem_cons.mp fresh
    have fresh : ∀ other ∈ fields, other.name ∉ field.name :: seen := by
      intro other member
      rw [List.mem_cons, not_or]
      exact ⟨fun same => new (same ▸ List.mem_map_of_mem member), fresh other member⟩
    obtain ⟨found, takes, kept, all⟩ := ih stores distinct fresh
    refine ⟨found, .cons (fun rest ends => ?_) takes, fun k member => kept (.tail _ member),
      List.forall_mem_cons.mpr ⟨fun _ => kept List.mem_cons_self, all⟩⟩
    rw [store r seen _ unseen, colon_cons]
    dsimp only [bind, Except.bind]
    rw [first rest ends]

namespace Form

variable {form : Form α}

/-- A field is found by its name. -/
theorem find?_name {field : Field α} (distinct : (fields.map Field.name).Nodup)
    (member : field ∈ fields) : fields.find? (·.name == field.name) = some field := by
  induction fields with
  | nil => cases member
  | cons other fields ih =>
    obtain ⟨new, distinct⟩ := List.nodup_cons.mp distinct
    rw [List.find?_cons]
    rcases List.mem_cons.mp member with rfl | member
    · simp
    · have differ : (other.name == field.name) = false := by
        rw [beq_eq_false_iff_ne]
        exact fun same => new (same ▸ List.mem_map_of_mem member)
      rw [differ]
      exact ih distinct member

/-- The members of an object store the fields of the form. -/
theorem stores_member (distinct : (form.fields.map Field.name).Nodup) {field : Field α}
    (member : field ∈ form.fields) : Stores (form.member depth) depth field := by
  intro record seen input unseen
  rw [Form.member, find?_name distinct member]
  dsimp only
  rw [if_neg (by simpa using unseen)]

/-- A record in an object is what stands after its opening brace, if it is complete. -/
theorem reader_brace (input : Input) :
    form.reader (depth + 1) ('\x7b' :: input) = (do
      let ((record, found), rest) ←
        members (form.member depth) (input.length + 1) true (form.blank, []) input
      let record ← form.complete record found
      .ok (record, rest)) := by
  rw [reader, skipBlanks_cons (by decide)]
  rfl

/-- A record is read back from an object that gives its fields. -/
theorem reads_object (distinct : (form.fields.map Field.name).Nodup)
    (fills : Fills depth form.fields form.blank ms r) :
    Reads form.reader (depth + 1) (object ms) r := by
  intro rest _
  obtain ⟨found, takes, -, all⟩ :=
    fills.takes (fun field => stores_member distinct) distinct (fun _ _ => List.not_mem_nil)
  have whole : form.complete r found = .ok r := by
    have none : form.fields.find? (fun field => field.required && !found.contains field.name) =
        none := by
      rw [List.find?_eq_none]
      intro field member
      by_cases required : field.required = true
      · simp [all field member required]
      · simp [required]
    rw [complete, none]
  obtain ⟨body, text, read⟩ := takes.exists_object
  rw [text, List.cons_append, reader_brace, read]
  dsimp only [bind, Except.bind]
  rw [whole]

/-- What every field keeps is kept by a member of an object. -/
theorem member_keeps {P : α → Prop} {key : String} {found found' : List String}
    (each : ∀ field ∈ form.fields, ∀ {r input r' rest}, P r →
      field.read r depth input = .ok (r', rest) → P r')
    (before : P r) (accepted : form.member depth (r, found) key input = .ok ((r', found'), rest)) :
    P r' := by
  rw [member] at accepted
  split at accepted
  · rename_i field known
    split at accepted
    · cases accepted
    · obtain ⟨left, -, accepted⟩ := bind_eq_ok.mp accepted
      obtain ⟨⟨next, left⟩, read, same⟩ := bind_eq_ok.mp accepted
      cases same
      exact each field (List.mem_of_find?_eq_some known) before read
  · obtain ⟨left, -, accepted⟩ := bind_eq_ok.mp accepted
    obtain ⟨left, -, same⟩ := bind_eq_ok.mp accepted
    cases same
    exact before

/-- What every field keeps is kept by the fields of an array. -/
theorem positional_keeps {P : α → Prop} {index : Nat}
    (each : ∀ field ∈ fields, ∀ {r input r' rest}, P r →
      field.read r depth input = .ok (r', rest) → P r')
    (before : P r) (accepted : form.positional depth fields index r input = .ok (r', rest)) :
    P r' := by
  induction fields generalizing index r input with
  | nil =>
    obtain ⟨_, -, same⟩ := map_eq_ok.mp accepted
    cases same
    exact before
  | cons field fields ih =>
    obtain ⟨first, others⟩ := List.forall_mem_cons.mp each
    have continued : ∀ {input : Input}, (do
        let (record, rest) ← field.read r depth input
        form.positional depth fields (index + 1) record rest : Except Fault (α × Input)) =
          .ok (r', rest) → P r' := by
      intro input accepted
      obtain ⟨⟨next, left⟩, read, accepted⟩ := bind_eq_ok.mp accepted
      exact ih others (first before read) accepted
    rw [positional.eq_def] at accepted
    dsimp only at accepted
    split at accepted
    · cases accepted
    split at accepted
    · split at accepted
      · cases accepted
      · exact ih others before accepted
    split at accepted
    · exact continued accepted
    split at accepted
    · split at accepted
      · cases accepted
      split at accepted
      · cases accepted
      · exact continued accepted
    · cases accepted

/-- What every field keeps is kept by a whole record. -/
theorem reader_keeps {P : α → Prop}
    (each : ∀ field ∈ form.fields, ∀ {r input r' rest}, P r →
      field.read r depth input = .ok (r', rest) → P r')
    (blank : P form.blank) (accepted : form.reader (depth + 1) input = .ok (r, rest)) : P r := by
  rw [reader] at accepted
  split at accepted
  · exact positional_keeps each blank accepted
  · obtain ⟨⟨⟨record, found⟩, left⟩, read, accepted⟩ := bind_eq_ok.mp accepted
    obtain ⟨whole, completed, same⟩ := bind_eq_ok.mp accepted
    cases same
    rw [complete] at completed
    split at completed
    · cases completed
    · cases completed
      exact @members_keep _ _ _ _ _ _ _ _ (fun state => P state.1)
        (fun before taken => member_keeps each before taken) blank read
  · cases accepted

end Form

end PageBuild.Json
