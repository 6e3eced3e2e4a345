import Mathlib.Data.List.DropRight
import PageBuild.Proofs.Json.Reads

/-!
# What readers accept

Whatever text a reader accepts, what it reads is of a kind that its own writer gives back: values no
deeper than the reader allows (`Json.depth_le_of_raw`), settled where repeated keys are resolved, and
never null where null stands for absence. Each is shown of one item or one member first, and then of
all that a loop reads.
-/
namespace PageBuild.Json

variable {α β σ : Type} {reader : Reader α} {depth fuel : Nat} {first : Bool}
  {input rest : Input} {v : Json} {ms : List (String × Json)}

/-! ## Loops -/

/-- What holds of an item and of all items after it holds of an array. -/
theorem forall_item_cons {read : Input → Except Fault (α × Input)}
    (later : Input → Except Fault (List α × Input)) {xs : List α} {P : α → Prop}
    (accepted : (do
      let here ← read input
      let after ← later here.2
      .ok (here.1 :: after.1, after.2) : Except Fault (List α × Input)) = .ok (xs, rest))
    (each : ∀ {input x rest}, read input = .ok (x, rest) → P x)
    (all : ∀ {input xs rest}, later input = .ok (xs, rest) → ∀ x ∈ xs, P x) : ∀ x ∈ xs, P x := by
  obtain ⟨⟨x, left⟩, here, accepted⟩ := bind_eq_ok.mp accepted
  obtain ⟨⟨more, left⟩, after, same⟩ := bind_eq_ok.mp accepted
  cases same
  exact List.forall_mem_cons.mpr ⟨each here, all after⟩

/-- What holds of every item that is read holds of all items of an array. -/
theorem forall_items {read : Input → Except Fault (α × Input)} {xs : List α} {P : α → Prop}
    (each : ∀ {input x rest}, read input = .ok (x, rest) → P x)
    (accepted : items read fuel first input = .ok (xs, rest)) : ∀ x ∈ xs, P x := by
  induction fuel generalizing first input xs rest with
  | zero => cases accepted
  | succ fuel ih =>
    rw [items.eq_def] at accepted
    dsimp only at accepted
    split at accepted
    · cases accepted
    split at accepted
    · cases accepted
      simp
    split at accepted
    · exact forall_item_cons (items read fuel false) accepted each ih
    split at accepted
    · split at accepted
      · cases accepted
      split at accepted
      · cases accepted
      · exact forall_item_cons (items read fuel false) accepted each ih
    · cases accepted

/-- What a member and all members after it keep is kept by an object. -/
theorem member_keeps {member : σ → String → Input → Except Fault (σ × Input)}
    (later : σ → Input → Except Fault (σ × Input)) {s s' : σ} {P : σ → Prop}
    (accepted : (do
      let key ← readString input
      let next ← member s key.1 key.2
      later next.1 next.2 : Except Fault (σ × Input)) = .ok (s', rest))
    (each : ∀ {s key input s' rest}, P s → member s key input = .ok (s', rest) → P s')
    (all : ∀ {s input rest}, P s → later s input = .ok (s', rest) → P s') (before : P s) :
    P s' := by
  obtain ⟨⟨key, left⟩, -, accepted⟩ := bind_eq_ok.mp accepted
  obtain ⟨⟨next, left⟩, taken, accepted⟩ := bind_eq_ok.mp accepted
  exact all (each before taken) accepted

/-- What every member keeps is kept by all members of an object. -/
theorem members_keep {member : σ → String → Input → Except Fault (σ × Input)} {s s' : σ}
    {P : σ → Prop}
    (each : ∀ {s key input s' rest}, P s → member s key input = .ok (s', rest) → P s')
    (before : P s) (accepted : members member fuel first s input = .ok (s', rest)) : P s' := by
  induction fuel generalizing first s input rest with
  | zero => cases accepted
  | succ fuel ih =>
    rw [members.eq_def] at accepted
    dsimp only at accepted
    split at accepted
    · cases accepted
    split at accepted
    · cases accepted
      exact before
    split at accepted
    · split at accepted
      · exact member_keeps (members member fuel false) accepted each ih before
      · cases accepted
    split at accepted
    · split at accepted
      · cases accepted
      split at accepted
      · cases accepted
      split at accepted
      · exact member_keeps (members member fuel false) accepted each ih before
      · cases accepted
    · cases accepted

/-! ## Values -/

/-- The members of an object of any values come from the reader of its values. -/
theorem forall_rawMembers {read : Input → Except Fault (Json × Input)} {P : Json → Prop}
    (each : ∀ {input v rest}, read input = .ok (v, rest) → P v)
    (accepted : members (rawMember read) fuel first [] input = .ok (ms, rest)) :
    ∀ m ∈ ms, P m.2 := by
  refine @members_keep _ _ _ _ _ _ _ _ (fun found => ∀ m ∈ found, P m.2) ?_ (by simp) accepted
  intro found key input found' rest before taken
  obtain ⟨left, -, taken⟩ := bind_eq_ok.mp taken
  obtain ⟨⟨v, left⟩, here, same⟩ := bind_eq_ok.mp taken
  cases same
  exact List.forall_mem_cons.mpr ⟨each here, before⟩

/-- A value starts like null and is null, is another scalar, or is made of what a loop read. -/
theorem raw_cases (accepted : raw depth input = .ok (v, rest)) :
    (v = null ∧ ∃ more, skipBlanks input = 'n' :: more) ∨ (v ≠ null ∧ v.depth = 0) ∨
      (∃ d vs text, depth = d + 1 ∧ v = array vs ∧
        items (raw d) (text.length + 1) true text = .ok (vs, rest)) ∨
      ∃ d found text, depth = d + 1 ∧ v = object found.reverse ∧
        members (rawMember (raw d)) (text.length + 1) true [] text = .ok (found, rest) := by
  rw [raw.eq_def] at accepted
  dsimp only at accepted
  split at accepted
  · cases accepted
  · rename_i starts
    obtain ⟨_, -, same⟩ := map_eq_ok.mp accepted
    cases same
    exact .inl ⟨rfl, _, starts⟩
  -- The booleans, a number with a sign and a string.
  iterate 4
    obtain ⟨_, -, same⟩ := map_eq_ok.mp accepted
    cases same
    exact .inr (.inl ⟨nofun, rfl⟩)
  · split at accepted
    · cases accepted
    · obtain ⟨_, read, same⟩ := map_eq_ok.mp accepted
      cases same
      exact .inr (.inr (.inl ⟨_, _, _, rfl, rfl, read⟩))
  · split at accepted
    · cases accepted
    · obtain ⟨_, read, same⟩ := map_eq_ok.mp accepted
      cases same
      exact .inr (.inr (.inr ⟨_, _, _, rfl, rfl, read⟩))
  · split at accepted
    · obtain ⟨_, -, same⟩ := map_eq_ok.mp accepted
      cases same
      exact .inr (.inl ⟨nofun, rfl⟩)
    · cases accepted

/-- A value is no deeper than its reader allows. -/
theorem depth_le_of_raw (accepted : raw depth input = .ok (v, rest)) : v.depth ≤ depth := by
  induction depth using Nat.strongRecOn generalizing input v rest with
  | ind depth ih =>
    rcases raw_cases accepted with ⟨rfl, -⟩ | ⟨-, flat⟩ | ⟨d, vs, text, rfl, rfl, read⟩ |
      ⟨d, found, text, rfl, rfl, read⟩
    · exact Nat.zero_le _
    · exact flat ▸ Nat.zero_le _
    · exact depth_array_le.mpr (forall_items (ih d (Nat.lt_succ_self d)) read)
    · have each := forall_rawMembers (ih d (Nat.lt_succ_self d)) read
      exact depth_object_le.mpr fun m member => each m (List.mem_reverse.mp member)

/-- A value whose repeated keys are resolved is settled and no deeper than its reader allows. -/
theorem settled_of_value (accepted : value depth input = .ok (v, rest)) :
    v.settled = v ∧ v.depth ≤ depth := by
  obtain ⟨⟨whole, left⟩, read, same⟩ := map_eq_ok.mp accepted
  cases same
  exact ⟨settled_settled whole, (depth_settled_le whole).trans (depth_le_of_raw read)⟩

/-- The members of an object whose repeated keys are resolved are settled, and the object is no
deeper than its reader allows. -/
theorem settled_of_dictionary (accepted : dictionary depth input = .ok (ms, rest)) :
    settledMembers ms [] = ms ∧ (object ms).depth ≤ depth := by
  rw [dictionary] at accepted
  split at accepted
  · split at accepted
    · cases accepted
    · rename_i depth
      obtain ⟨⟨found, left⟩, read, same⟩ := map_eq_ok.mp accepted
      cases same
      have each := forall_rawMembers depth_le_of_raw read
      have deep : (object found.reverse).depth ≤ depth + 1 :=
        depth_object_le.mpr fun m member => each m (List.mem_reverse.mp member)
      exact ⟨settledMembers_settledMembers found.reverse, depth_settledMembers_le deep⟩
  · cases accepted

/-- What holds of every value that is read holds of a whole sequence. -/
theorem forall_sequence {xs : List α} {P : α → Prop}
    (each : ∀ {input x rest}, reader depth input = .ok (x, rest) → P x)
    (accepted : sequence reader (depth + 1) input = .ok (xs, rest)) : ∀ x ∈ xs, P x := by
  rw [sequence] at accepted
  split at accepted
  · exact forall_items each accepted
  · cases accepted

/-! ## Values that may be null -/

/-- A value that is there was read from a text that does not start like null. -/
theorem exists_of_optional {x : α} (accepted : optional reader depth input = .ok (some x, rest)) :
    ∃ text, reader depth text = .ok (x, rest) ∧ ∀ more, skipBlanks text ≠ 'n' :: more := by
  rw [optional] at accepted
  split at accepted
  · obtain ⟨_, -, same⟩ := map_eq_ok.mp accepted
    cases same
  · rename_i other
    obtain ⟨⟨x, left⟩, read, same⟩ := map_eq_ok.mp accepted
    cases same
    refine ⟨_, read, fun more => ?_⟩
    rw [skipBlanks, skipBlanks, List.dropWhile_idempotent isBlank]
    exact other more

/-- A value is the default one, or was read. -/
theorem nullable_cases [Inhabited α] {x : α}
    (accepted : nullable reader depth input = .ok (x, rest)) :
    x = default ∨ ∃ text, reader depth text = .ok (x, rest) := by
  obtain ⟨⟨found, left⟩, read, same⟩ := map_eq_ok.mp accepted
  cases same
  cases found with
  | none => exact .inl rfl
  | some x =>
    obtain ⟨text, read, -⟩ := exists_of_optional read
    exact .inr ⟨text, read⟩

/-- A value that does not start like null is not null. -/
theorem ne_null_of_value (other : ∀ more, skipBlanks input ≠ 'n' :: more)
    (accepted : value depth input = .ok (v, rest)) : v ≠ null := by
  obtain ⟨⟨whole, left⟩, read, same⟩ := map_eq_ok.mp accepted
  cases same
  refine settled_ne_null ?_
  rcases raw_cases read with ⟨-, more, starts⟩ | ⟨filled, -⟩ | ⟨d, vs, text, -, rfl, -⟩ |
    ⟨d, found, text, -, rfl, -⟩
  · exact absurd starts (other more)
  · exact filled
  · nofun
  · nofun

end PageBuild.Json
