import PageBuild.Proofs.Json.Number

/-!
# Values and their members

How deep a value goes and which doubles it holds, each told of an array by its items and of an object
by its members. Settling a value leaves no repeated key at any depth, so it changes nothing the second
time (`Json.settled_settled`), and makes no value deeper.
-/
namespace PageBuild.Json

variable {α : Type} {key : String} {v : Json} {vs : List Json} {ms found : List (String × Json)}
  {d : Nat}

/-- Induction on a value through the items of its arrays and the values of its members. -/
@[elab_as_elim]
theorem induction {motive : Json → Prop} (null : motive Json.null)
    (bool : ∀ value, motive (Json.bool value)) (number : ∀ value, motive (Json.number value))
    (string : ∀ value, motive (Json.string value))
    (array : ∀ items, (∀ item ∈ items, motive item) → motive (Json.array items))
    (object : ∀ members, (∀ m ∈ members, motive m.2) → motive (Json.object members))
    (v : Json) : motive v :=
  @Json.rec motive (fun items => ∀ item ∈ items, motive item)
    (fun members => ∀ m ∈ members, motive m.2) (fun m => motive m.2) null bool number string array
    object (fun _ member => absurd member List.not_mem_nil)
    (fun _ _ first others => List.forall_mem_cons.mpr ⟨first, others⟩)
    (fun _ member => absurd member List.not_mem_nil)
    (fun _ _ first others => List.forall_mem_cons.mpr ⟨first, others⟩) (fun _ _ held => held) v

/-! ## Depth -/

mutual
/-- How many arrays and objects of a value are open at once at most. -/
def depth : Json → Nat
  | array items => depthOfItems items + 1
  | object members => depthOfMembers members + 1
  | _ => 0

/-- The depth of the deepest item. -/
def depthOfItems : List Json → Nat
  | [] => 0
  | item :: rest => max item.depth (depthOfItems rest)

/-- The depth of the deepest value of a member. -/
def depthOfMembers : List (String × Json) → Nat
  | [] => 0
  | (_, value) :: rest => max value.depth (depthOfMembers rest)
end

/-- An array is one level deeper than its items. -/
theorem depth_array_le : (array vs).depth ≤ d + 1 ↔ ∀ v ∈ vs, v.depth ≤ d := by
  rw [depth, Nat.add_le_add_iff_right]
  induction vs with
  | nil => simp [depthOfItems]
  | cons v vs ih => rw [depthOfItems, Nat.max_le, ih, List.forall_mem_cons]

/-- An object is one level deeper than the values of its members. -/
theorem depth_object_le : (object ms).depth ≤ d + 1 ↔ ∀ m ∈ ms, m.2.depth ≤ d := by
  rw [depth, Nat.add_le_add_iff_right]
  induction ms with
  | nil => simp [depthOfMembers]
  | cons m ms ih => rw [depthOfMembers, Nat.max_le, ih, List.forall_mem_cons]

/-! ## Doubles -/

mutual
/-- The doubles of a value, in document order. -/
def doubles : Json → List Binary64
  | number (.real value) => [value]
  | array items => doublesOfItems items
  | object members => doublesOfMembers members
  | _ => []

/-- The doubles of all items. -/
def doublesOfItems : List Json → List Binary64
  | [] => []
  | item :: rest => item.doubles ++ doublesOfItems rest

/-- The doubles of all values of members. -/
def doublesOfMembers : List (String × Json) → List Binary64
  | [] => []
  | (_, value) :: rest => value.doubles ++ doublesOfMembers rest
end

/-- Whether every double of a value is read back from its text. -/
def Exact (v : Json) : Prop := ∀ x ∈ v.doubles, x.ReadsBack

/-- An array is exact if its items are. -/
theorem exact_array : (array vs).Exact ↔ ∀ v ∈ vs, v.Exact := by
  rw [Exact, doubles]
  induction vs with
  | nil => simp [doublesOfItems]
  | cons v vs ih => rw [doublesOfItems, List.forall_mem_append, ih, List.forall_mem_cons, Exact]

/-- An object is exact if the values of its members are. -/
theorem exact_object : (object ms).Exact ↔ ∀ m ∈ ms, m.2.Exact := by
  rw [Exact, doubles]
  induction ms with
  | nil => simp [doublesOfMembers]
  | cons m ms ih => rw [doublesOfMembers, List.forall_mem_append, ih, List.forall_mem_cons, Exact]

/-! ## Members put in place -/

/-- A new key is put last. -/
theorem put_of_fresh {members : List (String × α)} (fresh : key ∉ members.map Prod.fst) (value : α) :
    put key value members = members ++ [(key, value)] := by
  induction members with
  | nil => rfl
  | cons m members ih =>
    obtain ⟨other, fresh⟩ := List.ne_and_not_mem_of_not_mem_cons fresh
    rw [put, if_neg (Ne.symm other), ih fresh, List.cons_append]

/-- Putting a member leaves the keys as they are, or adds its own as the last one. -/
theorem keys_put (key : String) (value : α) (members : List (String × α)) :
    (put key value members).map Prod.fst =
      if key ∈ members.map Prod.fst then members.map Prod.fst
      else members.map Prod.fst ++ [key] := by
  induction members with
  | nil => simp [put]
  | cons m members ih =>
    obtain ⟨name, old⟩ := m
    rw [put]
    by_cases same : name = key
    · simp [same]
    · rw [if_neg same, List.map_cons, ih]
      simp only [List.map_cons, List.mem_cons, Ne.symm same, false_or]
      split <;> rfl

/-- Putting a member repeats no key. -/
theorem nodup_put {members : List (String × α)} (distinct : (members.map Prod.fst).Nodup)
    (key : String) (value : α) : ((put key value members).map Prod.fst).Nodup := by
  rw [keys_put]
  split
  · exact distinct
  · rename_i fresh
    exact (List.perm_append_singleton key _).nodup_iff.mpr (List.nodup_cons.mpr ⟨fresh, distinct⟩)

/-- What is put is the new member, or was there. -/
theorem mem_put {members : List (String × α)} {m : String × α} {value : α}
    (member : m ∈ put key value members) : m = (key, value) ∨ m ∈ members := by
  induction members with
  | nil => exact .inl (List.mem_singleton.mp member)
  | cons other members ih =>
    rw [put] at member
    split at member
    · rename_i same
      rcases List.mem_cons.mp member with rfl | member
      · exact .inl (by rw [same])
      · exact .inr (List.mem_cons_of_mem _ member)
    · rcases List.mem_cons.mp member with rfl | member
      · exact .inr List.mem_cons_self
      · exact (ih member).imp_right (List.mem_cons_of_mem _)

/-! ## Settled values -/

/-- Settled items are the items, each settled. -/
theorem settledItems_eq_map : settledItems vs = vs.map settled := by
  induction vs with
  | nil => rfl
  | cons v vs ih => rw [settledItems, ih, List.map_cons]

/-- Settled members repeat no key. -/
theorem nodup_settledMembers (distinct : (found.map Prod.fst).Nodup) :
    ((settledMembers ms found).map Prod.fst).Nodup := by
  induction ms generalizing found with
  | nil => exact distinct
  | cons m ms ih =>
    rw [settledMembers]
    exact ih (nodup_put distinct _ _)

/-- What holds of the members settled before and of each value once settled holds of all. -/
theorem forall_settledMembers {P : Json → Prop} (before : ∀ m ∈ found, P m.2)
    (each : ∀ m ∈ ms, P m.2.settled) : ∀ m ∈ settledMembers ms found, P m.2 := by
  induction ms generalizing found with
  | nil => exact before
  | cons m ms ih =>
    obtain ⟨first, others⟩ := List.forall_mem_cons.mp each
    rw [settledMembers]
    refine ih (fun other member => ?_) others
    rcases mem_put member with rfl | member
    · exact first
    · exact before other member

/-- Members that are settled and repeat no key are put one after the other. -/
theorem settledMembers_of_settled (each : ∀ m ∈ ms, m.2.settled = m.2)
    (distinct : ((found ++ ms).map Prod.fst).Nodup) : settledMembers ms found = found ++ ms := by
  induction ms generalizing found with
  | nil => rw [settledMembers, List.append_nil]
  | cons m ms ih =>
    obtain ⟨key, value⟩ := m
    obtain ⟨first, others⟩ := List.forall_mem_cons.mp each
    have fresh : key ∉ found.map Prod.fst := by
      rw [List.map_append, List.map_cons] at distinct
      exact fun before =>
        (List.nodup_append.mp distinct).2.2 key before key List.mem_cons_self rfl
    rw [settledMembers, first, put_of_fresh fresh, ih others (by simpa using distinct),
      List.append_assoc, List.singleton_append]

/-- Settling a second time changes nothing. -/
theorem settled_settled (v : Json) : v.settled.settled = v.settled := by
  induction v using induction with
  | null | bool | number | string => simp only [settled]
  | array items ih =>
    rw [settled, settled, settledItems_eq_map, settledItems_eq_map, List.map_map]
    exact congrArg array (List.map_congr_left ih)
  | object members ih =>
    have each : ∀ m ∈ settledMembers members [], m.2.settled = m.2 :=
      @forall_settledMembers members [] (fun v => v.settled = v) (by simp) ih
    rw [settled, settled, settledMembers_of_settled each (nodup_settledMembers (by simp)),
      List.nil_append]

/-- Members that are settled are settled already. -/
theorem settledMembers_settledMembers (ms : List (String × Json)) :
    settledMembers (settledMembers ms []) [] = settledMembers ms [] := by
  simpa only [settled, object.injEq] using settled_settled (object ms)

/-- Settling makes no value deeper. -/
theorem depth_settled_le (v : Json) : v.settled.depth ≤ v.depth := by
  induction v using induction with
  | null | bool | number | string => simp only [settled, Nat.le_refl]
  | array items ih =>
    have each : ∀ item ∈ items, item.depth ≤ depthOfItems items := by
      rw [← depth_array_le, depth]
    rw [settled, depth.eq_def (array items), depth_array_le, settledItems_eq_map,
      List.forall_mem_map]
    exact fun item member => (ih item member).trans (each item member)
  | object members ih =>
    have each : ∀ m ∈ members, m.2.depth ≤ depthOfMembers members := by
      rw [← depth_object_le, depth]
    rw [settled, depth.eq_def (object members), depth_object_le]
    exact @forall_settledMembers members [] (fun v => v.depth ≤ depthOfMembers members) (by simp)
      fun m member => (ih m member).trans (each m member)

/-- Settling makes no object deeper. -/
theorem depth_settledMembers_le (deep : (object ms).depth ≤ d) :
    (object (settledMembers ms [])).depth ≤ d := by
  simpa only [settled] using (depth_settled_le (object ms)).trans deep

/-- Only null is settled to null. -/
theorem settled_ne_null (filled : v ≠ null) : v.settled ≠ null := by
  cases v with
  | null => exact absurd rfl filled
  | _ => simp only [settled, ne_eq, reduceCtorEq, not_false_eq_true]

end PageBuild.Json
