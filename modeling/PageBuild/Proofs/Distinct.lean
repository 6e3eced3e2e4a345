import PageBuild.Distinct

/-!
# Laws of first occurrences

Keeping the first element of each key loses no key (`exists_mem_distinctBy`), and what is kept is the
first of its key (`mem_distinctBy`), so that a search for a key finds the same (`find?_distinctBy`). No
key is kept twice (`nodup_distinctBy`), and the order stays (`distinctBy_sublist`).
-/
namespace PageBuild

variable {α κ : Type} [BEq κ] [LawfulBEq κ] {key : α → κ} {seen : List κ} {xs : List α} {x : α} {k : κ}

/-- An element is kept if its key neither was seen nor occurs before it. -/
theorem mem_distinctFrom :
    x ∈ distinctFrom key seen xs ↔
      ∃ before after, xs = before ++ x :: after ∧ key x ∉ seen ∧ ∀ y ∈ before, key y ≠ key x := by
  induction xs generalizing seen with
  | nil => simp [distinctFrom]
  | cons y rest ih =>
    have step : (∃ before after, y :: rest = before ++ x :: after ∧ key x ∉ seen ∧
          ∀ z ∈ before, key z ≠ key x) ↔
        (y = x ∧ key x ∉ seen) ∨ ∃ before after, rest = before ++ x :: after ∧
          key x ∉ key y :: seen ∧ ∀ z ∈ before, key z ≠ key x := by
      constructor
      · rintro ⟨before, after, split, unseen, others⟩
        cases before with
        | nil => exact .inl ⟨(List.cons.inj split).1, unseen⟩
        | cons z before =>
          obtain ⟨rfl, rfl⟩ := List.cons.inj split
          obtain ⟨other, others⟩ := List.forall_mem_cons.mp others
          exact .inr ⟨before, after, rfl, by simp [unseen, Ne.symm other], others⟩
      · rintro (⟨rfl, unseen⟩ | ⟨before, after, rfl, unseen, others⟩)
        · exact ⟨[], rest, rfl, unseen, by simp⟩
        · obtain ⟨other, unseen⟩ := not_or.mp (mt List.mem_cons.mpr unseen)
          exact ⟨y :: before, after, rfl, unseen, List.forall_mem_cons.mpr ⟨Ne.symm other, others⟩⟩
    rw [step, distinctFrom]
    split
    · rename_i before
      rw [ih]
      have before : key y ∈ seen := by simpa using before
      constructor
      · rintro ⟨front, after, split, unseen, others⟩
        refine .inr ⟨front, after, split, ?_, others⟩
        rw [List.mem_cons, not_or]
        exact ⟨fun same => unseen (same ▸ before), unseen⟩
      · rintro (⟨rfl, unseen⟩ | ⟨front, after, split, unseen, others⟩)
        · exact absurd before unseen
        · exact ⟨front, after, split, fun member => unseen (List.mem_cons_of_mem _ member), others⟩
    · rename_i unseen
      have unseen : key y ∉ seen := by simpa using unseen
      rw [List.mem_cons, ih]
      constructor
      · rintro (rfl | later)
        · exact .inl ⟨rfl, unseen⟩
        · exact .inr later
      · rintro (⟨rfl, -⟩ | later)
        · exact .inl rfl
        · exact .inr later

/-- The elements kept are those whose key does not occur before them. -/
theorem mem_distinctBy :
    x ∈ distinctBy key xs ↔
      ∃ before after, xs = before ++ x :: after ∧ ∀ y ∈ before, key y ≠ key x := by
  simp [distinctBy, mem_distinctFrom]

/-- Every key has an element that is kept. -/
theorem exists_mem_distinctBy :
    (∃ x ∈ distinctBy key xs, key x = k) ↔ ∃ x ∈ xs, key x = k := by
  constructor
  · rintro ⟨x, kept, same⟩
    obtain ⟨before, after, rfl, -⟩ := mem_distinctBy.mp kept
    exact ⟨x, by simp, same⟩
  · rintro ⟨y, member, same⟩
    have found : (xs.find? fun z => key z == k).isSome := by
      rw [List.find?_isSome]
      exact ⟨y, member, beq_iff_eq.mpr same⟩
    obtain ⟨x, first⟩ := Option.isSome_iff_exists.mp found
    obtain ⟨is, before, after, split, others⟩ := List.find?_eq_some_iff_append.mp first
    obtain rfl : key x = k := by simpa using is
    exact ⟨x, mem_distinctBy.mpr ⟨before, after, split, by simpa using others⟩, rfl⟩

/-- Nothing is lost where elements are their own keys. -/
theorem mem_distinct {α : Type} [BEq α] [LawfulBEq α] {xs : List α} {x : α} :
    x ∈ distinct xs ↔ x ∈ xs := by
  have keys : (∃ y ∈ distinctBy id xs, id y = x) ↔ ∃ y ∈ xs, id y = x := exists_mem_distinctBy
  simpa [distinct] using keys

omit [LawfulBEq κ] in
/-- What is kept of the keys that were not seen stays in order. -/
theorem distinctFrom_sublist : (distinctFrom key seen xs).Sublist xs := by
  induction xs generalizing seen with
  | nil => exact .slnil
  | cons x rest ih =>
    rw [distinctFrom]
    split
    · exact ih.cons x
    · exact ih.cons_cons x

omit [LawfulBEq κ] in
/-- What is kept stays in order. -/
theorem distinctBy_sublist : (distinctBy key xs).Sublist xs := distinctFrom_sublist

omit [LawfulBEq κ] in
/-- What is kept of the keys that were not seen depends on the keys alone. -/
theorem map_distinctFrom {β : Type} (f : β → α) (ys : List β) :
    (distinctFrom (fun y => key (f y)) seen ys).map f = distinctFrom key seen (ys.map f) := by
  induction ys generalizing seen with
  | nil => rfl
  | cons y rest ih =>
    simp only [distinctFrom, List.map_cons]
    split
    · exact ih
    · rw [List.map_cons, ih]

omit [LawfulBEq κ] in
/-- What is kept depends on the keys alone. -/
theorem map_distinctBy {β : Type} (key : α → κ) (f : β → α) (ys : List β) :
    (distinctBy (fun y => key (f y)) ys).map f = distinctBy key (ys.map f) :=
  map_distinctFrom f ys

/-- No key is kept twice. -/
theorem nodup_distinctBy : ((distinctBy key xs).map key).Nodup := by
  have unseen : ∀ seen, (∀ x ∈ distinctFrom key seen xs, key x ∉ seen) ∧
      ((distinctFrom key seen xs).map key).Nodup := by
    induction xs with
    | nil => simp [distinctFrom]
    | cons x rest ih =>
      intro seen
      rw [distinctFrom]
      split
      · exact ih seen
      · rename_i fresh
        obtain ⟨others, distinct⟩ := ih (key x :: seen)
        rw [List.forall_mem_cons, List.map_cons, List.nodup_cons, List.mem_map]
        refine ⟨⟨by simpa using fresh, fun y kept => ?_⟩, ?_, distinct⟩
        · exact fun known => others y kept (List.mem_cons_of_mem _ known)
        · rintro ⟨y, kept, same⟩
          exact others y kept (same ▸ List.mem_cons_self)
  exact (unseen []).2

/-- No element is kept twice where elements are their own keys. -/
theorem nodup_distinct {α : Type} [BEq α] [LawfulBEq α] {xs : List α} : (distinct xs).Nodup := by
  have keys : ((distinctBy id xs).map id).Nodup := nodup_distinctBy
  rwa [List.map_id] at keys

/-- A search for a key finds what it finds among all elements. -/
theorem find?_distinctBy :
    (distinctBy key xs).find? (key · == k) = xs.find? (key · == k) := by
  have searched : ∀ seen, k ∉ seen →
      (distinctFrom key seen xs).find? (key · == k) = xs.find? (key · == k) := by
    induction xs with
    | nil => exact fun seen unseen => rfl
    | cons x rest ih =>
      intro seen unseen
      by_cases hit : key x = k
      · subst hit
        rw [distinctFrom, if_neg (by simpa using unseen), List.find?_cons_of_pos (by simp),
          List.find?_cons_of_pos (by simp)]
      · rw [distinctFrom, List.find?_cons_of_neg (by simpa using hit)]
        split
        · exact ih seen unseen
        · rw [List.find?_cons_of_neg (by simpa using hit), ih]
          exact fun known => (List.mem_cons.mp known).elim (fun same => hit same.symm) unseen
  exact searched [] List.not_mem_nil

end PageBuild
