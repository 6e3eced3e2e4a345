import Mathlib.Data.List.Lex
import Mathlib.Data.Prod.Lex
import PageBuild.Proofs.Distinct

/-!
# Lists in order of place

A walk meets values at places: positions of a list, or paths of a tree. `Enumerates occurs xs` says
that a list holds exactly the values that occur, each as often as it occurs, in the order of their
places. What the operations on lists do to such a walk is stated once here; the first occurrences are
what is left where each key is kept once (`Enumerates.distinctBy`).
-/
namespace PageBuild

variable {ι κ π α β γ : Type}

/-- Whether a list holds the values that occur at places, in the order of the places. -/
def Enumerates [LT ι] (occurs : ι → α → Prop) (xs : List α) : Prop :=
  ∃ placed : List (ι × α), placed.map Prod.snd = xs ∧
    placed.Pairwise (fun first second => first.1 < second.1) ∧
    ∀ place x, (place, x) ∈ placed ↔ occurs place x

/-- Whether a value occurs at a place, and no value of its key before this place. -/
def FirstOccurs [LE ι] (occurs : ι → α → Prop) (key : α → γ) (place : ι) (x : α) : Prop :=
  occurs place x ∧ ∀ other y, occurs other y → key y = key x → place ≤ other

/-- What is made one to one of values occurs first where they do. -/
theorem firstOccurs_map [LE ι] {occurs : ι → α → Prop} {make : α → β} (distinct : make.Injective)
    {place : ι} {y : β} :
    FirstOccurs (fun place y => ∃ x, occurs place x ∧ make x = y) id place y ↔
      ∃ x, FirstOccurs occurs id place x ∧ make x = y := by
  constructor
  · rintro ⟨⟨x, occurs, rfl⟩, first⟩
    refine ⟨x, ⟨occurs, fun other x' occurs' same => ?_⟩, rfl⟩
    exact first other _ ⟨x', occurs', rfl⟩ (congrArg make same)
  · rintro ⟨x, ⟨occurs, first⟩, rfl⟩
    refine ⟨⟨x, occurs, rfl⟩, ?_⟩
    rintro other _ ⟨x', occurs', rfl⟩ same
    exact first other x' occurs' (distinct same)

namespace Enumerates

section Order

variable [LT ι] {occurs occurs' : ι → α → Prop} {xs ys : List α}

/-- The values of the list are those that occur. -/
theorem mem_iff (enumerates : Enumerates occurs xs) {x : α} :
    x ∈ xs ↔ ∃ place, occurs place x := by
  obtain ⟨placed, rfl, -, each⟩ := enumerates
  simp only [List.mem_map, Prod.exists, each, exists_eq_right]

/-- What occurs may be said in another way. -/
theorem congr (enumerates : Enumerates occurs xs)
    (same : ∀ place x, occurs place x ↔ occurs' place x) : Enumerates occurs' xs := by
  obtain ⟨placed, values, ordered, each⟩ := enumerates
  exact ⟨placed, values, ordered, fun place x => (each place x).trans (same place x)⟩

/-- Where nothing occurs, nothing is listed. -/
theorem nil (none : ∀ place x, ¬occurs place x) : Enumerates occurs [] :=
  ⟨[], rfl, .nil, fun place x => by simp [none place x]⟩

/-- One value that occurs at one place. -/
theorem singleton (place : ι) (x : α) :
    Enumerates (fun other y => other = place ∧ y = x) [x] :=
  ⟨[(place, x)], rfl, List.pairwise_singleton _ _, by simp⟩

/-- Values that all occur before others. -/
theorem append (front : Enumerates occurs xs) (back : Enumerates occurs' ys)
    (before : ∀ {place x other y}, occurs place x → occurs' other y → place < other) :
    Enumerates (fun place x => occurs place x ∨ occurs' place x) (xs ++ ys) := by
  obtain ⟨placed, rfl, ordered, each⟩ := front
  obtain ⟨placed', rfl, ordered', each'⟩ := back
  refine ⟨placed ++ placed', List.map_append, ?_, fun place x => ?_⟩
  · refine List.pairwise_append.mpr ⟨ordered, ordered', ?_⟩
    rintro ⟨place, x⟩ member ⟨other, y⟩ member'
    exact before ((each place x).mp member) ((each' other y).mp member')
  · rw [List.mem_append, each, each']

/-- Values under other places in the same order. -/
theorem relabel [LT κ] (move : ι → κ) (enumerates : Enumerates occurs xs)
    (rises : ∀ {place other}, place < other → move place < move other) :
    Enumerates (fun other x => ∃ place, other = move place ∧ occurs place x) xs := by
  obtain ⟨placed, rfl, ordered, each⟩ := enumerates
  refine ⟨placed.map (Prod.map move id), ?_, ?_, fun other x => ?_⟩
  · simp [Function.comp_def]
  · exact List.pairwise_map.mpr (ordered.imp rises)
  · simp only [List.mem_map, Prod.exists, Prod.map_apply, id_eq, Prod.mk.injEq, each]
    constructor
    · rintro ⟨place, _, occurs, rfl, rfl⟩
      exact ⟨place, rfl, occurs⟩
    · rintro ⟨place, rfl, occurs⟩
      exact ⟨place, x, occurs, rfl, rfl⟩

/-- What is made of some of the values. -/
theorem filterMap (enumerates : Enumerates occurs xs) (make : α → Option β) :
    Enumerates (fun place y => ∃ x, occurs place x ∧ make x = some y) (xs.filterMap make) := by
  obtain ⟨placed, rfl, ordered, each⟩ := enumerates
  refine ⟨placed.filterMap fun item => (make item.2).map (item.1, ·), ?_, ?_, fun place y => ?_⟩
  · rw [List.map_filterMap, List.filterMap_map]
    refine List.filterMap_congr fun item _ => ?_
    simp [Function.comp_def]
  · refine ordered.filterMap _ fun first second before made kept made' kept' => ?_
    obtain ⟨y, -, rfl⟩ := Option.map_eq_some_iff.mp kept
    obtain ⟨y', -, rfl⟩ := Option.map_eq_some_iff.mp kept'
    exact before
  · simp only [List.mem_filterMap, Option.map_eq_some_iff, Prod.exists, Prod.mk.injEq]
    constructor
    · rintro ⟨place, x, member, y, made, rfl, rfl⟩
      exact ⟨x, (each place x).mp member, made⟩
    · rintro ⟨x, occurs, made⟩
      exact ⟨place, x, (each place x).mpr occurs, y, made, rfl, rfl⟩

/-- What is made of all values. -/
theorem map (enumerates : Enumerates occurs xs) (make : α → β) :
    Enumerates (fun place y => ∃ x, occurs place x ∧ make x = y) (xs.map make) := by
  rw [← List.filterMap_eq_map]
  exact (enumerates.filterMap _).congr fun place y => by simp

/-- The values that pass a test. -/
theorem filter (enumerates : Enumerates occurs xs) (test : α → Bool) :
    Enumerates (fun place x => occurs place x ∧ test x = true) (xs.filter test) := by
  rw [← List.filterMap_eq_filter]
  refine (enumerates.filterMap _).congr fun place x => ?_
  simp only [Option.guard_eq_some_iff]
  constructor
  · rintro ⟨_, occurs, rfl, passes⟩
    exact ⟨occurs, passes⟩
  · rintro ⟨occurs, passes⟩
    exact ⟨x, occurs, rfl, passes⟩

/-- Lists in order of place, one after the other: places join the place of a list and the place in
it. -/
theorem flatMap [LT κ] [LT π] {inside : α → κ → β → Prop} {make : α → List β} (join : ι → κ → π)
    (enumerates : Enumerates occurs xs) (inner : ∀ x ∈ xs, Enumerates (inside x) (make x))
    (apart : ∀ {place other deep deep'}, place < other → join place deep < join other deep')
    (within : ∀ {place deep deep'}, deep < deep' → join place deep < join place deep') :
    Enumerates (fun whole y => ∃ place x deep, whole = join place deep ∧ occurs place x ∧
      inside x deep y) (xs.flatMap make) := by
  obtain ⟨placed, rfl, ordered, each⟩ := enumerates
  suffices joined : Enumerates (fun whole y => ∃ place x deep, whole = join place deep ∧
      (place, x) ∈ placed ∧ inside x deep y) ((placed.map Prod.snd).flatMap make) from
    joined.congr fun whole y => by simp only [each]
  clear each
  induction placed with
  | nil => exact .nil fun whole y => by simp
  | cons item placed ih =>
    obtain ⟨place, x⟩ := item
    obtain ⟨first, ordered⟩ := List.pairwise_cons.mp ordered
    have head := (inner x List.mem_cons_self).relabel (join place) within
    have tail := ih (fun x member => inner x (List.mem_cons_of_mem _ member)) ordered
    rw [List.map_cons, List.flatMap_cons]
    refine (head.append tail ?_).congr fun whole y => ?_
    · rintro _ y _ y' ⟨deep, rfl, -⟩ ⟨other, x', deep', rfl, member, -⟩
      exact apart (first _ member)
    · simp only [List.mem_cons, Prod.mk.injEq]
      constructor
      · rintro (⟨deep, rfl, occurs⟩ | ⟨other, x', deep, rfl, member, occurs⟩)
        · exact ⟨place, x, deep, rfl, .inl ⟨rfl, rfl⟩, occurs⟩
        · exact ⟨other, x', deep, rfl, .inr member, occurs⟩
      · rintro ⟨other, x', deep, rfl, ⟨rfl, rfl⟩ | member, occurs⟩
        · exact .inl ⟨deep, rfl, occurs⟩
        · exact .inr ⟨other, x', deep, rfl, member, occurs⟩

end Order

/-- A list holds the values at its positions. -/
theorem getElem? (xs : List α) : Enumerates (fun (place : Nat) x => xs[place]? = some x) xs := by
  refine ⟨xs.zipIdx.map Prod.swap, ?_, ?_, fun place x => ?_⟩
  · rw [List.map_map]
    exact List.zipIdx_map_fst 0 xs
  · have positions : (xs.zipIdx.map Prod.snd).Pairwise (· < ·) := by
      rw [List.zipIdx_map_snd]
      exact List.pairwise_lt_range'
    exact List.pairwise_map.mpr (List.pairwise_map.mp positions)
  · dsimp only
    rw [← List.mk_mem_zipIdx_iff_getElem?, List.mem_map]
    constructor
    · rintro ⟨⟨y, other⟩, member, same⟩
      obtain ⟨rfl, rfl⟩ := Prod.mk.inj same
      exact member
    · exact fun member => ⟨(x, place), member, rfl⟩

/-- Where each key is kept once, the values that occur first are left. -/
theorem distinctBy [Preorder ι] [BEq γ] [LawfulBEq γ] {occurs : ι → α → Prop} {xs : List α}
    (enumerates : Enumerates occurs xs) (key : α → γ) :
    Enumerates (FirstOccurs occurs key) (PageBuild.distinctBy key xs) := by
  obtain ⟨placed, rfl, ordered, each⟩ := enumerates
  refine ⟨PageBuild.distinctBy (fun item => key item.2) placed, map_distinctBy key Prod.snd placed,
    ordered.sublist distinctBy_sublist, fun place x => ?_⟩
  rw [mem_distinctBy, FirstOccurs, ← each]
  constructor
  · rintro ⟨before, after, rfl, others⟩
    refine ⟨by simp, fun other y occurs same => ?_⟩
    obtain ⟨-, behind, -⟩ := List.pairwise_append.mp ordered
    rcases List.mem_append.mp ((each other y).mpr occurs) with early | late
    · exact absurd same (others (other, y) early)
    · rcases List.mem_cons.mp late with here | later
      · rw [(Prod.mk.inj here).1]
      · exact le_of_lt ((List.pairwise_cons.mp behind).1 _ later)
  · rintro ⟨member, first⟩
    obtain ⟨before, after, rfl⟩ := List.append_of_mem member
    refine ⟨before, after, rfl, fun item early same => ?_⟩
    obtain ⟨-, -, earlier⟩ := List.pairwise_append.mp ordered
    have occurs := (each item.1 item.2).mp (List.mem_append_left _ early)
    exact lt_irrefl _ ((earlier item early _ List.mem_cons_self).trans_le
      (first item.1 item.2 occurs same))

end Enumerates

end PageBuild
