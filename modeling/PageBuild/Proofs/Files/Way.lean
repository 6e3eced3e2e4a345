import PageBuild.Proofs.Files.Locate

/-!
# Ways of paths

To follow a path is to go from where it starts through the locations that its pieces lead to, one
after the other. A path avoids a territory if none of these locations lies in it; then so do the
paths to the directories on the way, and a name below it avoids the territory unless it enters it.
-/
namespace PageBuild.Path

variable {territory : Location → Prop} {here : Location} {path parent : Path}

/-! ## Parents -/

/-- A path starts at the root if an empty piece and others follow. -/
theorem isAbsolute_iff_pieces :
    path.isAbsolute = true ↔ ∃ second rest, path.pieces = "" :: second :: rest := by
  rw [isAbsolute, beq_iff_eq, List.head?_eq_some_iff]
  constructor
  · rintro ⟨chars, text⟩
    have split : path.pieces = "" :: Text.split '/' (String.ofList chars) := by
      simp [pieces, Text.split, text, Text.splitChars]
    cases others : Text.split '/' (String.ofList chars) with
    | nil => exact absurd others (Text.split_ne_nil _)
    | cons second rest => exact ⟨second, rest, by rw [split, others]⟩
  · rintro ⟨second, rest, pieces⟩
    have text : Text.join '/' path.pieces = path.text := Text.join_split path.text
    rw [pieces, Text.join_cons_cons] at text
    exact ⟨_, by rw [← text]; simp; rfl⟩

/-- The stem of a path are its first pieces. -/
theorem stem_isPrefix (path : Path) : path.stem <+: path.pieces := by
  rcases path.pieces_eq_stem with whole | whole
  · exact ⟨[], by rw [whole, List.append_nil]⟩
  · exact ⟨[""], whole.symm⟩

/-- Pieces without those at the end that are no steps are the first of them. -/
theorem withoutTrailing_isPrefix (pieces : List String) : withoutTrailing pieces <+: pieces := by
  cases pieces with
  | nil => exact List.prefix_rfl
  | cons first rest =>
    rw [withoutTrailing, List.prefix_cons_inj, ← List.reverse_suffix, List.reverse_reverse]
    exact List.dropWhile_suffix _

/-- Two paths that start with the same piece and go on start at the same place. -/
theorem isAbsolute_eq {start : String} {rest more : List String} (pieces : path.pieces = start :: rest)
    (others : parent.pieces = start :: more) (alike : start = "" → (rest = [] ↔ more = [])) :
    parent.isAbsolute = path.isAbsolute := by
  rw [Bool.eq_iff_iff, isAbsolute_iff_pieces, isAbsolute_iff_pieces, pieces, others]
  cases rest <;> cases more <;> simp_all

/-- The pieces of the path to a directory are the first of those that lead on from it. -/
theorem exists_of_parent? (found : path.parent? = some parent) :
    parent.isAbsolute = path.isAbsolute ∧
      ∃ first, first <+: (withoutTrailing path.pieces).dropLast ∧
        (parent.pieces = first ∨ parent.pieces = first ++ [""]) := by
  obtain ⟨start, steps, whole⟩ : ∃ start steps, path.pieces = start :: steps :=
    List.exists_cons_of_ne_nil (Text.split_ne_nil path.text)
  obtain ⟨left, trimmed⟩ : ∃ left, withoutTrailing path.pieces = start :: left :=
    ⟨_, by rw [whole, withoutTrailing]⟩
  have within : start :: left <+: path.pieces := trimmed ▸ withoutTrailing_isPrefix path.pieces
  rw [parent?, trimmed] at found
  split at found
  · cases found
  · rename_i other
    split at found
    · rename_i short
      obtain rfl : left = [] := by simpa using short
      cases found
      have filled : start ≠ "" := by simpa using other
      refine ⟨?_, [], List.nil_prefix, .inr rfl⟩
      cases absolute : path.isAbsolute with
      | false => rfl
      | true =>
        obtain ⟨second, rest, pieces⟩ := isAbsolute_iff_pieces.mp absolute
        exact absurd (List.cons.inj (whole.symm.trans pieces)).1 filled
    · rename_i long
      obtain ⟨second, more, rfl⟩ : ∃ second more, left = second :: more := by
        cases left with
        | nil => simp at long
        | cons second more => exact ⟨second, more, rfl⟩
      have going : steps ≠ [] := by
        rintro rfl
        simp [whole] at within
      obtain ⟨rest, cut⟩ : ∃ rest,
          withoutTrailing (start :: second :: more).dropLast = start :: rest :=
        ⟨_, by rw [List.dropLast_cons_cons, withoutTrailing]⟩
      have first : start :: rest <+: (withoutTrailing path.pieces).dropLast :=
        trimmed ▸ cut ▸ withoutTrailing_isPrefix _
      have inside : start :: rest <+: path.pieces :=
        first.trans ((List.dropLast_prefix _).trans (withoutTrailing_isPrefix _))
      rw [cut, ofPieces] at found
      split at found
      · rename_i root
        obtain ⟨rfl, rfl⟩ := List.cons.inj root
        cases found
        have pieces : (Path.mk "/").pieces = ["", ""] := by decide
        exact ⟨isAbsolute_eq whole pieces (by simp [going]), _, first, .inr pieces⟩
      · rename_i below
        cases found
        have pieces : (Path.mk (Text.join '/' (start :: rest))).pieces = start :: rest :=
          Text.split_join (by simp) fun piece member =>
            Text.not_mem_of_mem_split (inside.subset member)
        refine ⟨isAbsolute_eq whole pieces fun blank => ?_, _, first, .inl pieces⟩
        simpa [going, blank] using below

/-! ## Ways -/

/-- Where a path starts from a directory. -/
def start (path : Path) (here : Location) : Location := if path.isAbsolute then [] else here

/-- Whether no location that a path leads through lies in a territory. -/
def Avoids (territory : Location → Prop) (here : Location) (path : Path) : Prop :=
  ∀ first, first <+: path.pieces → ¬territory (first.foldl Location.step (path.start here))

/-- The place of a path that avoids a territory does not lie in it. -/
theorem Avoids.place (avoids : path.Avoids territory here) : ¬territory (path.place here) :=
  avoids path.pieces List.prefix_rfl

/-- The path to a directory on the way avoids what the path avoids. -/
theorem Avoids.of_parent? (avoids : path.Avoids territory here) (found : path.parent? = some parent) :
    parent.Avoids territory here := by
  obtain ⟨absolute, whole, shorter, pieces⟩ := exists_of_parent? found
  have within : whole <+: path.pieces :=
    shorter.trans ((List.dropLast_prefix _).trans (withoutTrailing_isPrefix _))
  intro first leads
  rw [start, absolute, ← start]
  rcases pieces with pieces | pieces
  · exact avoids first ((pieces ▸ leads).trans within)
  · rw [pieces, List.prefix_concat_iff] at leads
    rcases leads with rfl | leads
    · rw [List.foldl_append]
      exact avoids whole within
    · exact avoids first (leads.trans within)

/-- A join with one piece that does not enter a territory avoids it like the path. -/
theorem Avoids.join {piece : String} (avoids : path.Avoids territory here)
    (single : (Path.mk piece).pieces = [piece]) (relative : (Path.mk piece).isAbsolute = false)
    (outside : ¬territory ((path.join ⟨piece⟩).place here)) :
    (path.join ⟨piece⟩).Avoids territory here := by
  intro first leads
  have pieces : (path.join ⟨piece⟩).pieces = path.stem ++ [piece] := by
    rw [pieces_join relative, single]
  rw [pieces, List.prefix_concat_iff] at leads
  rcases leads with rfl | leads
  · rw [← pieces]
    exact outside
  · rw [start, isAbsolute_join relative, ← start]
    exact avoids first (leads.trans path.stem_isPrefix)

/-- A name at the end stays. -/
theorem withoutTrailing_concat {name : String} (isName : IsName name) (pieces : List String) :
    withoutTrailing (pieces ++ [name]) = pieces ++ [name] := by
  have step : isBlankPiece name = false := by simp [isBlankPiece, isName.2.1, isName.2.2.1]
  cases pieces with
  | nil => rfl
  | cons first rest => simp [withoutTrailing, step]

/-- A path to a name in a directory of a name has the path to the directory as its parent. -/
theorem parent?_join {name other : String} (isName : IsName name) (isOther : IsName other)
    (path : Path) : ((path.join ⟨name⟩).join ⟨other⟩).parent? = some (path.join ⟨name⟩) := by
  have pieces : (path.join ⟨name⟩).pieces = path.stem ++ [name] := by
    rw [pieces_join isName.isAbsolute, isName.pieces]
  have stem : (path.join ⟨name⟩).stem = path.stem ++ [name] := by
    rw [Path.stem, pieces, List.getLast?_concat, if_neg (by simpa using isName.2.1)]
  rw [parent?, pieces_join isOther.isAbsolute, isOther.pieces, withoutTrailing_concat isOther, stem]
  have filled : path.stem ++ [name] ≠ [""] := by
    intro blank
    have member : name ∈ path.stem ++ [name] := by simp
    rw [blank, List.mem_singleton] at member
    exact isName.2.1 member
  rw [if_neg (by intro single; simpa using congrArg List.length single), if_neg (by simp),
    List.dropLast_concat, withoutTrailing_concat isName, ofPieces, if_neg filled, ← pieces,
    Path.pieces, Text.join_split]

/-- Whether a path leads through a location. -/
def Leads (path : Path) (here place : Location) : Prop :=
  ∃ first, first <+: path.pieces ∧ first.foldl Location.step (path.start here) = place

/-- A path leads to its place. -/
theorem leads_place (path : Path) (here : Location) : path.Leads here (path.place here) :=
  ⟨path.pieces, List.prefix_rfl, rfl⟩

/-- What a path leads through avoids what the path avoids. -/
theorem Avoids.of_leads (avoids : path.Avoids territory here) {place : Location}
    (leads : path.Leads here place) : ¬territory place := by
  obtain ⟨first, leads, rfl⟩ := leads
  exact avoids first leads

/-- A path avoids what it does not lead through. -/
theorem avoids_iff : path.Avoids territory here ↔ ∀ place, path.Leads here place → ¬territory place :=
  ⟨fun avoids _ leads => avoids.of_leads leads, fun avoids first leads => avoids _ ⟨first, leads, rfl⟩⟩

/-- The path to a directory on the way leads through no more than the path. -/
theorem Leads.of_parent? {place : Location} (leads : parent.Leads here place)
    (found : path.parent? = some parent) : path.Leads here place := by
  by_contra apart
  have avoids : path.Avoids (· = place) here := by
    rintro first within rfl
    exact apart ⟨first, within, rfl⟩
  exact (avoids.of_parent? found).of_leads leads rfl

/-- A join leads through what the path leads through, and from its place on. -/
theorem Leads.of_join {other : Path} {place : Location} (leads : (path.join other).Leads here place)
    (relative : other.isAbsolute = false) :
    path.Leads here place ∨
      ∃ first, first <+: other.pieces ∧ first.foldl Location.step (path.place here) = place := by
  obtain ⟨first, within, rfl⟩ := leads
  rw [start, isAbsolute_join relative, ← start]
  rw [pieces_join relative] at within
  rcases List.prefix_or_prefix_of_prefix within (List.prefix_append _ _) with inside | ⟨more, rfl⟩
  · exact .inl ⟨first, inside.trans path.stem_isPrefix, rfl⟩
  · rw [List.prefix_append_right_inj] at within
    exact .inr ⟨more, within, by rw [List.foldl_append, foldl_stem, place, start]⟩

/-- A join leads through what the path leads through. -/
theorem Leads.join {other : Path} {place : Location} (leads : path.Leads here place)
    (relative : other.isAbsolute = false) : (path.join other).Leads here place := by
  obtain ⟨first, within, rfl⟩ := leads
  have through : path.stem <+: (path.join other).pieces := by
    rw [pieces_join relative]
    exact List.prefix_append _ _
  rw [Leads, start, isAbsolute_join relative, ← start]
  rcases path.pieces_eq_stem with whole | whole
  · exact ⟨first, (whole ▸ within).trans through, rfl⟩
  · rw [whole, List.prefix_concat_iff] at within
    rcases within with rfl | within
    · exact ⟨path.stem, through, by rw [List.foldl_append]; rfl⟩
    · exact ⟨first, within.trans through, rfl⟩

/-- A join with one piece leads through what the path leads through, and to its own place. -/
theorem Leads.of_join_single {piece : String} {place : Location}
    (leads : (path.join ⟨piece⟩).Leads here place) (single : (Path.mk piece).pieces = [piece])
    (relative : (Path.mk piece).isAbsolute = false) :
    path.Leads here place ∨ place = (path.join ⟨piece⟩).place here := by
  rcases leads.of_join relative with leads | ⟨first, within, rfl⟩
  · exact .inl leads
  · rw [single, List.prefix_cons_iff] at within
    rcases within with rfl | ⟨rest, rfl, within⟩
    · exact .inl (path.leads_place here)
    · rw [List.prefix_nil.mp within, place_join relative, single]
      exact .inr rfl

/-- The path to where a name stands leads through what the path before the name leads through. -/
theorem Leads.of_parent?_join {name : String} {place : Location} (leads : parent.Leads here place)
    (isName : IsName name) (found : (path.join ⟨name⟩).parent? = some parent) :
    path.Leads here place := by
  obtain ⟨absolute, whole, within, pieces⟩ := exists_of_parent? found
  rw [pieces_join isName.isAbsolute, isName.pieces, withoutTrailing_concat isName,
    List.dropLast_concat] at within
  obtain ⟨first, leads, rfl⟩ := leads
  rw [start, absolute, isAbsolute_join isName.isAbsolute, ← start]
  have whole_leads : path.Leads here (whole.foldl Location.step (path.start here)) :=
    ⟨whole, within.trans path.stem_isPrefix, rfl⟩
  rcases pieces with pieces | pieces
  · exact ⟨first, (pieces ▸ leads).trans (within.trans path.stem_isPrefix), rfl⟩
  · rw [pieces, List.prefix_concat_iff] at leads
    rcases leads with rfl | leads
    · rwa [List.foldl_append]
    · exact ⟨first, leads.trans (within.trans path.stem_isPrefix), rfl⟩

/-- Pieces that never go up lead down. -/
theorem isPrefix_foldl {pieces : List String} (straight : ".." ∉ pieces) (location : Location) :
    location <+: pieces.foldl Location.step location := by
  induction pieces generalizing location with
  | nil => exact List.prefix_rfl
  | cons piece rest ih =>
    obtain ⟨down, others⟩ := not_or.mp (mt List.mem_cons.mpr straight)
    refine List.IsPrefix.trans ?_ (ih others (location.step piece))
    rw [Location.step, if_neg (Ne.symm down)]
    split
    · exact List.prefix_rfl
    · exact List.prefix_append _ _

/-- A join with a path that never goes up leads to, or below, where the path leads. -/
theorem isPrefix_place_join {other : Path} (relative : other.isAbsolute = false)
    (straight : ".." ∉ other.pieces) : path.place here <+: (path.join other).place here := by
  rw [place_join relative]
  exact isPrefix_foldl straight _

/-- A join with a path that never goes up leads through what the path leads through and, from its place
on, down. -/
theorem Leads.of_join_straight {other : Path} {place : Location}
    (leads : (path.join other).Leads here place) (relative : other.isAbsolute = false)
    (straight : ".." ∉ other.pieces) : path.Leads here place ∨ path.place here <+: place := by
  rcases leads.of_join relative with leads | ⟨first, within, rfl⟩
  · exact .inl leads
  · exact .inr (isPrefix_foldl (fun member => straight (within.subset member)) _)

/-- A path that never goes up avoids a territory that its place does not lie below. -/
theorem avoids_of_straight (straight : ".." ∉ path.pieces)
    (apart : ∀ location, location <+: path.place here → ¬territory location) :
    path.Avoids territory here := by
  rintro first ⟨rest, pieces⟩
  refine apart _ ?_
  rw [place, ← start, ← pieces, List.foldl_append]
  exact isPrefix_foldl (fun member => straight (pieces ▸ List.mem_append_right _ member)) _

/-- A path that never goes up leads through what its place lies below. -/
theorem Leads.of_straight {place : Location} (leads : path.Leads here place)
    (straight : ".." ∉ path.pieces) : place <+: path.place here := by
  have avoids : path.Avoids (fun location => ¬location <+: path.place here) here :=
    avoids_of_straight straight fun location above => not_not.mpr above
  exact not_not.mp (avoids.of_leads leads)

end PageBuild.Path
