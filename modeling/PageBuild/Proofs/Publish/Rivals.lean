import PageBuild.Proofs.Publish.Entry

/-!
# Files that share a key

Each file of an output directory is kept under two keys, the pinned and the latest one, and both come
from its path. The segment of the release target is left out of keys, and the first segment that is the
version becomes another one, so two files can share a key: `Publisher.Rivals` lists how. Apart from
that, keys name one file each (`Publisher.keys_meet_iff`).
-/
namespace PageBuild.Publisher

variable {publisher : Publisher} {app : AppInfo} {environment : Environment} {version : String}
  {first second segments names : List String}

/-! ## Segments -/

/-- The segments that the key of a file ends in, from the names below the output directory. -/
def keySegments : Environment → List String → List String
  | .pro, "pro" :: second :: rest => second :: rest
  | _, names => names

/-- There are segments where there are names. -/
theorem keySegments_ne_nil (some : names ≠ []) : keySegments environment names ≠ [] := by
  rw [keySegments.eq_def]
  split
  · simp
  · exact some

/-- The segments are among the names. -/
theorem mem_of_mem_keySegments {segment : String}
    (member : segment ∈ keySegments environment names) : segment ∈ names := by
  rw [keySegments.eq_def] at member
  split at member
  · exact List.mem_cons_of_mem _ member
  · exact member

/-- A text that goes on after the name of the release target starts with this name. -/
theorem split_pro {text : String} {rest : List Char}
    (starts : text.toList = 'p' :: 'r' :: 'o' :: '/' :: rest) :
    Text.split '/' text = "pro" :: Text.split '/' (String.ofList rest) := by
  have whole : text = "pro" ++ "/" ++ String.ofList rest := by
    apply String.toList_injective
    simp [starts]
  rw [whole, Text.split_slash]
  rfl

/-- The key path of names are their segments. -/
theorem keyPath_join (named : ∀ name ∈ names, Path.IsName name) (some : names ≠ []) :
    keyPath environment (Text.join '/' names) = Text.join '/' (keySegments environment names) := by
  have pieces : Text.split '/' (Text.join '/' names) = names :=
    Text.split_join some fun name member => (named name member).1
  cases environment with
  | pro =>
    rw [keyPath]
    split
    · rename_i rest starts
      rw [split_pro starts] at pieces
      cases below : Text.split '/' (String.ofList rest) with
      | nil => exact absurd below (Text.split_ne_nil _)
      | cons second more =>
        rw [← pieces, below, keySegments, ← below, Text.join_split]
    · rename_i other
      rw [keySegments.eq_def]
      split
      · rename_i second rest same
        exact (other (Text.join '/' (second :: rest)).toList (by simp [Text.join_cons_cons])).elim
      · rfl
  | _ => rfl

/-! ## Latest segments -/

/-- Segments without the version are their own latest ones; in others the first version is replaced. -/
theorem latestSegments_cases (version : String) (segments : List String) :
    (version ∉ segments ∧ latestSegments version segments = segments) ∨
      ∃ before after, version ∉ before ∧ segments = before ++ version :: after ∧
        latestSegments version segments = before ++ "latest" :: after := by
  by_cases member : version ∈ segments
  · obtain ⟨before, after, rfl, apart⟩ := List.eq_append_cons_of_mem member
    exact .inr ⟨before, after, apart, rfl, latestSegments_append apart after⟩
  · refine .inl ⟨member, ?_⟩
    induction segments with
    | nil => rfl
    | cons segment rest ih =>
      rw [List.mem_cons, not_or] at member
      rw [latestSegments, if_neg (Ne.symm member.1), ih member.2]

/-- Segments other than those of a file are its latest ones only where it has the version. -/
theorem mem_of_mem_latestSegments {segment : String}
    (member : segment ∈ latestSegments version segments) : segment ∈ segments ∨ segment = "latest" := by
  rcases latestSegments_cases version segments with ⟨-, same⟩ | ⟨before, after, -, whole, same⟩
  · exact .inl (same ▸ member)
  · rw [same] at member
    rw [whole]
    simp only [List.mem_append, List.mem_cons] at member ⊢
    tauto

/-- There are latest segments where there are segments. -/
theorem latestSegments_ne_nil (some : segments ≠ []) : latestSegments version segments ≠ [] := by
  rcases latestSegments_cases version segments with ⟨-, same⟩ | ⟨before, after, -, -, same⟩
  · rwa [same]
  · simp [same]

/-! ## Rivals -/

/-- How two files share a key: both have the same segments, or one has "latest" where the other one has
its first version, or each has it where the other one has its first version. -/
inductive Rivals (version : String) : List String → List String → Prop
  | same (segments : List String) : Rivals version segments segments
  | latest {before : List String} (apart : version ∉ before) (after : List String) :
    Rivals version (before ++ version :: after) (before ++ "latest" :: after)
  | crossed {before between : List String} (apart : version ∉ before) (within : version ∉ between)
      (after : List String) :
    Rivals version (before ++ version :: (between ++ "latest" :: after))
      (before ++ "latest" :: (between ++ version :: after))
  | symm {first second : List String} (rivals : Rivals version first second) :
    Rivals version second first

/-- The segments of the keys of a file. -/
def keptUnder (version : String) (segments : List String) : List (List String) :=
  [segments, latestSegments version segments]

/-- A file is kept under its segments, and under its latest ones where it has the version. -/
theorem mem_keptUnder {shared : List String} :
    shared ∈ keptUnder version segments ↔
      shared = segments ∨ ∃ before after, version ∉ before ∧ segments = before ++ version :: after ∧
        shared = before ++ "latest" :: after := by
  simp only [keptUnder, List.mem_cons, List.not_mem_nil, or_false]
  rcases latestSegments_cases version segments with ⟨absent, plain⟩ | ⟨before, after, apart, rfl, replaced⟩
  · rw [plain, or_self]
    refine ⟨.inl, ?_⟩
    rintro (same | ⟨before, after, -, whole, -⟩)
    · exact same
    · exact absurd (by simp [whole]) absent
  · rw [replaced]
    refine or_congr_right ⟨fun same => ⟨before, after, apart, rfl, same⟩, ?_⟩
    rintro ⟨before', after', apart', whole, rfl⟩
    rw [← replaced, whole, latestSegments_append apart']

/-- Where both files have a version that is replaced, and the second one no earlier than the first one,
they are rivals. -/
theorem rivals_of_longer {before more after after' : List String} (apart : version ∉ before ++ more)
    (rest : "latest" :: after = more ++ "latest" :: after') :
    Rivals version (before ++ version :: after) (before ++ more ++ version :: after') := by
  rw [List.mem_append, not_or] at apart
  cases more with
  | nil =>
    obtain rfl := (List.cons.inj rest).2
    simpa using Rivals.same _
  | cons segment between =>
    obtain ⟨rfl, rfl⟩ := List.cons.inj rest
    have within : version ∉ between := fun member => apart.2 (List.mem_cons_of_mem _ member)
    simpa using Rivals.crossed apart.1 within after'

/-- Where both files have a version that is replaced, they are rivals if their latest segments are the
same. -/
theorem rivals_of_replaced {before before' after after' : List String} (apart : version ∉ before)
    (apart' : version ∉ before') (same : before ++ "latest" :: after = before' ++ "latest" :: after') :
    Rivals version (before ++ version :: after) (before' ++ version :: after') := by
  rcases List.append_eq_append_iff.mp same with ⟨more, rfl, rest⟩ | ⟨more, rfl, rest⟩
  · exact rivals_of_longer apart' rest
  · exact (rivals_of_longer apart rest).symm

/-- Two files share the segments of a key exactly if they are rivals. -/
theorem rivals_iff :
    Rivals version first second ↔
      ∃ shared, shared ∈ keptUnder version first ∧ shared ∈ keptUnder version second := by
  constructor
  · intro rivals
    induction rivals with
    | same segments => exact ⟨segments, mem_keptUnder.mpr (.inl rfl), mem_keptUnder.mpr (.inl rfl)⟩
    | latest apart after =>
      exact ⟨_, mem_keptUnder.mpr (.inr ⟨_, after, apart, rfl, rfl⟩), mem_keptUnder.mpr (.inl rfl)⟩
    | @crossed before between apart within after =>
      refine ⟨_, mem_keptUnder.mpr (.inr ⟨_, _, apart, rfl, rfl⟩), mem_keptUnder.mpr ?_⟩
      by_cases called : version = "latest"
      · exact .inl (by rw [called])
      · have apart' : version ∉ before ++ "latest" :: between := by
          simp [apart, within, called]
        exact .inr ⟨_, after, apart', by simp, by simp⟩
    | symm rivals ih =>
      obtain ⟨shared, left, right⟩ := ih
      exact ⟨shared, right, left⟩
  · rintro ⟨shared, left, right⟩
    rcases mem_keptUnder.mp left with rfl | ⟨before, after, apart, rfl, rfl⟩
    · rcases mem_keptUnder.mp right with rfl | ⟨before, after, apart, rfl, rfl⟩
      · exact .same shared
      · exact (Rivals.latest apart after).symm
    · rcases mem_keptUnder.mp right with rfl | ⟨before', after', apart', rfl, same⟩
      · exact .latest apart after
      · exact rivals_of_replaced apart apart' same

instance : Decidable (Rivals version first second) :=
  decidable_of_iff (∃ shared ∈ keptUnder version first, shared ∈ keptUnder version second)
    rivals_iff.symm

/-! ## Keys -/

/-- A key of segments. -/
def segmentKey (publisher : Publisher) (app : AppInfo) (segments : List String) : String :=
  publisher.projectKey app (Text.join '/' segments)

/-- Segments without slashes are known from their key. -/
theorem segmentKey_inj (apart : ∀ segment ∈ first, '/' ∉ segment.toList)
    (apart' : ∀ segment ∈ second, '/' ∉ segment.toList) (some : first ≠ []) (some' : second ≠ []) :
    publisher.segmentKey app first = publisher.segmentKey app second ↔ first = second := by
  refine ⟨fun same => ?_, fun same => by rw [same]⟩
  have joined : Text.join '/' first = Text.join '/' second := by
    simpa [segmentKey, projectKey] using same
  rw [← Text.split_join some apart, joined, Text.split_join some' apart']

/-- The keys of a file are those of the segments that it is kept under. -/
theorem distKeys_descend (named : ∀ name ∈ names, Path.IsName name) (some : names ≠ [])
    (dist : Path) :
    publisher.distKeys app environment dist (dist.descend names) =
      (keptUnder app.version (keySegments environment names)).map (publisher.segmentKey app) := by
  have apart : ∀ segment ∈ keySegments environment names, '/' ∉ segment.toList :=
    fun segment member => (named segment (mem_of_mem_keySegments member)).1
  rw [distKeys, Path.relativeKey_descend named, artifactKeys, keyPath_join named some]
  dsimp only
  rw [Text.split_join (keySegments_ne_nil some) apart]
  rfl

/-- A file of names is kept under segments that are names. -/
theorem isName_of_mem_keptUnder (named : ∀ name ∈ names, Path.IsName name) (some : names ≠ [])
    (member : segments ∈ keptUnder version (keySegments environment names)) :
    segments ≠ [] ∧ ∀ segment ∈ segments, Path.IsName segment := by
  have known : ∀ segment ∈ keySegments environment names, Path.IsName segment :=
    fun segment inner => named segment (mem_of_mem_keySegments inner)
  simp only [keptUnder, List.mem_cons, List.not_mem_nil, or_false] at member
  rcases member with rfl | rfl
  · exact ⟨keySegments_ne_nil some, known⟩
  · refine ⟨latestSegments_ne_nil (keySegments_ne_nil some), fun segment inner => ?_⟩
    rcases mem_of_mem_latestSegments inner with inner | rfl
    · exact known segment inner
    · decide

/-- Two files share a key exactly if their segments are rivals. -/
theorem keys_meet_iff (publisher : Publisher) (app : AppInfo) (environment : Environment)
    {names others : List String} (named : ∀ name ∈ names, Path.IsName name)
    (named' : ∀ name ∈ others, Path.IsName name) (some : names ≠ []) (some' : others ≠ [])
    (dist : Path) :
    (∃ key, key ∈ publisher.distKeys app environment dist (dist.descend names) ∧
        key ∈ publisher.distKeys app environment dist (dist.descend others)) ↔
      Rivals app.version (keySegments environment names) (keySegments environment others) := by
  rw [distKeys_descend named some, distKeys_descend named' some', rivals_iff]
  constructor
  · rintro ⟨key, left, right⟩
    obtain ⟨segments, member, rfl⟩ := List.mem_map.mp left
    obtain ⟨segments', member', same⟩ := List.mem_map.mp right
    obtain ⟨filled, isNames⟩ := isName_of_mem_keptUnder named some member
    obtain ⟨filled', isNames'⟩ := isName_of_mem_keptUnder named' some' member'
    obtain rfl := (segmentKey_inj (fun segment inner => (isNames' segment inner).1)
      (fun segment inner => (isNames segment inner).1) filled' filled).mp same
    exact ⟨_, member, member'⟩
  · rintro ⟨segments, left, right⟩
    exact ⟨publisher.segmentKey app segments, List.mem_map_of_mem left, List.mem_map_of_mem right⟩

end PageBuild.Publisher
