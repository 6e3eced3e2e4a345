import PageBuild.Proofs.Files.Frame
import PageBuild.Proofs.Files.Way

/-!
# What file operations cannot tell apart

Two machines whose files differ in a territory only are alike to every operation on paths that
avoid it: it ends alike on both, and neither looks at the territory nor changes anything there.
-/
namespace PageBuild

open PageBuild.Action (Twin TwinRuns)

/-- Whether the files of two machines are the same apart from a territory, in which each machine has
what is given. -/
structure Files.Alike (here : Location) (territory : Location → Prop)
    (mine theirs : Location → Option Entry) (left right : Files) : Prop where
  left_at : left.At here
  right_at : right.At here
  outside : ∀ place, ¬territory place → left.tree.find? place = right.tree.find? place
  left_inside : ∀ place, territory place → left.tree.find? place = mine place
  right_inside : ∀ place, territory place → right.tree.find? place = theirs place

/-- Whether two changes fail alike or make files that are alike. -/
inductive Files.Match (relation : Files → Files → Prop) :
    Except IoCause Files → Except IoCause Files → Prop
  | failed (cause : IoCause) : Match relation (.error cause) (.error cause)
  | changed {left right : Files} (related : relation left right) :
    Match relation (.ok left) (.ok right)

namespace Files

variable {here : Location} {territory : Location → Prop}
  {mine theirs : Location → Option Entry} {left right : Files} {path : Path}

/-! ## Looks -/

/-- Pieces that avoid a territory are followed alike. -/
theorem follow_eq {tree later : FileTree} {location : Location} {pieces : List String}
    (outside : ∀ place, ¬territory place → tree.find? place = later.find? place)
    (avoids : ∀ first, first <+: pieces → ¬territory (first.foldl Location.step location)) :
    follow tree location pieces = follow later location pieces := by
  induction pieces generalizing location with
  | nil => rfl
  | cons piece rest ih =>
    have onward : follow tree (location.step piece) rest = follow later (location.step piece) rest :=
      ih fun first leads => avoids (piece :: first) ((List.prefix_cons_inj piece).mpr leads)
    rw [Location.step] at onward
    rw [follow, follow, outside location (avoids [] List.nil_prefix)]
    split
    · rfl
    · rfl
    · by_cases blank : Path.isBlankPiece piece = true
      · simpa only [if_pos blank] using onward
      · by_cases up : piece = ".."
        · simpa only [if_neg blank, if_pos up] using onward
        · simp only [if_neg blank, if_neg up] at onward ⊢
          rw [onward]

namespace Alike

variable (alike : Alike here territory mine theirs left right)
include alike

/-- A path that avoids the territory is located alike. -/
theorem locate_eq (avoids : path.Avoids territory here) : left.locate path = right.locate path := by
  have followed : follow left.tree (path.start here) (steps path) =
      follow right.tree (path.start here) (steps path) := by
    refine follow_eq alike.outside fun first leads => avoids first (leads.trans ?_)
    rw [steps, ← List.reverse_suffix, List.reverse_reverse]
    exact List.dropWhile_suffix _
  rw [Path.start, steps] at followed
  rw [locate, locate, alike.left_at.here_eq, alike.right_at.here_eq]
  dsimp only
  rw [followed]

/-- What stands at a path that avoids the territory is the same. -/
theorem stat_eq (avoids : path.Avoids territory here) : left.stat path = right.stat path := by
  rw [stat, stat, ← alike.locate_eq avoids]
  cases located : left.locate path with
  | error cause => rfl
  | ok found =>
    obtain ⟨location, slashed⟩ := found
    dsimp only
    rw [alike.left_at.locate_eq located, alike.outside _ avoids.place]

/-- Whether something stands at such a path is the same. -/
theorem pathExists_eq (avoids : path.Avoids territory here) :
    left.pathExists path = right.pathExists path := by
  rw [pathExists, pathExists, alike.stat_eq avoids]

/-- Whether a directory stands at such a path is the same. -/
theorem isDirectory_eq (avoids : path.Avoids territory here) :
    left.isDirectory path = right.isDirectory path := by
  rw [isDirectory, isDirectory, alike.stat_eq avoids]

/-- The names in a directory that the territory does not lie below are the same. -/
theorem children_eq (avoids : path.Avoids territory here)
    (clear : ∀ place, path.place here <+: place → ¬territory place) :
    left.children path = right.children path := by
  rw [children, children, ← alike.locate_eq avoids]
  cases located : left.locate path with
  | error cause => rfl
  | ok found =>
    obtain ⟨location, slashed⟩ := found
    dsimp only
    rw [alike.left_at.locate_eq located]
    exact FileTree.children_eq fun names => alike.outside _ (clear _ (List.prefix_append _ _))

/-! ## Changes -/

/-- The same entry put outside the territory leaves the files alike. -/
theorem insert {location : Location} {entry : Entry} (below : location ≠ [])
    (outside : ¬territory location) (names : ∀ name ∈ location, Path.IsName name) :
    Alike here territory mine theirs (left.insert location entry) (right.insert location entry) := by
  have kept : ∀ {place}, territory place → place ≠ location := by
    rintro place inside rfl
    exact outside inside
  refine ⟨⟨alike.left_at.here_eq, alike.left_at.named.insert names entry, alike.left_at.here_named⟩,
    ⟨alike.right_at.here_eq, alike.right_at.named.insert names entry, alike.right_at.here_named⟩,
    fun place apart => ?_, fun place inside => ?_, fun place inside => ?_⟩
  · rw [Files.insert, Files.insert, FileTree.find?_insert _ _ _ _ below,
      FileTree.find?_insert _ _ _ _ below, alike.outside place apart]
  · rw [Files.insert, FileTree.find?_insert _ _ _ _ below, if_neg (kept inside),
      alike.left_inside place inside]
  · rw [Files.insert, FileTree.find?_insert _ _ _ _ below, if_neg (kept inside),
      alike.right_inside place inside]

/-- The same entries removed outside the territory leave the files alike. -/
theorem restrict {keep : Location → Bool} (kept : ∀ place, territory place → keep place = true) :
    Alike here territory mine theirs { left with tree := left.tree.restrict keep }
      { right with tree := right.tree.restrict keep } := by
  refine ⟨⟨alike.left_at.here_eq, alike.left_at.named.restrict keep, alike.left_at.here_named⟩,
    ⟨alike.right_at.here_eq, alike.right_at.named.restrict keep, alike.right_at.here_named⟩,
    fun place apart => ?_, fun place inside => ?_, fun place inside => ?_⟩
  · rw [FileTree.find?_restrict, FileTree.find?_restrict, alike.outside place apart]
  · rw [FileTree.find?_restrict, kept place inside, if_pos rfl, ← alike.left_inside place inside]
    split
    · rename_i root
      rw [root, FileTree.find?_nil]
    · rfl
  · rw [FileTree.find?_restrict, kept place inside, if_pos rfl, ← alike.right_inside place inside]
    split
    · rename_i root
      rw [root, FileTree.find?_nil]
    · rfl

/-- A directory is made alike. -/
theorem makeDirectory (avoids : path.Avoids territory here) :
    Match (Alike here territory mine theirs) (left.makeDirectory path)
      (right.makeDirectory path) := by
  rw [Files.makeDirectory, Files.makeDirectory, ← alike.locate_eq avoids]
  cases located : left.locate path with
  | error cause => exact .failed cause
  | ok found =>
    obtain ⟨location, slashed⟩ := found
    dsimp only
    rw [alike.left_at.locate_eq located, ← alike.outside _ avoids.place]
    cases stands : left.tree.find? (path.place here) with
    | some entry => exact .failed _
    | none =>
      refine .changed (alike.insert ?_ avoids.place (alike.left_at.place_named path))
      rintro root
      simp [root, FileTree.find?_nil] at stands

/-- A file is written alike. -/
theorem writeFile (avoids : path.Avoids territory here) (content : ByteArray) :
    Match (Alike here territory mine theirs) (left.writeFile path content)
      (right.writeFile path content) := by
  rw [Files.writeFile, Files.writeFile, ← alike.locate_eq avoids]
  cases located : left.locate path with
  | error cause => exact .failed cause
  | ok found =>
    obtain ⟨location, slashed⟩ := found
    dsimp only
    rw [alike.left_at.locate_eq located, ← alike.outside _ avoids.place]
    have wrote : path.place here ≠ [] → Match (Alike here territory mine theirs)
        (.ok (left.insert (path.place here) (.file content)))
        (.ok (right.insert (path.place here) (.file content))) :=
      fun below => .changed (alike.insert below avoids.place (alike.left_at.place_named path))
    cases stands : left.tree.find? (path.place here) with
    | none =>
      dsimp only
      split
      · exact .failed _
      · refine wrote fun root => ?_
        simp [root, FileTree.find?_nil] at stands
    | some entry =>
      cases entry with
      | directory => exact .failed _
      | file old =>
        dsimp only
        split
        · exact .failed _
        · refine wrote fun root => ?_
          simp [root, FileTree.find?_nil] at stands

/-- A file is copied alike. -/
theorem copyFile {source : Path} (sourceAvoids : source.Avoids territory here)
    (avoids : path.Avoids territory here) :
    Match (Alike here territory mine theirs) (left.copyFile source path)
      (right.copyFile source path) := by
  rw [Files.copyFile, Files.copyFile, ← alike.stat_eq sourceAvoids]
  split
  · exact .failed _
  · exact .failed _
  · have emptied := alike.writeFile avoids .empty
    generalize left.writeFile path .empty = first at emptied
    generalize right.writeFile path .empty = second at emptied
    cases emptied with
    | failed cause => exact .failed cause
    | @changed emptied emptied' related =>
      dsimp only
      rw [readFile, readFile, ← related.stat_eq sourceAvoids]
      split
      · exact .failed _
      · exact related.writeFile avoids _

/-- A text is appended alike. -/
theorem append {location : Location} (outside : ¬territory location) (more : ByteArray) :
    Alike here territory mine theirs (left.append location more) (right.append location more) := by
  rw [Files.append, Files.append, ← alike.outside location outside]
  split
  · rename_i old stands
    refine alike.insert ?_ outside (alike.left_at.named location _ stands)
    rintro rfl
    simp [FileTree.find?_nil] at stands
  · exact alike

/-- A file is removed alike. -/
theorem removeFile (avoids : path.Avoids territory here) :
    Match (Alike here territory mine theirs) (left.removeFile path) (right.removeFile path) := by
  rw [Files.removeFile, Files.removeFile, ← alike.locate_eq avoids]
  cases located : left.locate path with
  | error cause => exact .failed cause
  | ok found =>
    obtain ⟨location, slashed⟩ := found
    dsimp only
    rw [alike.left_at.locate_eq located, ← alike.outside _ avoids.place]
    split
    · exact .failed _
    · exact .failed _
    · split
      · exact .failed _
      · refine .changed (alike.restrict fun place inside => ?_)
        simp only [ne_eq, decide_not, Bool.not_eq_eq_eq_not, Bool.not_true, decide_eq_false_iff_not]
        rintro rfl
        exact avoids.place inside

/-- A directory that the territory does not lie below is removed alike. -/
theorem removeTree (avoids : path.Avoids territory here)
    (clear : ∀ place, path.place here <+: place → ¬territory place) :
    Match (Alike here territory mine theirs) (left.removeTree path) (right.removeTree path) := by
  rw [Files.removeTree, Files.removeTree, ← alike.locate_eq avoids]
  cases located : left.locate path with
  | error cause => exact .failed cause
  | ok found =>
    obtain ⟨location, slashed⟩ := found
    dsimp only
    rw [alike.left_at.locate_eq located, ← alike.outside _ avoids.place]
    split
    · exact .failed _
    · exact .failed _
    · refine .changed (alike.restrict fun place inside => ?_)
      rw [Bool.not_eq_true', Bool.eq_false_iff, ne_eq, List.isPrefixOf_iff_prefix]
      exact fun below => clear place below inside

end Alike

end Files

namespace FileM

variable {α : Type} {here : Location} {territory : Location → Prop}
  {mine theirs : Location → Option Entry} {path : Path}

/-! ## Actions -/

/-- A look that is the same on related files tells nothing apart. -/
theorem twin_look {relation : Files → Files → Prop} {view : Files → Except IoCause α}
    (same : ∀ left right, relation left right → view left = view right) :
    Twin relation (look view) := by
  refine Action.twin_get_bind fun left right related => ?_
  rw [same left right related]
  split <;> exact ⟨rfl, related⟩

/-- A change that ends alike on related files tells nothing apart. -/
theorem twin_change {relation : Files → Files → Prop} {update : Files → Except IoCause Files}
    (ends : ∀ left right, relation left right →
      Files.Match relation (update left) (update right)) :
    Twin relation (change update) := by
  refine Action.twin_get_bind fun left right related => ?_
  have ended := ends left right related
  generalize update left = first at ended
  generalize update right = second at ended
  cases ended with
  | failed cause => exact ⟨rfl, related⟩
  | changed related => exact ⟨rfl, related⟩

/-- The directories of a path that avoids a territory are made alike. -/
theorem twin_makeDirectories (depth : Nat) (avoids : path.Avoids territory here) :
    Twin (Files.Alike here territory mine theirs) (makeDirectories depth path) := by
  induction depth generalizing path with
  | zero => exact Action.twin_throw _
  | succ depth ih =>
    have refused : ∀ cause : IoCause, Twin (Files.Alike here territory mine theirs) (do
        if !(← get).isDirectory path then throw cause else pure () : FileM Unit) := by
      intro cause
      refine Action.twin_get_bind fun left right alike => ?_
      rw [alike.isDirectory_eq avoids]
      split <;> exact ⟨rfl, alike⟩
    rw [makeDirectories]
    split
    · exact Action.twin_pure _
    · refine Action.twin_get_bind fun left right alike => ?_
      have made := alike.makeDirectory avoids
      generalize left.makeDirectory path = first at made
      generalize right.makeDirectory path = second at made
      cases made with
      | changed related => exact ⟨rfl, related⟩
      | failed cause =>
        refine (?_ : Twin _ _) left right alike
        split
        · rename_i made
          cases made
        · split
          · exact Action.twin_throw _
          · rename_i parent found
            refine (ih (avoids.of_parent? found)).bind fun _ =>
              Action.twin_get_bind fun left right alike => ?_
            have made := alike.makeDirectory avoids
            generalize left.makeDirectory path = first at made
            generalize right.makeDirectory path = second at made
            cases made with
            | changed related => exact ⟨rfl, related⟩
            | failed cause => exact refused cause left right alike
        · exact refused _

/-- The directories that such a path lies in are made alike. -/
theorem twin_ensureParent (avoids : path.Avoids territory here) :
    Twin (Files.Alike here territory mine theirs) (ensureParent path) := by
  rw [ensureParent]
  split
  · rename_i parent found
    exact twin_makeDirectories _ (avoids.of_parent? found)
  · exact Action.twin_pure _

/-- What stands at and below a path is copied alike where the territory lies neither below it nor
below the copy. -/
theorem twin_copyNode (depth : Nat) {source target : Path} (sourceAvoids : source.Avoids territory here)
    (sourceClear : ∀ place, source.place here <+: place → ¬territory place)
    (avoids : target.Avoids territory here)
    (clear : ∀ place, target.place here <+: place → ¬territory place) :
    Twin (Files.Alike here territory mine theirs) (copyNode depth source target) := by
  induction depth generalizing source target with
  | zero => exact Action.twin_throw _
  | succ depth ih =>
    rw [copyNode]
    refine (twin_look fun left right alike => alike.stat_eq sourceAvoids).bind fun entry => ?_
    split
    · refine (twin_makeDirectories _ avoids).bind fun _ =>
        Action.twin_get_bind fun left right alike => ?_
      have names := alike.left_at.children_named source
      rw [← alike.children_eq sourceAvoids sourceClear]
      refine (Action.twin_foldlM (fun name member copied => ?_) 0 : Twin _ _) left right alike
      have isName := names name member
      have inSource := isName.place_join source here
      have inTarget := isName.place_join target here
      refine Twin.bind (ih (sourceAvoids.join isName.pieces isName.isAbsolute ?_) ?_
        (avoids.join isName.pieces isName.isAbsolute ?_) ?_) fun _ => Action.twin_pure _
      · rw [inSource]
        exact sourceClear _ (List.prefix_append _ _)
      · rw [inSource]
        exact fun place below => sourceClear place ((List.prefix_append _ _).trans below)
      · rw [inTarget]
        exact clear _ (List.prefix_append _ _)
      · rw [inTarget]
        exact fun place below => clear place ((List.prefix_append _ _).trans below)
    · refine (twin_ensureParent avoids).bind fun _ => Twin.bind ?_ fun _ => Action.twin_pure _
      exact twin_change fun left right alike => alike.copyFile sourceAvoids avoids

/-- A tree is copied alike where the territory lies neither below it nor below the copy. -/
theorem twin_copyTree {source target : Path} (sourceAvoids : source.Avoids territory here)
    (sourceClear : ∀ place, source.place here <+: place → ¬territory place)
    (avoids : target.Avoids territory here)
    (clear : ∀ place, target.place here <+: place → ¬territory place) :
    Twin (Files.Alike here territory mine theirs) (copyTree source target) := by
  have pieces : (Path.mk "").pieces = [""] := by decide
  have place : (target.join ⟨""⟩).place here = target.place here := by
    rw [Path.place_join rfl, pieces]
    rfl
  refine Action.twin_get_bind fun left right alike => ?_
  rw [alike.stat_eq sourceAvoids]
  refine (?_ : Twin _ _) left right alike
  split
  · exact Action.twin_throw _
  · refine twin_copyNode _ sourceAvoids sourceClear (avoids.join pieces rfl ?_) ?_
    · rw [place]
      exact avoids.place
    · rwa [place]

end FileM

end PageBuild
