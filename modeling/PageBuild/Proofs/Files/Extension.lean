import PageBuild.Proofs.Files.Way

/-!
# Laws of extensions

A name has an extension where something stands before its last dot; a path to such a name becomes the
path to what stands before the dot when the extension is cut off.
-/
namespace PageBuild.Path

variable {name stem extension : String}

/-- What comes after the last dot of a name is its extension. -/
theorem splitExtension_eq (filled : stem ≠ "") (last : '.' ∉ extension.toList) :
    splitExtension (stem ++ "." ++ extension) = (stem, some extension) := by
  have pieces : Text.split '.' (stem ++ "." ++ extension) = Text.split '.' stem ++ [extension] := by
    rw [Text.split_append (by decide), Text.split_of_not_mem last]
  rw [splitExtension, pieces, List.reverse_append, List.reverse_singleton, List.singleton_append]
  cases whole : (Text.split '.' stem).reverse with
  | nil => exact absurd (List.reverse_eq_nil_iff.mp whole) (Text.split_ne_nil stem)
  | cons piece rest =>
    dsimp only
    rw [← whole, List.reverse_reverse, Text.join_split, if_neg filled]

/-- A name with an extension is what stands before its last dot, the dot and the extension. -/
theorem of_splitExtension (found : (splitExtension name).2 = some extension) :
    ∃ stem, stem ≠ "" ∧ name = stem ++ "." ++ extension := by
  rw [splitExtension] at found
  split at found
  · rename_i last piece rest pieces
    dsimp only at found
    split at found
    · cases found
    · rename_i filled
      cases found
      refine ⟨_, filled, ?_⟩
      have whole : Text.split '.' name = (piece :: rest).reverse ++ [extension] := by
        rw [← List.reverse_reverse (Text.split '.' name), pieces, List.reverse_cons]
      have apart : ∀ part ∈ (piece :: rest).reverse ++ [extension], '.' ∉ part.toList :=
        fun part member => Text.not_mem_of_mem_split (whole ▸ member)
      have start : Text.split '.' (Text.join '.' (piece :: rest).reverse) =
          (piece :: rest).reverse :=
        Text.split_join (by simp) fun part member => apart part (List.mem_append_left _ member)
      have same : Text.split '.' (Text.join '.' (piece :: rest).reverse ++ "." ++ extension) =
          Text.split '.' name := by
        rw [Text.split_append (by decide), start, whole,
          Text.split_of_not_mem (apart extension (by simp))]
      have joined := congrArg (Text.join '.') same
      rw [Text.join_split, Text.join_split] at joined
      exact joined.symm
  · cases found

variable {path : Path}

/-- The file name of a path to a name. -/
theorem fileName?_join (isName : IsName name) : (path.join ⟨name⟩).fileName? = some name := by
  rw [fileName?, pieces_join isName.isAbsolute, isName.pieces, withoutTrailing_concat isName,
    List.getLast?_concat]
  dsimp only
  rw [isName.partOf?]

/-- The extension of a path to a name. -/
theorem extension?_join (isName : IsName name) :
    (path.join ⟨name⟩).extension? = (splitExtension name).2 := by
  rw [extension?, fileName?_join isName, Option.bind_some]

/-- A path to a name without the extension of the name is the path to what stands before the dot. -/
theorem withoutExtension_join (isName : IsName (stem ++ "." ++ extension)) (filled : stem ≠ "")
    (last : '.' ∉ extension.toList) :
    (path.join ⟨stem ++ "." ++ extension⟩).withoutExtension = path.join ⟨stem⟩ := by
  have slash : '/' ∉ stem.toList := fun member => isName.1 (by simp [member])
  have single : (Path.mk stem).pieces = [stem] := Text.split_of_not_mem slash
  have relative : (Path.mk stem).isAbsolute = false :=
    isAbsolute_of_pieces (by simp [single, filled.symm])
  rw [withoutExtension, fileStem?, fileName?_join isName, Option.map_some,
    splitExtension_eq filled last]
  dsimp only
  rw [pieces_join isName.isAbsolute, isName.pieces, withoutTrailing_concat isName,
    List.dropLast_concat, ofPieces, if_neg]
  · have pieces : (path.join ⟨stem⟩).pieces = path.stem ++ [stem] := by
      rw [pieces_join relative, single]
    rw [← pieces, Path.pieces, Text.join_split]
  · intro blank
    have member : stem ∈ path.stem ++ [stem] := by simp
    rw [blank, List.mem_singleton] at member
    exact filled member

end PageBuild.Path
