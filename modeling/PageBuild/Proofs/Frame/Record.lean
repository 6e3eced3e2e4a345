import PageBuild.Proofs.Frame.Text

/-!
# Records are read back

A record is read cell by cell, while the texts that stand before it are found by offsets. The
reading of one cell needs the bytes of the cell at its place and its outer bytes at theirs
(`readCell?_bytes`); both are carried along the record as beginnings of what is left of the body
(`readCells?_recordBytes`), so that a whole body reads as its cells (`readCells?_bodyBytes`).
-/
namespace PageBuild.Frame

/-- The length of a body that offsets and marked lengths can hold. -/
def bodyLimit : Nat := 1073741824

section Beginning

variable {α : Type} {front back list : List α}

/-- What a list begins with is what is taken of it. -/
theorem take_of_prefix (begins : front <+: list) : list.take front.length = front := by
  obtain ⟨rest, rfl⟩ := begins
  simp

/-- After the first part of its beginning a list begins with the second. -/
theorem drop_prefix_of_append_prefix (begins : front ++ back <+: list) :
    back <+: list.drop front.length := by
  obtain ⟨rest, rfl⟩ := begins
  simp [List.append_assoc]

/-- A list begins with the first part of its beginning. -/
theorem prefix_of_append_prefix (begins : front ++ back <+: list) : front <+: list :=
  (List.prefix_append front back).trans begins

/-- The first element of what a list begins with from a place on stands at that place. -/
theorem getElem?_of_cons_prefix {first : α} {place : Nat}
    (begins : first :: back <+: list.drop place) : list[place]? = some first := by
  obtain ⟨rest, begins⟩ := begins
  have head := congrArg List.head? begins
  rw [List.head?_drop] at head
  exact head.symm

/-- What a list begins with from a place on lies in the list. -/
theorem add_length_le_of_prefix {place : Nat} (begins : front <+: list.drop place)
    (something : 0 < front.length) : place + front.length ≤ list.length := by
  have within := begins.length_le
  rw [List.length_drop] at within
  omega

end Beginning

/-! ## Lengths -/

/-- The mark of a length is a byte that continues a character, and more. -/
theorem lengthMark_first (length : Nat) : lengthMark length % 256 / 64 = 2 := by
  unfold lengthMark
  omega

/-- The length that a mark holds is the length that was marked. -/
theorem markedLength_lengthMark (length : Nat) : markedLength (lengthMark length) = length := by
  unfold markedLength lengthMark
  omega

/-- The mark of the length of a text in a body fits its four bytes. -/
theorem lengthMark_lt {length : Nat} (short : length < bodyLimit) :
    lengthMark length < Nat.pow 256 4 := by
  unfold lengthMark
  unfold bodyLimit at short
  change _ < 4294967296
  omega

/-- A text takes eight bytes of its record. -/
@[simp]
theorem length_textCell (text : String) (start outer : Nat) :
    (textCell text start outer).length = 8 := by
  unfold textCell
  dsimp only
  split
  · rename_i short
    simp only [List.length_append, List.length_replicate]
    unfold inlineLimit at short ⊢
    omega
  · simp

/-- A cell takes as many bytes as its shape says. -/
@[simp]
theorem Cell.length_bytes (cell : Cell) (start outer : Nat) :
    (cell.bytes start outer).length = cell.shape.width := by
  cases cell with
  | optionalText value => cases value <;> simp [Cell.bytes, Cell.shape, Shape.width]
  | _ => simp [Cell.bytes, Cell.shape, Shape.width]

/-- How many bytes the cells of a record take. -/
def recordWidth : List Cell → Nat
  | [] => 0
  | cell :: cells => cell.shape.width + recordWidth cells

/-- A record takes as many bytes as its cells. -/
theorem length_recordBytes (cells : List Cell) (start outer : Nat) :
    (recordBytes start outer cells).length = recordWidth cells := by
  induction cells generalizing start outer with
  | nil => rfl
  | cons cell cells ih => simp [recordBytes, recordWidth, ih]

/-! ## Texts -/

/-- A cell that holds its text is not taken for the mark of a longer one. -/
theorem inline_first {text : String} {first : UInt8} {filling : Nat} {rest : List UInt8}
    (cell : textBytes text ++ List.replicate filling 255 = first :: rest) :
    first.toNat / 64 ≠ 2 := by
  cases encoded : textBytes text with
  | nil =>
    have filled : first ∈ List.replicate filling (255 : UInt8) := by
      rw [encoded, List.nil_append] at cell
      rw [cell]
      exact List.mem_cons_self
    rw [(List.mem_replicate.mp filled).2]
    decide
  | cons head tail =>
    rw [encoded, List.cons_append] at cell
    rw [← (List.cons.inj cell).1]
    exact starts_of_textBytes encoded

/-- The text of a cell that holds it ends where the filling begins. -/
theorem takeWhile_inline (text : String) (filling : Nat) :
    (textBytes text ++ List.replicate filling 255).takeWhile (· ≠ 255) = textBytes text := by
  have whole : ∀ byte ∈ textBytes text, (decide (byte ≠ 255)) = true := fun byte inside =>
    decide_eq_true (ne_filling_of_mem_textBytes inside)
  rw [List.takeWhile_append_of_pos whole]
  cases filling <;> simp [List.replicate_succ]

/-- A text that stands in its cell is read back. -/
theorem readText?_inline {body : List UInt8} {text : String} {start : Nat}
    (short : (textBytes text).length ≤ inlineLimit)
    (cell : (body.drop start).take 8 =
      textBytes text ++ List.replicate (inlineLimit - (textBytes text).length) 255) :
    readText? body start = some text := by
  have eight : (textBytes text ++
      List.replicate (inlineLimit - (textBytes text).length) 255).length = 8 := by
    simp only [List.length_append, List.length_replicate]
    unfold inlineLimit at short ⊢
    omega
  unfold readText?
  dsimp only
  rw [cell]
  split
  · rename_i empty
    rw [empty] at eight
    cases eight
  · rename_i first rest found
    rw [if_neg (inline_first found), takeWhile_inline, textOf?_textBytes]

/-- A text that stands before the record is read back through its length and its offset. -/
theorem readText?_outer {body : List UInt8} {text : String} {start outer : Nat}
    (cell : (body.drop start).take 8 =
      wordBytes 4 (lengthMark (textBytes text).length) ++ wordBytes 4 (offsetSpan + outer - start))
    (before : textBytes text <+: body.drop outer) (behind : outer < start)
    (inside : start < bodyLimit) (short : (textBytes text).length < bodyLimit) :
    readText? body start = some text := by
  have mark := wordOf_wordBytes (lengthMark_lt short)
  have offset : wordOf (wordBytes 4 (offsetSpan + outer - start)) = offsetSpan + outer - start := by
    refine wordOf_wordBytes ?_
    change offsetSpan + outer - start < 4294967296
    unfold offsetSpan
    omega
  have back : offsetSpan - (offsetSpan + outer - start) = start - outer := by
    unfold bodyLimit at inside
    unfold offsetSpan
    omega
  have marked : (((lengthMark (textBytes text).length % 256).toUInt8).toNat) / 64 = 2 := by
    rw [← lengthMark_first (textBytes text).length]
    simp
  unfold readText?
  dsimp only
  rw [cell, List.take_left' (length_wordBytes ..), List.drop_left' (length_wordBytes ..), mark,
    offset, markedLength_lengthMark, back]
  simp only [wordBytes, List.cons_append, marked, if_pos, Nat.sub_le]
  rw [show start - (start - outer) = outer by omega, take_of_prefix before, textOf?_textBytes]

/-- A text is read back from its cell and its outer bytes. -/
theorem readText?_textCell {body : List UInt8} {text : String} {start outer : Nat}
    (placed : textCell text start outer <+: body.drop start)
    (before : outerBytes text <+: body.drop outer)
    (behind : outer + (outerBytes text).length ≤ start) (inside : start < bodyLimit) :
    readText? body start = some text := by
  have cell := take_of_prefix placed
  rw [length_textCell] at cell
  unfold outerBytes at before behind
  unfold textCell at cell
  dsimp only at before behind cell
  split at cell
  · rename_i short
    exact readText?_inline short cell
  · rename_i long
    rw [if_neg long] at before behind
    unfold inlineLimit at long
    exact readText?_outer cell before (by omega) inside (by omega)

/-! ## Cells -/

/-- The numbers of a cell fit the places that it has for them. -/
def Cell.Fits : Cell → Prop
  | byte value => value < 256
  | _ => True

/-- A cell is read back from its bytes and its outer bytes. -/
theorem readCell?_bytes {body : List UInt8} {cell : Cell} {start outer : Nat} (fits : cell.Fits)
    (placed : cell.bytes start outer <+: body.drop start)
    (before : cell.outer <+: body.drop outer) (behind : outer + cell.outer.length ≤ start)
    (small : body.length ≤ bodyLimit) : readCell? body start cell.shape = some cell := by
  have taken := take_of_prefix placed
  rw [Cell.length_bytes] at taken
  cases cell with
  | blank count => rfl
  | byte value =>
    have below : value < 256 := fits
    have first : body[start]? = some value.toUInt8 := getElem?_of_cons_prefix placed
    have same : value.toUInt8.toNat = value := Nat.mod_eq_of_lt below
    simp only [readCell?, Cell.shape, first, Option.map_some, same]
  | word value =>
    change (body.drop start).take 4 = wordBytes 4 value.toNat at taken
    have same := @wordOf_wordBytes 4 _ value.toNat_lt
    simp only [readCell?, Cell.shape, taken, length_wordBytes, ↓reduceIte, same]
    simp
  | long value =>
    change (body.drop start).take 8 = wordBytes 8 value.toNat at taken
    have same := @wordOf_wordBytes 8 _ value.toNat_lt
    simp only [readCell?, Cell.shape, taken, length_wordBytes, ↓reduceIte, same]
    simp
  | text value =>
    have inside : start + (textCell value start outer).length ≤ body.length :=
      add_length_le_of_prefix placed (by simp)
    rw [length_textCell] at inside
    have found : readText? body start = some value :=
      readText?_textCell placed before behind (by omega)
    simp only [readCell?, Cell.shape, found, Option.map_some]
  | optionalText value =>
    cases value with
    | none =>
      have first : body[start]? = some 0 := getElem?_of_cons_prefix placed
      simp only [readCell?, Cell.shape, first, ↓reduceIte]
    | some value =>
      have first : body[start]? = some 1 := getElem?_of_cons_prefix placed
      have inner : textCell value (start + 4) outer <+: body.drop (start + 4) := by
        rw [← List.drop_drop]
        exact drop_prefix_of_append_prefix placed
      have inside := add_length_le_of_prefix inner (by simp)
      rw [length_textCell] at inside
      have found : readText? body (start + 4) = some value :=
        readText?_textCell inner before (Nat.le_add_right_of_le behind) (by omega)
      simp only [readCell?, Cell.shape, first, found, Option.map_some]
      rfl

/-- The cells of a record are read back from the record and the texts before it. -/
theorem readCells?_recordBytes {body : List UInt8} {cells : List Cell}
    (fits : ∀ cell ∈ cells, cell.Fits) (small : body.length ≤ bodyLimit) {start outer : Nat}
    (placed : recordBytes start outer cells <+: body.drop start)
    (before : cells.flatMap Cell.outer <+: body.drop outer)
    (behind : outer + (cells.flatMap Cell.outer).length ≤ start) :
    readCells? body start (cells.map Cell.shape) = some cells := by
  induction cells generalizing start outer with
  | nil => rfl
  | cons cell cells ih =>
    rw [List.forall_mem_cons] at fits
    rw [List.flatMap_cons] at before behind
    rw [List.length_append] at behind
    rw [recordBytes] at placed
    have cellPlaced := prefix_of_append_prefix placed
    have cellBefore := prefix_of_append_prefix before
    have restPlaced := drop_prefix_of_append_prefix placed
    have restBefore := drop_prefix_of_append_prefix before
    rw [List.drop_drop] at restBefore
    rw [List.drop_drop, Cell.length_bytes] at restPlaced
    have read := readCell?_bytes fits.1 cellPlaced cellBefore (by omega) small
    have rest := ih fits.2 restPlaced restBefore (by omega)
    simp only [List.map_cons, readCells?, read, rest]

/-- The texts before a record end before the record begins. -/
theorem le_recordStart (outer : Nat) : outer ≤ recordStart outer := by
  unfold recordStart
  omega

/-- A body is its outer bytes with their filling, and the record. -/
theorem length_bodyBytes (cells : List Cell) :
    (bodyBytes cells).length =
      recordStart (cells.flatMap Cell.outer).length + recordWidth cells := by
  have behind := le_recordStart (cells.flatMap Cell.outer).length
  simp only [bodyBytes, List.length_append, List.length_replicate, length_recordBytes]
  omega

/-- The record is what a body holds from its place on. -/
theorem drop_bodyBytes (cells : List Cell) :
    (bodyBytes cells).drop (recordStart (cells.flatMap Cell.outer).length) =
      recordBytes (recordStart (cells.flatMap Cell.outer).length) 0 cells := by
  have behind := le_recordStart (cells.flatMap Cell.outer).length
  unfold bodyBytes
  refine List.drop_left' ?_
  simp only [List.length_append, List.length_replicate]
  omega

/-- A body is read back as its cells. -/
theorem readCells?_bodyBytes {cells : List Cell} (fits : ∀ cell ∈ cells, cell.Fits)
    (small : (bodyBytes cells).length ≤ bodyLimit) :
    readCells? (bodyBytes cells) (recordStart (cells.flatMap Cell.outer).length)
      (cells.map Cell.shape) = some cells := by
  have placed :
      recordBytes (recordStart (cells.flatMap Cell.outer).length) 0 cells <+:
        (bodyBytes cells).drop (recordStart (cells.flatMap Cell.outer).length) :=
    ⟨[], by rw [List.append_nil, drop_bodyBytes]⟩
  have before : cells.flatMap Cell.outer <+: (bodyBytes cells).drop 0 := by
    simp only [bodyBytes, List.drop_zero, List.append_assoc]
    exact List.prefix_append _ _
  refine readCells?_recordBytes fits small placed before ?_
  rw [Nat.zero_add]
  exact le_recordStart _

end PageBuild.Frame
