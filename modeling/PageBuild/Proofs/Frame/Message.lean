import PageBuild.Frame.Message
import PageBuild.Proofs.Frame.Record

/-!
# Messages are read back

What a layout owes to its reader are the laws of `Layout.Lawful`: a record has the size of its
direction and begins with the variant that tells its shapes, and its cells determine its message.
The layouts of both directions are lawful, and under the laws the body of a message is decoded as
the message (`Layout.decode?_encode`).
-/
namespace PageBuild.Frame

variable {α : Type}

/-- The laws of a layout. -/
structure Layout.Lawful (layout : Layout α) : Prop where
  /-- The numbers of a record fit their cells. -/
  fits (message : α) : ∀ cell ∈ layout.cells message, cell.Fits
  /-- All records take the same bytes. -/
  width (message : α) : recordWidth (layout.cells message) = layout.size
  /-- A record begins with a variant, and the variant tells the shapes of the record. -/
  shaped (message : α) : ∃ variant rest, layout.cells message = .byte variant :: rest ∧
    layout.shapes variant = some ((layout.cells message).map Cell.shape)
  /-- The cells of a message are cells of no other message. -/
  ofCells?_cells (message : α) : layout.ofCells? (layout.cells message) = some message

/-- A flag fits its cell. -/
theorem Cell.fits_flag (flag : Bool) : (Cell.byte (if flag then 1 else 0)).Fits := by
  cases flag <;> simp [Cell.Fits]

/-- The records of responses are lawful. -/
theorem Layout.response_lawful : Layout.response.Lawful where
  fits message := by
    cases message with
    | finished result =>
      simp only [Layout.response, List.forall_mem_cons, Cell.fits_flag, true_and]
      simp [Cell.Fits]
    | _ => simp [Layout.response, Cell.Fits]
  width message := by
    cases message <;> simp only [Layout.response, recordWidth, Cell.shape, Shape.width]
  shaped message := by
    cases message <;>
      exact ⟨_, _, rfl, by simp only [Layout.response, List.map_cons, List.map_nil, Cell.shape]⟩
  ofCells?_cells message := by
    cases message with
    | finished result =>
      obtain ⟨_, _, _, _, _, success⟩ := result
      cases success <;> rfl
    | _ => rfl

/-- The records of commands are lawful. -/
theorem Layout.command_lawful : Layout.command.Lawful where
  fits message := by
    cases message with
    | build request =>
      simp only [Layout.command, List.forall_mem_cons, Cell.fits_flag, true_and]
      simp [Cell.Fits]
    | _ => simp [Layout.command, Cell.Fits]
  width message := by
    cases message <;> simp only [Layout.command, recordWidth, Cell.shape, Shape.width]
  shaped message := by
    cases message <;>
      exact ⟨_, _, rfl, by simp only [Layout.command, List.map_cons, List.map_nil, Cell.shape]⟩
  ofCells?_cells message := by
    cases message with
    | build request =>
      obtain ⟨_, _, _, _, isPreview, _, _, _, timeoutSeconds, _, _, _⟩ := request
      cases isPreview <;> cases timeoutSeconds <;> rfl
    | _ => rfl

namespace Layout

variable {layout : Layout α} {message : α}

/-- The body of a message is the texts before its record, and the record. -/
theorem length_encode (lawful : layout.Lawful) :
    (layout.encode message).length =
      recordStart ((layout.cells message).flatMap Cell.outer).length + layout.size := by
  rw [encode, length_bodyBytes, lawful.width]

/-- The body of a message that a length can hold is decoded as the message. -/
theorem decode?_encode (lawful : layout.Lawful)
    (small : (layout.encode message).length ≤ bodyLimit) :
    layout.decode? (layout.encode message) = some message := by
  have length := @length_encode _ _ message lawful
  obtain ⟨variant, rest, cells, shapes⟩ := lawful.shaped message
  have fits : variant < 256 := by
    have whole := lawful.fits message
    rw [cells] at whole
    exact whole _ List.mem_cons_self
  have first : (layout.encode message)[recordStart
      ((layout.cells message).flatMap Cell.outer).length]? = some variant.toUInt8 := by
    have record := drop_bodyBytes (layout.cells message)
    rw [cells, recordBytes, Cell.bytes, List.cons_append, ← cells] at record
    have head := congrArg List.head? record
    rw [List.head?_drop] at head
    exact head
  have same : variant.toUInt8.toNat = variant := Nat.mod_eq_of_lt fits
  have start : (layout.encode message).length - layout.size =
      recordStart ((layout.cells message).flatMap Cell.outer).length := by omega
  have read := readCells?_bodyBytes (lawful.fits message) small
  unfold decode?
  dsimp only
  rw [if_neg (by omega), start, first]
  dsimp only
  rw [same, shapes]
  dsimp only
  rw [encode, read, Option.bind_some, lawful.ofCells?_cells]

end Layout

end PageBuild.Frame
