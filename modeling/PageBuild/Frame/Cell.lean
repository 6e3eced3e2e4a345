import PageBuild.Frame.Word

/-!
# Cells of a record

The body of a frame is a record of cells at fixed places. A text of up to eight bytes stands in
its cell, filled up with `ff`; a longer one stands before the record, and its cell holds its length
and how far back it begins. The texts are in the order of their cells with no gaps, and zeros
bring the record to a multiple of eight. A length is told apart from a short text by its first
byte, `10` in the two upper bits, with which no text begins.
-/
namespace PageBuild.Frame

/-- A piece of a record. -/
inductive Cell where
  /-- Zeros. -/
  | blank (count : Nat)
  | byte (value : Nat)
  /-- A word of 32 bits. -/
  | word (value : UInt32)
  /-- A word of 64 bits. -/
  | long (value : UInt64)
  | text (value : String)
  /-- A text that may be absent. -/
  | optionalText (value : Option String)
  deriving DecidableEq, Repr

/-- The shape of a cell. -/
inductive Shape where
  | blank (count : Nat)
  | byte
  | word
  | long
  | text
  | optionalText
  deriving DecidableEq, Repr

namespace Cell

/-- The shape of a cell. -/
def shape : Cell → Shape
  | blank count => .blank count
  | byte _ => .byte
  | word _ => .word
  | long _ => .long
  | text _ => .text
  | optionalText _ => .optionalText

end Cell

/-- How many bytes a cell of a shape takes. -/
def Shape.width : Shape → Nat
  | blank count => count
  | byte => 1
  | word => 4
  | long => 8
  | text => 8
  | optionalText => 12

/-- The bytes of a text. -/
def textBytes (text : String) : List UInt8 := text.toUTF8.data.toList

/-- How many bytes a text may have to stand in its cell. -/
def inlineLimit : Nat := 8

/-- The bytes of a text that stand before the record. -/
def outerBytes (text : String) : List UInt8 :=
  let bytes := textBytes text
  if bytes.length ≤ inlineLimit then [] else bytes

/-- The length of a longer text as its cell holds it, marked by the upper bits of its first
byte. -/
def lengthMark (length : Nat) : Nat := length % 64 + 128 + length / 64 * 256

/-- The length that a mark holds. -/
def markedLength (mark : Nat) : Nat := mark % 64 + mark / 256 * 64

/-- The number of offsets that four bytes tell apart; one back is held as its complement. -/
def offsetSpan : Nat := 4294967296

/-- The bytes of a text cell that begins at one place, with its outer bytes at another before it. -/
def textCell (text : String) (start outer : Nat) : List UInt8 :=
  let bytes := textBytes text
  if bytes.length ≤ inlineLimit then
    bytes ++ List.replicate (inlineLimit - bytes.length) 255
  else wordBytes 4 (lengthMark bytes.length) ++ wordBytes 4 (offsetSpan + outer - start)

namespace Cell

/-- The bytes of a cell that stand before the record. -/
def outer : Cell → List UInt8
  | text value => outerBytes value
  | optionalText (some value) => outerBytes value
  | _ => []

/-- The bytes of a cell that begins at one place, with its outer bytes at another before it. -/
def bytes (start outer : Nat) : Cell → List UInt8
  | blank count => List.replicate count 0
  | byte value => [value.toUInt8]
  | word value => wordBytes 4 value.toNat
  | long value => wordBytes 8 value.toNat
  | text value => textCell value start outer
  | optionalText none => List.replicate 12 0
  | optionalText (some value) => [1, 0, 0, 0] ++ textCell value (start + 4) outer

end Cell

/-- The bytes of cells from one place on, with their outer bytes from another on. -/
def recordBytes (start outer : Nat) : List Cell → List UInt8
  | [] => []
  | cell :: cells =>
    cell.bytes start outer ++
      recordBytes (start + cell.shape.width) (outer + cell.outer.length) cells

/-- The place of a record after its outer bytes. -/
def recordStart (outer : Nat) : Nat := (outer + 7) / 8 * 8

/-- The body of a frame that holds a record. -/
def bodyBytes (cells : List Cell) : List UInt8 :=
  let outer := cells.flatMap Cell.outer
  outer ++ List.replicate (recordStart outer.length - outer.length) 0 ++
    recordBytes (recordStart outer.length) 0 cells

/-- The text of bytes, when they are UTF-8. -/
def textOf? (bytes : List UInt8) : Option String := String.fromUTF8? ⟨bytes.toArray⟩

/-- The text of the cell that begins at a place of a body. -/
def readText? (body : List UInt8) (start : Nat) : Option String :=
  let cell := (body.drop start).take 8
  match cell with
  | [] => none
  | first :: _ =>
    if first.toNat / 64 = 2 then
      let length := markedLength (wordOf (cell.take 4))
      let back := offsetSpan - wordOf (cell.drop 4)
      if back ≤ start then textOf? ((body.drop (start - back)).take length) else none
    else textOf? (cell.takeWhile (· ≠ 255))

/-- The cell of a shape that begins at a place of a body. -/
def readCell? (body : List UInt8) (start : Nat) : Shape → Option Cell
  | .blank count => some (.blank count)
  | .byte => (body[start]?).map fun value => .byte value.toNat
  | .word =>
    let bytes := (body.drop start).take 4
    if bytes.length = 4 then some (.word (wordOf bytes).toUInt32) else none
  | .long =>
    let bytes := (body.drop start).take 8
    if bytes.length = 8 then some (.long (wordOf bytes).toUInt64) else none
  | .text => (readText? body start).map .text
  | .optionalText =>
    match body[start]? with
    | none => none
    | some present =>
      if present = 0 then some (.optionalText none)
      else (readText? body (start + 4)).map fun value => .optionalText (some value)

/-- The cells of shapes from a place of a body on. -/
def readCells? (body : List UInt8) (start : Nat) : List Shape → Option (List Cell)
  | [] => some []
  | shape :: shapes =>
    match readCell? body start shape with
    | none => none
    | some cell =>
      match readCells? body (start + shape.width) shapes with
      | none => none
      | some cells => some (cell :: cells)

end PageBuild.Frame
