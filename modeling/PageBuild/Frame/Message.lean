import PageBuild.Frame.Cell
import PageBuild.Worker.Message

/-!
# Messages as records

The cells of each message and the message of cells. A record starts with the variant of its
message, and all records of one direction have the same size, so a record is found at the end of
the body.
-/
namespace PageBuild.Frame

open Worker (Command Response)

/-- A kind of messages with its records. -/
structure Layout (α : Type) where
  /-- The bytes that a record takes. -/
  size : Nat
  /-- The cells of a message. -/
  cells : α → List Cell
  /-- The shapes of the cells of a variant. -/
  shapes : Nat → Option (List Shape)
  /-- The message of cells. -/
  ofCells? : List Cell → Option α

/-- The records of responses. -/
def Layout.response : Layout Response where
  size := 56
  cells
    | .finished result =>
      [.byte 0, .blank 3, .text result.url, .text result.logUrl, .text result.buildId,
        .text result.message, .blank 4, .long result.buildTime,
        .byte (if result.success then 1 else 0), .blank 7]
    | .bundling group => [.byte 1, .blank 3, .word group, .blank 48]
    | .error message => [.byte 2, .blank 3, .text message, .blank 44]
    | .pong => [.byte 3, .blank 55]
  shapes
    | 0 =>
      some [.byte, .blank 3, .text, .text, .text, .text, .blank 4, .long, .byte, .blank 7]
    | 1 => some [.byte, .blank 3, .word, .blank 48]
    | 2 => some [.byte, .blank 3, .text, .blank 44]
    | 3 => some [.byte, .blank 55]
    | _ => none
  ofCells?
    | [.byte 0, _, .text url, .text logUrl, .text buildId, .text message, _, .long buildTime,
        .byte success, _] =>
      some (.finished ⟨url, logUrl, buildId, message, buildTime, success ≠ 0⟩)
    | [.byte 1, _, .word group, _] => some (.bundling group)
    | [.byte 2, _, .text message, _] => some (.error message)
    | [.byte 3, _] => some .pong
    | _ => none

/-- The records of commands. -/
def Layout.command : Layout Command where
  size := 120
  cells
    | .build request =>
      [.byte 0, .blank 7, .text request.schemaText, .text request.buildId,
        .text request.template, .text request.environment,
        .byte (if request.isPreview then 1 else 0), .blank 3,
        .optionalText request.publishTo, .optionalText request.stagingRoot,
        .text request.buildCommand, .blank 4,
        .byte (if request.timeoutSeconds.isSome then 1 else 0), .blank 7,
        .long (request.timeoutSeconds.getD 0), .optionalText request.publicBaseUrl,
        .text request.keyPrefix, .word request.uploadParallelism]
    | .shutdown => [.byte 1, .blank 119]
    | .ping => [.byte 2, .blank 119]
  shapes
    | 0 =>
      some
        [.byte, .blank 7, .text, .text, .text, .text, .byte, .blank 3, .optionalText,
          .optionalText, .text, .blank 4, .byte, .blank 7, .long, .optionalText, .text, .word]
    | 1 => some [.byte, .blank 119]
    | 2 => some [.byte, .blank 119]
    | _ => none
  ofCells?
    | [.byte 0, _, .text schemaText, .text buildId, .text template, .text environment,
        .byte isPreview, _, .optionalText publishTo, .optionalText stagingRoot,
        .text buildCommand, _, .byte limited, _, .long seconds, .optionalText publicBaseUrl,
        .text keyPrefix, .word uploadParallelism] =>
      some (.build
        { schemaText, buildId, template, environment, isPreview := isPreview ≠ 0, publishTo,
          stagingRoot, buildCommand,
          timeoutSeconds := if limited = 0 then none else some seconds,
          publicBaseUrl, keyPrefix, uploadParallelism })
    | [.byte 1, _] => some .shutdown
    | [.byte 2, _] => some .ping
    | _ => none

namespace Layout

variable {α : Type}

/-- The body of the frame of a message. -/
def encode (layout : Layout α) (message : α) : List UInt8 := bodyBytes (layout.cells message)

/-- The message of the body of a frame. -/
def decode? (layout : Layout α) (body : List UInt8) : Option α :=
  if body.length < layout.size then none
  else
    let start := body.length - layout.size
    match body[start]? with
    | none => none
    | some variant =>
      match layout.shapes variant.toNat with
      | none => none
      | some shapes => (readCells? body start shapes).bind layout.ofCells?

end Layout

end PageBuild.Frame
