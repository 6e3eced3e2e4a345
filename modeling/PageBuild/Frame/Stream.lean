import PageBuild.Failure
import PageBuild.Frame.Message

/-!
# Streams of frames

A frame is the length of its body in four bytes, and the body. A stream is read frame by frame
until one is cut short, or announces more than the limit, which is refused before its body.
-/
namespace PageBuild.Frame

/-- The longest body that is accepted. -/
def maxBody : Nat := 104857600

/-- Why no message is read from a stream. -/
inductive Fault where
  /-- The stream ends within a length. -/
  | cutLength
  /-- A body is announced that is longer than the limit. -/
  | tooLong (length : Nat)
  /-- The stream ends within a body. -/
  | cutBody
  /-- A body holds no message. -/
  | unreadable
  deriving DecidableEq, Repr

/-- The failure of a fault. -/
def Fault.failure : Fault → Failure
  | cutLength =>
    .ipc ("Failed to read IPC message length: " ++ IoCause.shortRead.message)
  | tooLong length => .ipc ("IPC message too large: " ++ toString length ++ " bytes")
  | cutBody => .ipc ("Failed to read IPC message body: " ++ IoCause.shortRead.message)
  | unreadable => .serialization "Failed to decode IPC message: malformed archive"

variable {α : Type}

/-- The frame of a message. -/
def write (layout : Layout α) (message : α) : List UInt8 :=
  let body := layout.encode message
  wordBytes 4 body.length ++ body

/-- The body of the first frame of a stream, and the stream after it. -/
def readBody (stream : List UInt8) : Except Fault (List UInt8 × List UInt8) :=
  if stream.length < 4 then .error .cutLength
  else
    let length := wordOf (stream.take 4)
    if maxBody < length then .error (.tooLong length)
    else
      let rest := stream.drop 4
      if rest.length < length then .error .cutBody
      else .ok (rest.take length, rest.drop length)

/-- The first message of a stream, and the stream after it. -/
def read (layout : Layout α) (stream : List UInt8) : Except Fault (α × List UInt8) :=
  match readBody stream with
  | .error fault => .error fault
  | .ok (body, rest) =>
    match layout.decode? body with
    | some message => .ok (message, rest)
    | none => .error .unreadable

/-- A frame takes at least the bytes of its length. -/
theorem length_lt_of_read {layout : Layout α} {stream rest : List UInt8} {message : α}
    (found : read layout stream = .ok (message, rest)) : rest.length < stream.length := by
  unfold read at found
  split at found
  · cases found
  · rename_i body remaining bodyFound
    have shorter : remaining.length < stream.length := by
      unfold readBody at bodyFound
      split at bodyFound
      · cases bodyFound
      · rename_i long
        dsimp only at bodyFound
        split at bodyFound
        · cases bodyFound
        · split at bodyFound
          · cases bodyFound
          · simp only [Except.ok.injEq, Prod.mk.injEq] at bodyFound
            obtain ⟨_, rfl⟩ := bodyFound
            simp only [List.length_drop]
            omega
    split at found
    · simp only [Except.ok.injEq, Prod.mk.injEq] at found
      obtain ⟨_, rfl⟩ := found
      exact shorter
    · cases found

/-- The messages of a stream up to its first fault, and the fault. -/
def readAll (layout : Layout α) (stream : List UInt8) : List α × Fault :=
  match found : read layout stream with
  | .error fault => ([], fault)
  | .ok (message, rest) =>
    have := length_lt_of_read found
    let (messages, fault) := readAll layout rest
    (message :: messages, fault)
termination_by stream.length

end PageBuild.Frame
