import PageBuild.Frame.Stream
import PageBuild.Proofs.Frame.Message

/-!
# Streams are read back, whole or cut

The reader splits off a frame that its limit admits, whatever follows it
(`readBody_write_append`), and faults on each proper beginning of one (`readBody_take_write`).
Along a stream these give `Layout.ReadsBack`: a whole stream is read as its messages, and a
stream that is cut anywhere as the messages whose frames lie before the cut; both then end in a
failure of the exchange. `streams_read_back` says so for the messages of both directions.
-/
namespace PageBuild.Frame

open Worker (Command Response)

variable {α : Type}

/-- A fault is a failure of the exchange, not of a message. -/
def Fault.OfExchange (fault : Fault) : Prop := ∃ reason, fault.failure = .ipc reason

/-- The frames of messages, one after the other. -/
def stream (layout : Layout α) (messages : List α) : List UInt8 := messages.flatMap (write layout)

/-- The stream of messages gives the messages back, up to the place where it is cut. -/
structure Layout.ReadsBack (layout : Layout α) (messages : List α) : Prop where
  /-- The whole stream is read as its messages, until it ends. -/
  whole : ∃ fault, readAll layout (stream layout messages) = (messages, fault) ∧ fault.OfExchange
  /-- A proper beginning is read as the messages whose frames lie wholly in it, until it ends. -/
  cut : ∀ length < (stream layout messages).length, ∃ count fault,
    readAll layout ((stream layout messages).take length) = (messages.take count, fault) ∧
      fault.OfExchange ∧ ∀ place < messages.length,
        place < count ↔ (stream layout (messages.take (place + 1))).length ≤ length

/-! ## One frame -/

section Frame

variable {layout : Layout α} {message : α}

/-- A frame is four bytes longer than its body. -/
@[simp]
theorem length_write : (write layout message).length = 4 + (layout.encode message).length := by
  simp [write]

/-- The length of a body that is accepted fits its four bytes. -/
theorem lt_of_le_maxBody {length : Nat} (short : length ≤ maxBody) : length < Nat.pow 256 4 := by
  unfold maxBody at short
  change _ < 4294967296
  omega

/-- The body of a frame is split off, with whatever follows the frame. -/
theorem readBody_write_append (short : (layout.encode message).length ≤ maxBody)
    (rest : List UInt8) :
    readBody (write layout message ++ rest) = .ok (layout.encode message, rest) := by
  have length := wordOf_wordBytes (lt_of_le_maxBody short)
  unfold readBody
  rw [if_neg (by rw [List.length_append, length_write]; omega)]
  simp only [write, List.append_assoc]
  rw [List.take_left' (length_wordBytes ..), List.drop_left' (length_wordBytes ..), length,
    if_neg (by omega), if_neg (by rw [List.length_append]; omega), List.take_left, List.drop_left]

/-- A proper beginning of a frame holds no body. -/
theorem readBody_take_write (short : (layout.encode message).length ≤ maxBody) {cut : Nat}
    (within : cut < (write layout message).length) :
    ∃ fault, readBody ((write layout message).take cut) = .error fault ∧ fault.OfExchange := by
  have taken : ((write layout message).take cut).length = cut := by
    rw [List.length_take]
    omega
  rw [length_write] at within
  unfold readBody
  rw [taken]
  by_cases early : cut < 4
  · exact ⟨.cutLength, if_pos early, _, rfl⟩
  · have length := wordOf_wordBytes (lt_of_le_maxBody short)
    have announced : ((write layout message).take cut).take 4 =
        wordBytes 4 (layout.encode message).length := by
      rw [List.take_take, Nat.min_eq_left (by omega)]
      exact List.take_left' (length_wordBytes ..)
    have missing : (((write layout message).take cut).drop 4).length = cut - 4 := by
      rw [List.length_drop, taken]
    refine ⟨.cutBody, ?_, _, rfl⟩
    rw [if_neg early, announced]
    dsimp only
    rw [length, if_neg (by omega), missing, if_pos (by omega)]

/-- What is written after a body does not change how the body is split off. -/
theorem readBody_append {bytes body rest : List UInt8} (found : readBody bytes = .ok (body, rest))
    (more : List UInt8) : readBody (bytes ++ more) = .ok (body, rest ++ more) := by
  unfold readBody at found ⊢
  split at found
  · cases found
  · rename_i announced
    dsimp only at found ⊢
    have length : (bytes ++ more).take 4 = bytes.take 4 := List.take_append_of_le_length (by omega)
    have after : (bytes ++ more).drop 4 = bytes.drop 4 ++ more :=
      List.drop_append_of_le_length (by omega)
    rw [if_neg (by rw [List.length_append]; omega), length, after]
    split at found
    · cases found
    · rename_i accepted
      split at found
      · cases found
      · rename_i whole
        cases found
        rw [if_neg accepted, if_neg (by rw [List.length_append]; omega),
          List.take_append_of_le_length (by omega), List.drop_append_of_le_length (by omega)]

/-- More bytes do not mend a length that is refused. -/
theorem readBody_append_of_fault {bytes : List UInt8} {fault : Fault}
    (found : readBody bytes = .error fault) (length : fault ≠ .cutLength) (body : fault ≠ .cutBody)
    (more : List UInt8) : readBody (bytes ++ more) = .error fault := by
  unfold readBody at found ⊢
  split at found
  · cases found
    exact absurd rfl length
  · dsimp only at found ⊢
    have announced : (bytes ++ more).take 4 = bytes.take 4 := List.take_append_of_le_length (by omega)
    rw [if_neg (by rw [List.length_append]; omega), announced]
    split at found
    · rename_i refused
      rw [if_pos refused, ← found]
    · split at found <;> cases found
      exact absurd rfl body

/-- The first message of a stream is read from its frame, with whatever follows the frame. -/
theorem read_write_append (lawful : layout.Lawful)
    (short : (layout.encode message).length ≤ maxBody) (rest : List UInt8) :
    read layout (write layout message ++ rest) = .ok (message, rest) := by
  have small : (layout.encode message).length ≤ bodyLimit := by
    unfold maxBody at short
    unfold bodyLimit
    omega
  unfold read
  rw [readBody_write_append short]
  dsimp only
  rw [Layout.decode?_encode lawful small]

/-- What is written after a frame does not change how the frame is read. -/
theorem read_append {bytes rest : List UInt8} (found : read layout bytes = .ok (message, rest))
    (more : List UInt8) : read layout (bytes ++ more) = .ok (message, rest ++ more) := by
  unfold read at found ⊢
  split at found
  · cases found
  · rename_i body after bodyFound
    rw [readBody_append bodyFound]
    dsimp only
    split at found <;> cases found
    rfl

/-- More bytes mend only a frame that is cut short. -/
theorem read_append_of_fault {bytes : List UInt8} {fault : Fault}
    (found : read layout bytes = .error fault) (length : fault ≠ .cutLength) (body : fault ≠ .cutBody)
    (more : List UInt8) : read layout (bytes ++ more) = .error fault := by
  unfold read at found ⊢
  split at found
  · rename_i other bodyFound
    cases found
    rw [readBody_append_of_fault bodyFound length body]
  · rename_i content after bodyFound
    rw [readBody_append bodyFound]
    dsimp only
    split at found <;> cases found
    rfl

/-- Reading leaves an end of the stream. -/
theorem isSuffix_of_read {bytes rest : List UInt8} (found : read layout bytes = .ok (message, rest)) :
    rest <:+ bytes := by
  unfold read at found
  split at found
  · cases found
  · rename_i body after bodyFound
    have ending : after <:+ bytes := by
      unfold readBody at bodyFound
      split at bodyFound
      · cases bodyFound
      · dsimp only at bodyFound
        split at bodyFound
        · cases bodyFound
        · split at bodyFound <;> cases bodyFound
          exact (List.drop_suffix ..).trans (List.drop_suffix ..)
    split at found <;> cases found
    exact ending

/-- Reading goes on with what follows a frame that is read. -/
theorem readAll_of_read {bytes rest : List UInt8} (found : read layout bytes = .ok (message, rest)) :
    readAll layout bytes = (message :: (readAll layout rest).1, (readAll layout rest).2) := by
  rw [readAll]
  split
  · rename_i other
    rw [found] at other
    cases other
  · rename_i other
    rw [found] at other
    cases other
    rfl

/-- Reading goes on with what follows the first frame. -/
theorem readAll_write_append (lawful : layout.Lawful)
    (short : (layout.encode message).length ≤ maxBody) (rest : List UInt8) :
    readAll layout (write layout message ++ rest) =
      (message :: (readAll layout rest).1, (readAll layout rest).2) :=
  readAll_of_read (read_write_append lawful short rest)

/-- Reading stops at a fault. -/
theorem readAll_of_fault {bytes : List UInt8} {fault : Fault}
    (found : read layout bytes = .error fault) : readAll layout bytes = ([], fault) := by
  rw [readAll]
  split
  · rename_i other
    rw [found] at other
    cases other
    rfl
  · rename_i other
    rw [found] at other
    cases other

/-- Reading stops where no body is found. -/
theorem readAll_of_readBody {bytes : List UInt8} {fault : Fault}
    (found : readBody bytes = .error fault) : readAll layout bytes = ([], fault) := by
  have stopped : read layout bytes = .error fault := by
    unfold read
    rw [found]
  exact readAll_of_fault stopped

end Frame

/-! ## All frames -/

section Frames

variable {layout : Layout α} {messages : List α}

/-- A stream is the frame of its first message and the stream of the others. -/
theorem stream_cons (message : α) :
    stream layout (message :: messages) = write layout message ++ stream layout messages :=
  List.flatMap_cons

/-- The streams of two lists of messages make the stream of all of them. -/
theorem stream_append (others : List α) :
    stream layout (messages ++ others) = stream layout messages ++ stream layout others :=
  List.flatMap_append

/-- A whole stream is read as its messages. -/
theorem readAll_stream (lawful : layout.Lawful)
    (short : ∀ message ∈ messages, (layout.encode message).length ≤ maxBody) :
    readAll layout (stream layout messages) = (messages, .cutLength) := by
  induction messages with
  | nil => exact readAll_of_readBody rfl
  | cons message messages ih =>
    rw [List.forall_mem_cons] at short
    rw [stream_cons, readAll_write_append lawful short.1, ih short.2]

/-- A message of a stream is not longer than the stream. -/
theorem length_encode_le_stream {message : α} (mem : message ∈ messages) :
    (layout.encode message).length ≤ (stream layout messages).length := by
  obtain ⟨before, after, rfl⟩ := List.append_of_mem mem
  rw [stream_append, stream_cons, List.length_append, List.length_append, length_write]
  omega

/-- A stream that is not longer than a body may be is that of one list of messages only. -/
theorem messages_eq_of_stream_eq (lawful : layout.Lawful) {others : List α}
    (same : stream layout messages = stream layout others)
    (short : (stream layout messages).length ≤ maxBody) : messages = others := by
  have first := readAll_stream lawful fun _ mem => Nat.le_trans (length_encode_le_stream mem) short
  have second := readAll_stream lawful fun _ mem =>
    Nat.le_trans (length_encode_le_stream mem) (same ▸ short)
  rw [same, second] at first
  exact (Prod.mk.inj first).1.symm

/-- A stream that is cut is read as the messages whose frames lie before the cut. -/
theorem readAll_take_stream (lawful : layout.Lawful)
    (short : ∀ message ∈ messages, (layout.encode message).length ≤ maxBody) {cut : Nat}
    (within : cut < (stream layout messages).length) : ∃ count fault,
    readAll layout ((stream layout messages).take cut) = (messages.take count, fault) ∧
      fault.OfExchange ∧ ∀ place < messages.length,
        place < count ↔ (stream layout (messages.take (place + 1))).length ≤ cut := by
  induction messages generalizing cut with
  | nil => exact absurd within (Nat.not_lt_zero cut)
  | cons message messages ih =>
    rw [List.forall_mem_cons] at short
    rw [stream_cons, List.length_append] at within
    rw [stream_cons, List.take_append]
    -- Either the first frame is cut, or it is whole and one of the others is.
    by_cases inside : cut < (write layout message).length
    · obtain ⟨fault, found, exchange⟩ := readBody_take_write short.1 inside
      refine ⟨0, fault, ?_, exchange, fun place _ => ?_⟩
      · rw [Nat.sub_eq_zero_of_le (by omega), List.take_zero, List.append_nil, List.take_zero]
        exact readAll_of_readBody found
      · rw [List.take_succ_cons, stream_cons, List.length_append]
        omega
    · have later : cut - (write layout message).length < (stream layout messages).length := by
        omega
      obtain ⟨count, fault, found, exchange, counted⟩ := ih short.2 later
      refine ⟨count + 1, fault, ?_, exchange, fun place before => ?_⟩
      · rw [List.take_of_length_le (by omega), readAll_write_append lawful short.1, found,
          List.take_succ_cons]
      · rw [List.take_succ_cons, stream_cons, List.length_append]
        cases place with
        | zero =>
          rw [List.take_zero]
          simp only [stream, List.flatMap_nil, List.length_nil]
          omega
        | succ place =>
          have step := counted place (by simpa using before)
          omega

/-- The streams of a lawful layout are read back. -/
theorem Layout.Lawful.readsBack (lawful : layout.Lawful)
    (short : ∀ message ∈ messages, (layout.encode message).length ≤ maxBody) :
    layout.ReadsBack messages where
  whole := ⟨.cutLength, readAll_stream lawful short, _, rfl⟩
  cut _ within := readAll_take_stream lawful short within

end Frames

/-- The streams of commands and those of responses are read back, when each body is accepted. -/
theorem streams_read_back :
    (∀ messages : List Command,
      (∀ message ∈ messages, (Layout.command.encode message).length ≤ maxBody) →
        Layout.command.ReadsBack messages) ∧
    ∀ messages : List Response,
      (∀ message ∈ messages, (Layout.response.encode message).length ≤ maxBody) →
        Layout.response.ReadsBack messages :=
  ⟨fun _ short => Layout.command_lawful.readsBack short,
    fun _ short => Layout.response_lawful.readsBack short⟩

/-- Messages to a worker, with texts within their cells and longer ones. -/
def orders : List Command :=
  [.build
    { schemaText := "", buildId := "12345678", template := "123456789", environment := "pre",
      isPreview := true, publishTo := none, stagingRoot := some "/srv/staging",
      buildCommand := "npm run build", timeoutSeconds := some 90, publicBaseUrl := some "",
      keyPrefix := "ls", uploadParallelism := 4 },
    .ping, .shutdown]

/-- Messages from a worker. -/
def answers : List Response :=
  [.pong, .bundling 4242, .error "no template",
    .finished ⟨"https://cdn/index.html", "", "12345678", "123456789", 7, true⟩]

/-- A few messages of each direction are read back. -/
theorem streams_read_back_orders :
    (∀ message ∈ orders, (Layout.command.encode message).length ≤ maxBody) ∧
      (∀ message ∈ answers, (Layout.response.encode message).length ≤ maxBody) ∧
      Layout.command.ReadsBack orders ∧ Layout.response.ReadsBack answers := by
  have ordersShort : ∀ message ∈ orders, (Layout.command.encode message).length ≤ maxBody := by
    decide +kernel
  have answersShort :
      ∀ message ∈ answers, (Layout.response.encode message).length ≤ maxBody := by
    decide +kernel
  exact ⟨ordersShort, answersShort, streams_read_back.1 orders ordersShort,
    streams_read_back.2 answers answersShort⟩

end PageBuild.Frame
