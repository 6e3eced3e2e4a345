import PageBuild.Proofs.Json.Value

/-!
# Reading a text that was written

A reader reads a value from a text if it takes exactly that text in front of whatever ends values
(`Json.Reads`). Strings, arrays and objects are read back from what was written of them if their parts
are, and so is every value, as deep as the reader allows (`Json.reads_raw`). What a loop over items or
members keeps is kept by the whole array or object.
-/
namespace PageBuild.Json

variable {α σ : Type} {rest : Input} {depth fuel : Nat}

/-- Whether a reader reads a value from the text of a JSON value, whatever follows that ends values. -/
def Reads (reader : Reader α) (depth : Nat) (source : Json) (value : α) : Prop :=
  ∀ rest, Ends rest → reader depth (source.write ++ rest) = .ok (value, rest)

/-! ## Strings -/

/-- A control character is read back from its two digits. -/
theorem unicodeEscape_byteDigits {n : Nat} (control : n < 32) (rest : Input) :
    unicodeEscape ('0' :: '0' :: (byteDigits n ++ rest)) = .ok (Char.ofNat n, rest) := by
  interval_cases n <;> rfl

/-- One character is read back as it stands between quotes. -/
theorem stringBody_escaped (fuel : Nat) (read : List Char) (c : Char) (rest : Input) :
    stringBody (fuel + 1) read (escaped c ++ rest) = stringBody fuel (c :: read) rest := by
  rw [escaped]
  by_cases quote : c = '"'
  · subst quote
    rfl
  by_cases backslash : c = '\\'
  · subst backslash
    rfl
  rw [if_neg quote, if_neg backslash]
  -- The five short escapes first, then the control characters without one, then all others.
  iterate 5
    split
    · subst c
      rfl
  split
  · rename_i control
    have read := unicodeEscape_byteDigits control rest
    rw [Char.ofNat_toNat] at read
    simp only [List.cons_append, List.nil_append, stringBody, read]
    rfl
  · rename_i printed
    rw [List.cons_append, List.nil_append, stringBody.eq_def]
    dsimp only
    rw [if_neg quote, if_neg backslash, if_neg printed]

/-- The characters of a string are read back one after the other. -/
theorem stringBody_flatMap (text read : List Char) (enough : text.length < fuel) (rest : Input) :
    stringBody fuel read (text.flatMap escaped ++ '"' :: rest) =
      .ok (String.ofList (read.reverse ++ text), rest) := by
  induction text generalizing fuel read with
  | nil =>
    obtain ⟨fuel, rfl⟩ := Nat.exists_eq_add_one_of_ne_zero (Nat.ne_zero_of_lt enough)
    rw [List.append_nil]
    rfl
  | cons c text ih =>
    obtain ⟨fuel, rfl⟩ := Nat.exists_eq_add_one_of_ne_zero (Nat.ne_zero_of_lt enough)
    rw [List.flatMap_cons, List.append_assoc, stringBody_escaped,
      ih (c :: read) (by simpa using enough), List.reverse_cons, List.append_assoc]
    rfl

/-- A character takes at least one place. -/
theorem length_le_flatMap_escaped (text : List Char) :
    text.length ≤ (text.flatMap escaped).length := by
  induction text with
  | nil => exact Nat.le_refl _
  | cons c text ih =>
    have one : 1 ≤ (escaped c).length := by
      unfold escaped
      repeat' split
      all_goals simp
    rw [List.flatMap_cons, List.length_append, List.length_cons]
    omega

/-- A string is read back from what stands after its opening quote. -/
theorem exists_quoted (text : String) :
    ∃ body, quoted text = '"' :: body ∧ ∀ rest, readString (body ++ rest) = .ok (text, rest) := by
  refine ⟨_, rfl, fun rest => ?_⟩
  have enough := length_le_flatMap_escaped text.toList
  rw [readString, List.append_assoc, List.singleton_append,
    stringBody_flatMap _ _ (by simp only [List.length_append]; omega)]
  simp

/-- A string is read back. -/
theorem reads_text (text : String) : Reads Json.text depth (string text) text := by
  intro rest _
  obtain ⟨body, quote, read⟩ := exists_quoted text
  rw [write, quote, List.cons_append, Json.text]
  exact read rest

/-- A boolean is read back. -/
theorem reads_boolean (value : Bool) : Reads boolean depth (bool value) value := by
  intro rest _
  cases value <;> rfl

/-! ## The first character -/

/-- The text of a value starts with no blank and closes nothing, and only null starts with its
letter. -/
theorem exists_write (v : Json) :
    ∃ c text, v.write = c :: text ∧ isBlank c = false ∧ c ≠ ']' ∧ (c = 'n' → v = null) := by
  cases v with
  | null => exact ⟨_, _, rfl, by simp [isBlank]⟩
  | bool value => cases value <;> exact ⟨_, _, rfl, by simp [isBlank]⟩
  | number value =>
    obtain ⟨c, text, starts, rfl | digit⟩ := value.exists_write
    · exact ⟨_, _, starts, by simp [isBlank]⟩
    · exact ⟨_, _, starts, isBlank_of_isDigit digit, digit_ne digit (by decide),
        fun letter => absurd letter (digit_ne digit (by decide))⟩
  | string value => exact ⟨_, _, rfl, by simp [isBlank]⟩
  | array items => cases items <;> exact ⟨_, _, rfl, by simp [isBlank]⟩
  | object members => cases members <;> exact ⟨_, _, rfl, by simp [isBlank]⟩

/-- No blank stands before a value. -/
theorem skipBlanks_write (v : Json) (rest : Input) :
    skipBlanks (v.write ++ rest) = v.write ++ rest := by
  obtain ⟨c, text, starts, filled, -⟩ := v.exists_write
  rw [starts, List.cons_append, skipBlanks_cons filled]

/-! ## Arrays -/

variable {reader : Reader α} {write : α → Json} {xs : List α}

/-- What follows an item of an array ends values. -/
theorem ends_writeItems (vs : List Json) (rest : Input) : Ends (writeItems vs ++ rest) := by
  cases vs with
  | nil => exact ends_closing .list
  | cons v vs => exact ends_comma

/-- An item that is read comes before those after it, whether it is the first or follows a comma. -/
theorem items_of_read {read : Input → Except Fault (α × Input)} {v : Json} {x : α} {left : Input}
    (reads : read (v.write ++ rest) = .ok (x, left)) :
    items read (fuel + 1) true (v.write ++ rest) =
        (items read fuel false left).map (fun (xs, rest) => (x :: xs, rest)) ∧
      items read (fuel + 1) false (',' :: (v.write ++ rest)) =
        (items read fuel false left).map fun (xs, rest) => (x :: xs, rest) := by
  obtain ⟨c, text, starts, filled, item, -⟩ := v.exists_write
  rw [starts, List.cons_append] at reads ⊢
  constructor
  · rw [items.eq_def]
    dsimp only
    rw [skipBlanks_cons filled]
    dsimp only
    rw [if_neg item, if_pos rfl, reads]
    dsimp only [bind, Except.bind]
    cases items read fuel false left <;> rfl
  · rw [items.eq_def]
    dsimp only
    rw [skipBlanks_cons (by decide)]
    dsimp only
    rw [if_neg (by decide), if_neg (by decide), if_pos rfl, skipBlanks_cons filled]
    dsimp only
    rw [if_neg item, reads]
    dsimp only [bind, Except.bind]
    cases items read fuel false left <;> rfl

/-- The items after the first are read back if each of them is. -/
theorem items_writeItems (each : ∀ x ∈ xs, Reads reader depth (write x) x)
    (enough : xs.length < fuel) (rest : Input) :
    items (reader depth) fuel false (writeItems (xs.map write) ++ rest) = .ok (xs, rest) := by
  induction xs generalizing fuel with
  | nil =>
    obtain ⟨fuel, rfl⟩ := Nat.exists_eq_add_one_of_ne_zero (Nat.ne_zero_of_lt enough)
    rfl
  | cons x xs ih =>
    obtain ⟨fuel, rfl⟩ := Nat.exists_eq_add_one_of_ne_zero (Nat.ne_zero_of_lt enough)
    obtain ⟨first, others⟩ := List.forall_mem_cons.mp each
    have read := first _ (ends_writeItems (xs.map write) rest)
    rw [List.map_cons, writeItems, List.cons_append, List.append_assoc, (items_of_read read).2,
      ih others (by simpa using enough)]
    rfl

/-- Each item after the first takes at least one place. -/
theorem length_le_writeItems (vs : List Json) : vs.length ≤ (writeItems vs).length := by
  induction vs with
  | nil => exact Nat.zero_le _
  | cons v vs ih =>
    rw [writeItems, List.length_cons, List.length_cons, List.length_append]
    omega

/-- An array is read back from what stands after its opening bracket if each item is. -/
theorem exists_array (each : ∀ x ∈ xs, Reads reader depth (write x) x) :
    ∃ body, (array (xs.map write)).write = '[' :: body ∧ ∀ rest,
      items (reader depth) ((body ++ rest).length + 1) true (body ++ rest) = .ok (xs, rest) := by
  cases xs with
  | nil => exact ⟨_, rfl, fun rest => rfl⟩
  | cons x xs =>
    refine ⟨_, rfl, fun rest => ?_⟩
    obtain ⟨first, others⟩ := List.forall_mem_cons.mp each
    have read := first _ (ends_writeItems (xs.map write) rest)
    have places := length_le_writeItems (xs.map write)
    obtain ⟨c, text, starts, -⟩ := (write x).exists_write
    rw [List.append_assoc, (items_of_read read).1, items_writeItems others]
    · rfl
    · rw [List.length_map] at places
      simp only [starts, List.length_append, List.length_cons]
      omega

/-- A sequence is read back if each item is. -/
theorem reads_sequence (each : ∀ x ∈ xs, Reads reader depth (write x) x) :
    Reads (sequence reader) (depth + 1) (array (xs.map write)) xs := by
  intro rest _
  obtain ⟨body, text, read⟩ := exists_array each
  rw [text, List.cons_append, sequence, skipBlanks_cons (by decide)]
  exact read rest

/-! ## Objects -/

variable {member : σ → String → Input → Except Fault (σ × Input)} {s s' s'' : σ}
  {ms others : List (String × Json)}

/-- Whether members, each read from the text of its value, change a state into another one. -/
inductive Takes (member : σ → String → Input → Except Fault (σ × Input)) :
    σ → List (String × Json) → σ → Prop where
  /-- No member changes nothing. -/
  | nil {s : σ} : Takes member s [] s
  /-- The first member, then the others. -/
  | cons {s s' s'' : σ} {key : String} {v : Json} {ms : List (String × Json)}
      (first : ∀ rest, Ends rest → member s key (':' :: (v.write ++ rest)) = .ok (s', rest))
      (others : Takes member s' ms s'') : Takes member s ((key, v) :: ms) s''

/-- Members are taken one list after the other. -/
theorem Takes.append (takes : Takes member s ms s') (more : Takes member s' others s'') :
    Takes member s (ms ++ others) s'' := by
  induction takes with
  | nil => exact more
  | cons first _ ih => exact .cons first (ih more)

/-- What follows a member of an object ends values. -/
theorem ends_writeMembers (ms : List (String × Json)) (rest : Input) :
    Ends (writeMembers ms ++ rest) := by
  cases ms with
  | nil => exact ends_closing .object
  | cons m ms => exact ends_comma

/-- A member that is taken comes before those after it, whether it is the first or follows a comma. -/
theorem members_of_taken {key : String} {input left : Input}
    (taken : member s key input = .ok (s', left)) :
    members member (fuel + 1) true s (quoted key ++ input) = members member fuel false s' left ∧
      members member (fuel + 1) false s (',' :: (quoted key ++ input)) =
        members member fuel false s' left := by
  obtain ⟨body, quote, read⟩ := exists_quoted key
  rw [quote, List.cons_append]
  constructor
  · rw [members.eq_def]
    dsimp only
    rw [skipBlanks_cons (by decide)]
    dsimp only
    rw [if_neg (by decide), if_pos rfl, if_pos rfl, read]
    dsimp only [bind, Except.bind]
    rw [taken]
  · rw [members.eq_def]
    dsimp only
    rw [skipBlanks_cons (by decide)]
    dsimp only
    rw [if_neg (by decide), if_neg (by decide), if_pos rfl, skipBlanks_cons (by decide)]
    dsimp only
    rw [if_neg (by decide), if_pos rfl, read]
    dsimp only [bind, Except.bind]
    rw [taken]

/-- The members after the first are read as far as the object goes. -/
theorem Takes.writeMembers (takes : Takes member s ms s') (enough : ms.length < fuel)
    (rest : Input) :
    members member fuel false s (writeMembers ms ++ rest) = .ok (s', rest) := by
  induction takes generalizing fuel with
  | nil =>
    obtain ⟨fuel, rfl⟩ := Nat.exists_eq_add_one_of_ne_zero (Nat.ne_zero_of_lt enough)
    rfl
  | @cons s s' s'' key v ms first others ih =>
    obtain ⟨fuel, rfl⟩ := Nat.exists_eq_add_one_of_ne_zero (Nat.ne_zero_of_lt enough)
    have taken := first _ (ends_writeMembers ms rest)
    rw [Json.writeMembers, List.cons_append, List.append_assoc, List.cons_append,
      List.append_assoc, (members_of_taken taken).2, ih (by simpa using enough)]

/-- Each member after the first takes at least one place. -/
theorem length_le_writeMembers (ms : List (String × Json)) :
    ms.length ≤ (writeMembers ms).length := by
  induction ms with
  | nil => exact Nat.zero_le _
  | cons m ms ih =>
    rw [writeMembers, List.length_cons, List.length_cons, List.length_append, List.length_cons,
      List.length_append]
    omega

/-- An object is read from what stands after its opening brace. -/
theorem Takes.exists_object (takes : Takes member s ms s') :
    ∃ body, (object ms).write = '\x7b' :: body ∧ ∀ rest,
      members member ((body ++ rest).length + 1) true s (body ++ rest) = .ok (s', rest) := by
  cases takes with
  | nil => exact ⟨_, rfl, fun rest => rfl⟩
  | @cons s s' s'' key v ms first others =>
    refine ⟨_, rfl, fun rest => ?_⟩
    have taken := first _ (ends_writeMembers ms rest)
    have places := length_le_writeMembers ms
    rw [List.append_assoc, List.cons_append, List.append_assoc, (members_of_taken taken).1,
      others.writeMembers]
    simp only [List.length_append, List.length_cons]
    omega

/-! ## Whole values -/

/-- A colon that no blank precedes. -/
theorem colon_cons (input : Input) : colon (':' :: input) = .ok input := by
  rw [colon, skipBlanks_cons (by decide)]
  rfl

/-- Members of any kind are taken as they are. -/
theorem takes_rawMember {found : List (String × Json)}
    (each : ∀ m ∈ ms, Reads raw depth m.2 m.2) :
    Takes (rawMember (raw depth)) found ms (ms.reverse ++ found) := by
  induction ms generalizing found with
  | nil => exact .nil
  | cons m ms ih =>
    obtain ⟨first, others⟩ := List.forall_mem_cons.mp each
    rw [List.reverse_cons, List.append_assoc, List.singleton_append]
    refine .cons (fun rest ends => ?_) (ih others)
    rw [rawMember, colon_cons]
    dsimp only [bind, Except.bind]
    rw [first rest ends]

/-- A value that starts with a quote is a string. -/
theorem raw_quote (input : Input) :
    raw depth ('"' :: input) = (readString input).map fun (text, rest) => (string text, rest) := by
  rw [raw.eq_def]
  dsimp only
  rw [skipBlanks_cons (by decide)]
  rfl

/-- A value that starts with a bracket is an array. -/
theorem raw_bracket (input : Input) :
    raw (depth + 1) ('[' :: input) =
      (items (raw depth) (input.length + 1) true input).map fun (vs, rest) => (array vs, rest) := by
  rw [raw.eq_def]
  dsimp only
  rw [skipBlanks_cons (by decide)]
  rfl

/-- A value that starts with a brace is an object. -/
theorem raw_brace (input : Input) :
    raw (depth + 1) ('\x7b' :: input) =
      (members (rawMember (raw depth)) (input.length + 1) true [] input).map
        fun (found, rest) => (object found.reverse, rest) := by
  rw [raw.eq_def]
  dsimp only
  rw [skipBlanks_cons (by decide)]
  rfl

/-- A value is read back whole, if it is not too deep and its doubles are read back. -/
theorem reads_raw {v : Json} (shallow : v.depth ≤ depth) (faithful : v.Exact) :
    Reads raw depth v v := by
  induction v using induction generalizing depth with
  | null =>
    intro rest _
    rw [raw.eq_def]
    rfl
  | bool value =>
    intro rest _
    rw [raw.eq_def]
    cases value <;> rfl
  | number value =>
    intro rest ends
    cases value with
    | integer value fits => exact (spells_writeInteger value fits).raw ends depth
    | real value => exact (faithful value (List.mem_singleton.mpr rfl)).spells.raw ends depth
  | string value =>
    intro rest _
    obtain ⟨body, quote, read⟩ := exists_quoted value
    rw [Json.write, quote, List.cons_append, raw_quote, read]
    rfl
  | array vs ih =>
    intro rest _
    obtain ⟨depth, rfl⟩ : ∃ d, depth = d + 1 :=
      Nat.exists_eq_add_one_of_ne_zero (by rintro rfl; simp [Json.depth] at shallow)
    rw [depth_array_le] at shallow
    rw [exact_array] at faithful
    have each : ∀ v ∈ vs, Reads raw depth (id v) v :=
      fun v member => ih v member (shallow v member) (faithful v member)
    obtain ⟨body, text, read⟩ := exists_array each
    rw [List.map_id] at text
    rw [text, List.cons_append, raw_bracket, read]
    rfl
  | object ms ih =>
    intro rest _
    obtain ⟨depth, rfl⟩ : ∃ d, depth = d + 1 :=
      Nat.exists_eq_add_one_of_ne_zero (by rintro rfl; simp [Json.depth] at shallow)
    rw [depth_object_le] at shallow
    rw [exact_object] at faithful
    have takes := @takes_rawMember depth ms []
      fun m member => ih m member (shallow m member) (faithful m member)
    obtain ⟨body, text, read⟩ := takes.exists_object
    rw [text, List.cons_append, raw_brace, read]
    simp [Except.map]

/-- A settled value is read back by the reader that settles. -/
theorem reads_value {v : Json} (settled : v.settled = v) (shallow : v.depth ≤ depth)
    (faithful : v.Exact) : Reads value depth v v := by
  intro rest ends
  rw [value, reads_raw shallow faithful rest ends]
  simp only [Except.map, settled]

/-- An object is what stands after its opening brace. -/
theorem dictionary_brace (input : Input) :
    dictionary (depth + 1) ('\x7b' :: input) =
      (members (rawMember (raw depth)) (input.length + 1) true [] input).map
        fun (found, rest) => (settledMembers found.reverse [], rest) := by
  rw [dictionary, skipBlanks_cons (by decide)]
  rfl

/-- Settled members are read back by the reader of objects. -/
theorem reads_dictionary (settled : settledMembers ms [] = ms)
    (shallow : (object ms).depth ≤ depth) (faithful : (object ms).Exact) :
    Reads dictionary depth (object ms) ms := by
  intro rest _
  obtain ⟨depth, rfl⟩ : ∃ d, depth = d + 1 :=
    Nat.exists_eq_add_one_of_ne_zero (by rintro rfl; simp [Json.depth] at shallow)
  rw [depth_object_le] at shallow
  rw [exact_object] at faithful
  have takes := @takes_rawMember depth ms []
    fun m member => reads_raw (shallow m member) (faithful m member)
  obtain ⟨body, text, read⟩ := takes.exists_object
  rw [text, List.cons_append, dictionary_brace, read]
  simp [Except.map, settled]

/-! ## Values that may be null -/

/-- Null is read as absence. -/
theorem reads_null : Reads (optional reader) depth null none := by
  intro rest _
  rw [optional]
  rfl

/-- A value that is not null is read as itself where null stands for absence. -/
theorem reads_optional {v : Json} {x : α} (reads : Reads reader depth v x) (filled : v ≠ null) :
    Reads (optional reader) depth v (some x) := by
  intro rest ends
  obtain ⟨c, text, starts, -, -, letter⟩ := v.exists_write
  have read := reads rest ends
  rw [optional, skipBlanks_write]
  rw [starts, List.cons_append] at read ⊢
  split
  · rename_i same
    exact absurd (letter (List.cons.inj same).1) filled
  · rw [read]
    rfl

/-- A value that is not null is read as itself where null stands for the default. -/
theorem reads_nullable [Inhabited α] {v : Json} {x : α} (reads : Reads reader depth v x)
    (filled : v ≠ null) : Reads (nullable reader) depth v x := by
  intro rest ends
  rw [nullable, reads_optional reads filled rest ends]
  rfl

end PageBuild.Json
