import Mathlib.Tactic.IntervalCases
import PageBuild.Json.Read

/-!
# Numbers in a text

A number is read from the front of a text up to a character that ends values, and what follows makes
no difference (`Json.readNumber_append`). An integer is read back from its digits; whether a double is
read back from its text is a matter of rounding alone, and is asked of each double
(`Binary64.ReadsBack`).
-/
namespace PageBuild

namespace Json

variable {negative : Bool} {significand taken dropped : Nat} {exponent : Int} {value : Number}
  {input left rest : Input}

/-! ## Steps that succeed -/

/-- A changed result comes from a result. -/
theorem map_eq_ok {α β : Type} {x : Except Fault α} {f : α → β} {y : β} :
    x.map f = .ok y ↔ ∃ a, x = .ok a ∧ f a = y := by
  cases x <;> simp [Except.map]

/-- Two steps succeed one after the other. -/
theorem bind_eq_ok {α β : Type} {x : Except Fault α} {f : α → Except Fault β} {y : β} :
    (x >>= f) = .ok y ↔ ∃ a, x = .ok a ∧ f a = .ok y := by
  cases x <;> simp [bind, Except.bind]

/-! ## What follows a value -/

/-- Whether a text is at its end or goes on with a comma or a closing bracket. -/
def Ends (rest : Input) : Prop := ∀ c ∈ rest.head?, c = ',' ∨ c = ']' ∨ c = '\x7d'

/-- The end of a text ends values. -/
theorem ends_nil : Ends [] := by simp [Ends]

/-- A comma ends values. -/
theorem ends_comma : Ends (',' :: rest) := by simp [Ends]

/-- A closing bracket ends values. -/
theorem ends_closing (bracket : Bracket) : Ends (bracket.closing :: rest) := by
  cases bracket <;> simp [Ends, Bracket.closing]

/-- What ends values is nothing that a number goes on with. -/
theorem Ends.cases (ends : Ends rest) :
    rest = [] ∨ ∃ c more, rest = c :: more ∧ c.isDigit = false ∧ c ≠ '.' ∧ c ≠ 'e' ∧ c ≠ 'E' := by
  cases rest with
  | nil => exact .inl rfl
  | cons c more =>
    refine .inr ⟨c, more, rfl, ?_⟩
    rcases ends c rfl with rfl | rfl | rfl <;> decide

/-- Digits end where values end. -/
theorem Ends.takeWhile (ends : Ends rest) (input : Input) :
    (input ++ rest).takeWhile Char.isDigit = input.takeWhile Char.isDigit ∧
      (input ++ rest).dropWhile Char.isDigit = input.dropWhile Char.isDigit ++ rest := by
  induction input with
  | nil =>
    rcases ends.cases with rfl | ⟨c, more, rfl, digit, -⟩
    · exact ⟨rfl, rfl⟩
    · simp [digit]
  | cons c input ih =>
    by_cases digit : c.isDigit = true
    · simp [digit, ih]
    · simp [digit]

/-! ## Numbers -/

/-- A significand takes no more digits than there are. -/
theorem absorb_append (ends : Ends rest) :
    absorb significand taken (input ++ rest) =
      ((absorb significand taken input).1, (absorb significand taken input).2.1,
        (absorb significand taken input).2.2 ++ rest) := by
  induction input generalizing significand taken with
  | nil =>
    rcases ends.cases with rfl | ⟨c, more, rfl, digit, -⟩
    · rfl
    · simp [absorb, digit]
  | cons c input ih =>
    simp only [List.cons_append, absorb]
    split
    · exact ih
    · rfl

/-- A double leaves what follows it. -/
theorem realNumber_append
    (read : realNumber negative significand exponent input = .ok (value, left)) (rest : Input) :
    realNumber negative significand exponent (input ++ rest) = .ok (value, left ++ rest) := by
  rw [realNumber] at read ⊢
  generalize Binary64.ofDecimal? negative significand exponent = found at read ⊢
  cases found with
  | none => cases read
  | some double =>
    cases read
    rfl

/-- A whole number leaves what follows it. -/
theorem wholeNumber_append (read : wholeNumber negative significand input = .ok (value, left))
    (rest : Input) :
    wholeNumber negative significand (input ++ rest) = .ok (value, left ++ rest) := by
  rw [wholeNumber] at read ⊢
  by_cases sign : negative = true
  · rw [if_pos sign] at read ⊢
    by_cases fits : 0 < significand ∧ significand ≤ 9223372036854775808
    · rw [dif_pos fits] at read ⊢
      cases read
      rfl
    · rw [dif_neg fits] at read ⊢
      exact realNumber_append read rest
  · rw [if_neg sign] at read ⊢
    by_cases fits : significand ≤ significandMax
    · rw [dif_pos fits] at read ⊢
      cases read
      rfl
    · rw [dif_neg fits] at read ⊢
      exact realNumber_append read rest

/-- The digits of an exponent end where values end. -/
theorem exponentDigits_append {down : Bool} (ends : Ends rest)
    (read : exponentDigits negative significand exponent down input = .ok (value, left)) :
    exponentDigits negative significand exponent down (input ++ rest) =
      .ok (value, left ++ rest) := by
  cases input with
  | nil => cases read
  | cons c input =>
    obtain ⟨digits, others⟩ := ends.takeWhile (c :: input)
    rw [List.cons_append] at digits others
    simp only [exponentDigits, List.cons_append] at read ⊢
    by_cases digit : c.isDigit = true
    · rw [if_pos digit] at read ⊢
      rw [digits, others]
      exact realNumber_append read rest
    · rw [if_neg digit] at read
      cases read

/-- An exponent without a sign. -/
theorem exponentPart_of_digits {mark sign : Char} (marked : mark = 'e' ∨ mark = 'E')
    (plus : sign ≠ '+') (minus : sign ≠ '-') (input : Input) :
    exponentPart negative significand exponent (mark :: sign :: input) =
      exponentDigits negative significand exponent false (sign :: input) := by
  rw [exponentPart.eq_def]
  dsimp only
  rw [if_pos marked]
  split
  · rename_i same
    exact absurd (List.cons.inj same).1 plus
  · rename_i same
    exact absurd (List.cons.inj same).1 minus
  · rfl

/-- A number that no fraction follows. -/
theorem fractionPart_of_whole {c : Char} (dot : c ≠ '.') (input : Input) :
    fractionPart negative significand dropped (c :: input) =
      if c = 'e' ∨ c = 'E' then exponentPart negative significand dropped (c :: input)
      else if dropped = 0 then wholeNumber negative significand (c :: input)
      else realNumber negative significand dropped (c :: input) := by
  rw [fractionPart.eq_def]
  split
  · rename_i none
    cases none
  · rename_i same
    exact absurd (List.cons.inj same).1 dot
  · rename_i same
    exact absurd (List.cons.inj same).1 dot
  · rename_i same
    obtain ⟨rfl, rfl⟩ := List.cons.inj same
    rfl

/-- A number that starts with a digit other than zero. -/
theorem readNumber_of_ne {c : Char} (zero : c ≠ '0') (input : Input) :
    readNumber negative (c :: input) =
      if c.isDigit then
        fractionPart negative (absorb 0 0 (c :: input)).1
          ((absorb 0 0 (c :: input)).2.2.takeWhile Char.isDigit).length
          ((absorb 0 0 (c :: input)).2.2.dropWhile Char.isDigit)
      else .error .invalidNumber := by
  rw [readNumber.eq_def]
  split
  · rename_i none
    cases none
  · rename_i same
    exact absurd (List.cons.inj same).1 zero
  · rename_i same
    obtain ⟨rfl, rfl⟩ := List.cons.inj same
    rfl

/-- An exponent ends where values end. -/
theorem exponentPart_append (ends : Ends rest)
    (read : exponentPart negative significand exponent input = .ok (value, left)) :
    exponentPart negative significand exponent (input ++ rest) = .ok (value, left ++ rest) := by
  cases input with
  | nil =>
    have read := realNumber_append read rest
    rcases ends.cases with rfl | ⟨c, more, rfl, -, -, small, large⟩
    · exact read
    · simpa only [exponentPart, small, large, or_self, ↓reduceIte, List.nil_append] using read
  | cons mark input =>
    by_cases marked : mark = 'e' ∨ mark = 'E'
    · cases input with
      | nil =>
        rw [exponentPart.eq_def] at read
        dsimp only at read
        rw [if_pos marked] at read
        cases read
      | cons sign input =>
        by_cases plus : sign = '+'
        · subst plus
          rw [exponentPart, if_pos marked] at read
          rw [List.cons_append, List.cons_append, exponentPart, if_pos marked]
          exact exponentDigits_append ends read
        · by_cases minus : sign = '-'
          · subst minus
            rw [exponentPart, if_pos marked] at read
            rw [List.cons_append, List.cons_append, exponentPart, if_pos marked]
            exact exponentDigits_append ends read
          · rw [exponentPart_of_digits marked plus minus] at read
            rw [List.cons_append, List.cons_append, exponentPart_of_digits marked plus minus]
            exact exponentDigits_append ends read
    · rw [exponentPart.eq_def] at read ⊢
      dsimp only [List.cons_append] at read ⊢
      rw [if_neg marked] at read ⊢
      exact realNumber_append read rest

/-- A fraction ends where values end. -/
theorem fractionPart_append (ends : Ends rest)
    (read : fractionPart negative significand dropped input = .ok (value, left)) :
    fractionPart negative significand dropped (input ++ rest) = .ok (value, left ++ rest) := by
  have whole : ∀ {input left : Input},
      (if dropped = 0 then wholeNumber negative significand input
        else realNumber negative significand dropped input) = .ok (value, left) →
      (if dropped = 0 then wholeNumber negative significand (input ++ rest)
        else realNumber negative significand dropped (input ++ rest)) =
          .ok (value, left ++ rest) := by
    intro input left read
    split at read
    · rename_i none
      rw [if_pos none]
      exact wholeNumber_append read rest
    · rename_i some
      rw [if_neg some]
      exact realNumber_append read rest
  cases input with
  | nil =>
    have read := whole read
    rcases ends.cases with rfl | ⟨c, more, rfl, -, dot, small, large⟩
    · exact read
    · rw [List.nil_append, fractionPart_of_whole dot, if_neg (by simp [small, large])]
      exact read
  | cons c input =>
    by_cases dot : c = '.'
    · subst dot
      cases input with
      | nil => cases read
      | cons c input =>
        have absorbed := @absorb_append significand 0 (c :: input) rest ends
        rw [List.cons_append] at absorbed
        simp only [fractionPart, List.cons_append] at read ⊢
        by_cases digit : c.isDigit = true
        · rw [if_pos digit] at read ⊢
          rw [absorbed]
          dsimp only
          rw [(ends.takeWhile _).2]
          exact exponentPart_append ends read
        · rw [if_neg digit] at read
          cases read
    · rw [fractionPart_of_whole dot] at read
      rw [List.cons_append, fractionPart_of_whole dot]
      by_cases marked : c = 'e' ∨ c = 'E'
      · rw [if_pos marked] at read ⊢
        exact exponentPart_append ends read
      · rw [if_neg marked] at read ⊢
        exact whole read

/-- A number ends where values end. -/
theorem readNumber_append (ends : Ends rest)
    (read : readNumber negative input = .ok (value, left)) :
    readNumber negative (input ++ rest) = .ok (value, left ++ rest) := by
  cases input with
  | nil => cases read
  | cons c input =>
    by_cases zero : c = '0'
    · subst zero
      cases input with
      | nil =>
        rw [readNumber.eq_def] at read
        have read := fractionPart_append ends read
        rcases ends.cases with rfl | ⟨c, more, rfl, digit, -⟩
        · exact read
        · simpa only [readNumber, List.cons_append, List.nil_append, digit, Bool.false_eq_true,
            ↓reduceIte] using read
      | cons c input =>
        simp only [readNumber, List.cons_append] at read ⊢
        by_cases digit : c.isDigit = true
        · rw [if_pos digit] at read
          cases read
        · rw [if_neg digit] at read ⊢
          exact fractionPart_append ends read
    · rw [readNumber_of_ne zero] at read
      rw [List.cons_append, readNumber_of_ne zero]
      by_cases digit : c.isDigit = true
      · have absorbed := @absorb_append 0 0 (c :: input) rest ends
        rw [List.cons_append] at absorbed
        obtain ⟨digits, others⟩ := ends.takeWhile (absorb 0 0 (c :: input)).2.2
        rw [if_pos digit] at read ⊢
        rw [absorbed]
        dsimp only
        rw [digits, others]
        exact fractionPart_append ends read
      · rw [if_neg digit] at read
        cases read

/-! ## Integers -/

/-- Digits add to a value. -/
theorem le_ofDigitChars (digits : List Char) (value : Nat) :
    value ≤ Nat.ofDigitChars 10 digits value := by
  induction digits generalizing value with
  | nil => exact Nat.le_refl _
  | cons c digits ih =>
    rw [Nat.ofDigitChars_cons]
    have more := ih (10 * value + (c.toNat - '0'.toNat))
    omega

/-- A significand takes all digits of a value that fits. -/
theorem absorb_digits {digits : List Char} (all : ∀ c ∈ digits, c.isDigit = true)
    (fits : Nat.ofDigitChars 10 digits significand ≤ significandMax) :
    absorb significand taken digits =
      (Nat.ofDigitChars 10 digits significand, taken + digits.length, []) := by
  induction digits generalizing significand taken with
  | nil => rfl
  | cons c digits ih =>
    obtain ⟨digit, others⟩ := List.forall_mem_cons.mp all
    rw [Nat.ofDigitChars_cons] at fits ⊢
    have next : significand * 10 + digitValue c = 10 * significand + (c.toNat - '0'.toNat) := by
      rw [digitValue, Nat.mul_comm]
    have bound := le_ofDigitChars digits (10 * significand + (c.toNat - '0'.toNat))
    rw [absorb, next, if_pos ⟨digit, by omega⟩, ih others fits, List.length_cons, Nat.add_assoc,
      Nat.add_comm 1]

/-- The digits of a positive number do not start with zero. -/
theorem exists_toDigits {n : Nat} (positive : 0 < n) :
    ∃ c rest, Nat.toDigits 10 n = c :: rest ∧ c ≠ '0' := by
  induction n using Nat.strongRecOn with
  | ind n ih =>
    by_cases small : n < 10
    · refine ⟨n.digitChar, [], Nat.toDigits_of_lt_base small, ?_⟩
      interval_cases n <;> decide
    · obtain ⟨c, rest, digits, first⟩ := ih (n / 10) (by omega) (by omega)
      refine ⟨c, rest ++ [(n % 10).digitChar], ?_, first⟩
      rw [Nat.toDigits_of_base_le (by decide) (by omega), digits, List.cons_append]

/-- A number that nothing follows is whole. -/
theorem fractionPart_nil :
    fractionPart negative significand 0 [] = wholeNumber negative significand [] := by
  rw [fractionPart.eq_def]
  dsimp only
  rw [if_pos rfl]

/-- The digits of a number that fits are read as the number. -/
theorem readNumber_toDigits {n : Nat} (fits : n ≤ significandMax) :
    readNumber negative (Nat.toDigits 10 n) = wholeNumber negative n [] := by
  rcases Nat.eq_zero_or_pos n with rfl | positive
  · rw [Nat.toDigits_zero, readNumber.eq_def]
    dsimp only
    exact fractionPart_nil
  · obtain ⟨c, rest, digits, first⟩ := exists_toDigits positive
    have all : ∀ c ∈ Nat.toDigits 10 n, c.isDigit = true :=
      fun c member => Nat.isDigit_of_mem_toDigits (by decide) (by decide) member
    have absorbed := @absorb_digits 0 0 _ all (by rwa [Nat.ofDigitChars_ten_toDigits])
    rw [Nat.ofDigitChars_ten_toDigits] at absorbed
    rw [digits] at all absorbed ⊢
    rw [readNumber_of_ne first, if_pos (all c List.mem_cons_self), absorbed]
    dsimp only [List.takeWhile_nil, List.dropWhile_nil, List.length_nil]
    exact fractionPart_nil

/-! ## Values that are numbers -/

/-- Whether a text is read as a number, after the sign that it may start with. -/
def Spells (input : Input) (value : Number) : Prop :=
  (∃ digits, input = '-' :: digits ∧ readNumber true digits = .ok (value, [])) ∨
    ∃ c digits, input = c :: digits ∧ c.isDigit = true ∧
      readNumber false (c :: digits) = .ok (value, [])

/-- What does not start with a blank starts as it is. -/
theorem skipBlanks_cons {c : Char} (filled : isBlank c = false) (input : Input) :
    skipBlanks (c :: input) = c :: input := by
  rw [skipBlanks, List.dropWhile_cons, if_neg (by simp [filled])]

/-- A digit starts a number and nothing else. -/
theorem digit_ne {c d : Char} (digit : c.isDigit = true) (other : d.isDigit = false) : c ≠ d := by
  rintro rfl
  rw [digit] at other
  cases other

/-- Digits are no blanks. -/
theorem isBlank_of_isDigit {c : Char} (digit : c.isDigit = true) : isBlank c = false := by
  have space : c ≠ ' ' := digit_ne digit (by decide)
  have tab : c ≠ '\t' := digit_ne digit (by decide)
  have newline : c ≠ '\n' := digit_ne digit (by decide)
  have backspace : c ≠ '\r' := digit_ne digit (by decide)
  simp [isBlank, space, tab, newline, backspace]

/-- A value that starts with a sign is a number. -/
theorem raw_minus (depth : Nat) (input : Input) :
    raw depth ('-' :: input) =
      (readNumber true input).map fun (value, rest) => (number value, rest) := by
  rw [raw.eq_def]
  dsimp only
  rw [skipBlanks_cons (by decide)]
  rfl

/-- A value that starts with a digit is a number. -/
theorem raw_digit {c : Char} (digit : c.isDigit = true) (depth : Nat) (input : Input) :
    raw depth (c :: input) =
      (readNumber false (c :: input)).map fun (value, rest) => (number value, rest) := by
  rw [raw.eq_def]
  dsimp only
  rw [skipBlanks_cons (isBlank_of_isDigit digit)]
  split
  · rename_i none
    cases none
  all_goals rename_i same
  all_goals obtain ⟨rfl, rfl⟩ := List.cons.inj same
  all_goals first
    | exact absurd digit (by decide)
    | exact if_pos digit

/-- A number that is spelt out is read wherever values end after it. -/
theorem Spells.raw (spells : Spells input value) (ends : Ends rest) (depth : Nat) :
    Json.raw depth (input ++ rest) = .ok (number value, rest) := by
  rcases spells with ⟨digits, rfl, read⟩ | ⟨c, digits, rfl, digit, read⟩
  · rw [List.cons_append, raw_minus, readNumber_append ends read]
    rfl
  · have read := readNumber_append ends read
    rw [List.cons_append] at read ⊢
    rw [raw_digit digit, read]
    rfl

/-- An integer is spelt out by its sign and digits. -/
theorem spells_writeInteger (value : Int)
    (fits : -9223372036854775808 ≤ value ∧ value ≤ 18446744073709551615) :
    Spells (writeInteger value) (.integer value fits) := by
  have size : value.natAbs ≤ significandMax := by
    rw [significandMax]
    omega
  rw [writeInteger]
  by_cases sign : value < 0
  · refine .inl ⟨Nat.toDigits 10 value.natAbs, by rw [if_pos sign]; rfl, ?_⟩
    have small : 0 < value.natAbs ∧ value.natAbs ≤ 9223372036854775808 := by omega
    have same : -Int.ofNat value.natAbs = value := by
      rw [Int.ofNat_eq_natCast]
      omega
    rw [readNumber_toDigits size, wholeNumber, if_pos rfl, dif_pos small]
    simp only [same]
  · have same : Int.ofNat value.natAbs = value := by
      rw [Int.ofNat_eq_natCast]
      omega
    have read : readNumber false (Nat.toDigits 10 value.natAbs) =
        .ok (.integer value fits, []) := by
      rw [readNumber_toDigits size, wholeNumber, if_neg (by decide), dif_pos size]
      simp only [same]
    rw [if_neg sign, List.nil_append]
    cases digits : Nat.toDigits 10 value.natAbs with
    | nil => exact absurd digits Nat.toDigits_ne_nil
    | cons c rest =>
      have digit : c.isDigit = true :=
        Nat.isDigit_of_mem_toDigits (by decide) (by decide) (digits ▸ List.mem_cons_self)
      rw [digits] at read
      exact .inr ⟨c, rest, rfl, digit, read⟩

end Json

/-- A decimal starts with a digit. -/
theorem Decimal.exists_write (d : Decimal) : ∃ c rest, d.write = c :: rest ∧ c.isDigit = true := by
  obtain ⟨c, rest, digits⟩ := List.exists_cons_of_ne_nil (@Nat.toDigits_ne_nil d.digits 10)
  have digit : c.isDigit = true :=
    Nat.isDigit_of_mem_toDigits (by decide) (by decide) (digits ▸ List.mem_cons_self)
  rw [write, digits]
  dsimp only
  split
  · split
    · exact ⟨c, _, rfl, digit⟩
    · split
      · exact ⟨c, _, rfl, digit⟩
      · exact ⟨'0', _, rfl, by decide⟩
  · exact ⟨c, _, rfl, digit⟩

namespace Binary64

variable {x : Binary64}

/-- A double starts with its sign or a digit. -/
theorem exists_write (x : Binary64) :
    ∃ c rest, x.write = c :: rest ∧ (c = '-' ∨ c.isDigit = true) := by
  rw [write]
  cases x.negative with
  | true => exact ⟨'-', _, rfl, .inl rfl⟩
  | false =>
    by_cases zero : x.isZero = true
    · exact ⟨'0', ['.', '0'], by rw [zero]; rfl, by decide⟩
    · obtain ⟨c, rest, text, digit⟩ := x.shortest.exists_write
      exact ⟨c, rest, by rw [if_neg zero, text]; rfl, .inr digit⟩

/-- Whether a double is read back from its text. -/
def ReadsBack (x : Binary64) : Prop := Json.raw 0 x.write = .ok (.number (.real x), [])

/-- Whether a double is read back from its text, as a test. -/
def isReadBack (x : Binary64) : Bool :=
  match Json.raw 0 x.write with
  | .ok (.number (.real y), []) => y == x
  | _ => false

/-- The test tells which doubles are read back. -/
theorem isReadBack_iff : x.isReadBack = true ↔ x.ReadsBack := by
  rw [isReadBack, ReadsBack]
  constructor
  · intro held
    split at held
    · rename_i read
      rw [read, eq_of_beq held]
    · cases held
  · intro read
    rw [read]
    exact beq_self_eq_true x

instance : Decidable x.ReadsBack := decidable_of_iff _ isReadBack_iff

/-- A double that is read back is spelt out by its text. -/
theorem ReadsBack.spells (reads : x.ReadsBack) : Json.Spells x.write (.real x) := by
  have only : ∀ {input : Json.Input} {negative : Bool},
      (Json.readNumber negative input).map (fun (value, rest) => (Json.number value, rest)) =
        .ok (.number (.real x), []) →
      Json.readNumber negative input = .ok (.real x, []) := by
    intro input negative read
    obtain ⟨⟨value, left⟩, found, same⟩ := Json.map_eq_ok.mp read
    cases same
    exact found
  rw [ReadsBack] at reads
  obtain ⟨c, digits, text, rfl | digit⟩ := x.exists_write
  · rw [text, Json.raw_minus] at reads
    exact .inl ⟨digits, text, only reads⟩
  · rw [text, Json.raw_digit digit] at reads
    exact .inr ⟨c, digits, text, digit, only reads⟩

end Binary64

/-- A number starts with its sign or a digit. -/
theorem Number.exists_write (value : Number) :
    ∃ c rest, value.write = c :: rest ∧ (c = '-' ∨ c.isDigit = true) := by
  cases value with
  | real value => exact value.exists_write
  | integer value fits =>
    rcases Json.spells_writeInteger value fits with ⟨digits, text, -⟩ | ⟨c, digits, text, digit, -⟩
    · exact ⟨'-', digits, text, .inl rfl⟩
    · exact ⟨c, digits, text, .inr digit⟩

end PageBuild
