/-!
# Finite doubles

A double is held exactly: a sign and a magnitude `significand * 2 ^ scale` counted in units of
`2 ^ (-1074)`, the smallest positive double. Rounding a quotient of naturals goes to the nearest
double and a tie to the even significand; products and quotients of doubles are the exact
product or quotient, rounded once. `ofDecimal?` reads a decimal significand and a power of ten
as one conversion followed by one scaling, so a long decimal may land next to its nearest double.
-/
namespace PageBuild

/-- The number of significand values of a double, `2 ^ 53`. -/
abbrev Binary64.significandLimit : Nat := 9007199254740992

/-- The largest binary scale of a finite double, in units of the smallest positive one. -/
abbrev Binary64.scaleLimit : Nat := 2045

/-- A finite double in its only representation. -/
structure Binary64 where
  /-- The sign, which zero has too. -/
  negative : Bool
  /-- The integer part of the magnitude at this scale. -/
  significand : Nat
  /-- The power of two that the significand is multiplied by. -/
  scale : Nat
  significand_lt : significand < Binary64.significandLimit
  scale_le : scale ≤ Binary64.scaleLimit
  normal : scale = 0 ∨ Binary64.significandLimit ≤ 2 * significand
  deriving DecidableEq, Repr

namespace Binary64

/-- How many of the smallest positive doubles make one. -/
def unit : Nat := Nat.pow 2 1074

/-- The double zero of a sign. -/
def zero (negative : Bool) : Binary64 :=
  ⟨negative, 0, 0, by decide, by decide, .inl rfl⟩

instance : Inhabited Binary64 := ⟨zero false⟩

/-- Whether the magnitude is zero, whatever the sign. -/
def isZero (x : Binary64) : Bool := x.significand == 0

/-- The magnitude in units of the smallest positive double. -/
def magnitude (x : Binary64) : Nat := x.significand * Nat.pow 2 x.scale

/-- The same magnitude with the other sign. -/
def negate (x : Binary64) : Binary64 := { x with negative := !x.negative }

/-- The quotient of two naturals rounded to the nearest integer, a half to the even one. -/
def divideEven (numerator denominator : Nat) : Nat :=
  let floor := numerator / denominator
  let twice := 2 * (numerator % denominator)
  if twice < denominator then floor
  else if denominator < twice then floor + 1
  else if floor % 2 = 0 then floor else floor + 1

/-- A significand at a scale as a double, when it is one; `2 ^ 53` moves up one scale. -/
def ofScaled? (negative : Bool) (significand scale : Nat) : Option Binary64 :=
  if bounded : significand < significandLimit ∧ scale ≤ scaleLimit ∧
      (scale = 0 ∨ significandLimit ≤ 2 * significand) then
    some ⟨negative, significand, scale, bounded.1, bounded.2.1, bounded.2.2⟩
  else if carried : significand = significandLimit ∧ scale + 1 ≤ scaleLimit then
    some ⟨negative, significandLimit / 2, scale + 1, by decide, carried.2, .inr (by decide)⟩
  else none

/-- The double nearest to a quotient of naturals; none when it lies beyond the largest. -/
def ofQuotient? (negative : Bool) (numerator denominator : Nat) : Option Binary64 :=
  let units := numerator * unit
  let scale := Nat.log2 (units / denominator) - 52
  ofScaled? negative (divideEven units (denominator * Nat.pow 2 scale)) scale

/-- The product, rounded once. -/
def mul? (x y : Binary64) : Option Binary64 :=
  ofQuotient? (x.negative != y.negative) (x.magnitude * y.magnitude) (unit * unit)

/-- The quotient by a double that is not zero, rounded once. -/
def div? (x y : Binary64) : Option Binary64 :=
  ofQuotient? (x.negative != y.negative) x.magnitude y.magnitude

/-- The double nearest to a power of ten. -/
def powerOfTen? (exponent : Nat) : Option Binary64 := ofQuotient? false (Nat.pow 10 exponent) 1

/-- The largest power of ten that scales in one step. -/
def largestPower : Nat := 308

/-- Multiply by ten to a power of at most `largestPower`, up or down, in one rounded step. -/
def scaleOnce? (x : Binary64) (exponent : Int) : Option Binary64 :=
  match powerOfTen? exponent.natAbs with
  | none => none
  | some power => if 0 ≤ exponent then x.mul? power else x.div? power

/--
Multiply by ten to a power. Up to `largestPower` that is one step; a smaller exponent first
divides by the largest power, and a larger one is out of range unless the number is zero. After
three divisions every double is zero, so the count of steps left never decides.
-/
def scaleByTen? : Nat → Binary64 → Int → Option Binary64
  | 0, x, _ => some (zero x.negative)
  | steps + 1, x, exponent =>
    if exponent.natAbs ≤ largestPower then x.scaleOnce? exponent
    else if x.isZero then some x
    else if 0 ≤ exponent then none
    else
      match x.scaleOnce? (-largestPower) with
      | none => none
      | some reduced => scaleByTen? steps reduced (exponent + largestPower)

/-- The double of a decimal significand times ten to a power: the significand is rounded to a
double, then scaled. -/
def ofDecimal? (negative : Bool) (significand : Nat) (exponent : Int) : Option Binary64 :=
  match ofQuotient? false significand 1 with
  | none => none
  | some x =>
    match scaleByTen? 4 x exponent with
    | none => none
    | some scaled => some (if negative then scaled.negate else scaled)

end Binary64

end PageBuild
