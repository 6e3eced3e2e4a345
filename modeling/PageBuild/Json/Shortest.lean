import PageBuild.Json.Binary64

/-!
# Shortest decimals

The shortest decimal of a double has the fewest digits among the decimals nearer to it than to
any other double, and is the nearest of those. Each grid of one more digit is tried in turn: if a
point of the grid lies in the interval of the reals that round to the double, then so does one of
the two grid points around the double.
-/
namespace PageBuild

/-- A positive decimal: its digits as one natural, times ten to a power. -/
structure Decimal where
  /-- The digits, read as one natural. -/
  digits : Nat
  /-- The power of ten of the last digit. -/
  exponent : Int
  deriving DecidableEq, Repr

namespace Decimal

/-- The same number without trailing zeros. -/
def trim : Nat → Decimal → Decimal
  | 0, d => d
  | fuel + 1, d =>
    if d.digits ≠ 0 ∧ d.digits % 10 = 0 then trim fuel ⟨d.digits / 10, d.exponent + 1⟩ else d

/-- The value as a quotient of naturals. -/
def quotient (d : Decimal) : Nat × Nat :=
  if 0 ≤ d.exponent then (d.digits * Nat.pow 10 d.exponent.toNat, 1)
  else (d.digits, Nat.pow 10 (-d.exponent).toNat)

end Decimal

namespace Binary64

/-- Whether the double nearest to a decimal has this magnitude. -/
def readsBack (x : Binary64) (d : Decimal) : Bool :=
  match ofQuotient? false d.quotient.1 d.quotient.2 with
  | some y => y.magnitude == x.magnitude
  | none => false

/-- The least power of ten, from a given one on, that lifts the magnitude to one whole. -/
def liftToOne (x : Binary64) : Nat → Nat → Nat
  | 0, power => power
  | fuel + 1, power =>
    if unit ≤ x.magnitude * Nat.pow 10 power then power else x.liftToOne fuel (power + 1)

/-- The greatest exponent with `10 ^ exponent` at most the magnitude, which is not zero. -/
def leadingExponent (x : Binary64) : Int :=
  let whole := x.magnitude / unit
  if 0 < whole then Int.ofNat ((Nat.toDigits 10 whole).length - 1)
  else -Int.ofNat (x.liftToOne 324 1)

/-- The two points around the magnitude on the grid of multiples of ten to a power, the nearer
first, and on a tie the one with an even last digit first. -/
def neighbours (x : Binary64) (exponent : Int) : Decimal × Decimal :=
  let numerator := if 0 ≤ exponent then x.magnitude else x.magnitude * Nat.pow 10 (-exponent).toNat
  let denominator := if 0 ≤ exponent then unit * Nat.pow 10 exponent.toNat else unit
  let floor := numerator / denominator
  let nearest := divideEven numerator denominator
  (⟨nearest, exponent⟩, ⟨if nearest = floor then floor + 1 else floor, exponent⟩)

/-- Try the grids of a growing number of digits. The last resort is the grid of seventeen
digits, on which the nearer point always reads back. -/
def shortestFrom (x : Binary64) (leading : Int) : Nat → Nat → Decimal
  | 0, digits => (x.neighbours (leading - digits)).1
  | fuel + 1, digits =>
    let candidates := x.neighbours (leading - digits)
    if x.readsBack candidates.1 then candidates.1
    else if x.readsBack candidates.2 then candidates.2
    else shortestFrom x leading fuel (digits + 1)

/-- The shortest decimal of a magnitude that is not zero, without trailing zeros. -/
def shortest (x : Binary64) : Decimal :=
  (shortestFrom x x.leadingExponent 16 0).trim 400

end Binary64

end PageBuild
