/-
# The shortest decimal that reads back

A finite double is `m · 2^q`. The reals that round to it form an interval
around it, whose ends belong to it exactly when `m` is even. Among the decimals
with few digits, the first grid `c · 10^e` that meets the interval has a point
next to the double on it; of the two neighbours the nearer one is chosen.
The search runs from one digit to seventeen, which always suffice.
-/
import VersionTrail.Text

namespace VersionTrail.Decimal

open VersionTrail.Text

/-- A positive binary number `mantissa · 2^exponent`. `low` says that the next
smaller number is only half as far away as the next larger one. -/
structure Binary where
  mantissa : Nat
  exponent : Int
  low : Bool
  deriving Repr

/-- A decimal number `coefficient · 10^exponent`. -/
structure Scaled where
  coefficient : Nat
  exponent : Int
  deriving Repr

/-- The weight of the bit in front of the 52 stored bits of the fraction. -/
def hiddenBit : Nat :=
  0x10000000000000

/-- The parts of a positive finite double. -/
def Binary.ofBits (bits : UInt64) : Binary :=
  let fraction : Nat := bits.toNat % hiddenBit
  let power : Nat := bits.toNat / hiddenBit % 2048
  if power = 0 then ⟨fraction, -1074, false⟩
  else ⟨hiddenBit + fraction, (power : Int) - 1075, fraction == 0 && 1 < power⟩

/-- The number as a fraction over a common denominator, with the distances to
the ends of its interval: value, distance down, distance up, denominator. -/
structure Interval where
  value : Nat
  below : Nat
  above : Nat
  denominator : Nat
  closed : Bool

/-- The interval of the reals that round to a binary number, in quarters of its
last place. -/
def Binary.interval (b : Binary) : Interval :=
  let up := Nat.pow 2 b.exponent.toNat
  { value := 4 * b.mantissa * up
    below := if b.low then up else 2 * up
    above := 2 * up
    denominator := 4 * Nat.pow 2 (-b.exponent).toNat
    closed := b.mantissa % 2 = 0 }

/-- Whether `num / den` lies in the interval. -/
def Interval.holds (i : Interval) (num den : Nat) : Bool :=
  let x := num * i.denominator
  let lowest := (i.value - i.below) * den
  let highest := (i.value + i.above) * den
  if i.closed then lowest ≤ x && x ≤ highest else lowest < x && x < highest

/-- The neighbours of the interval's value on the grid of the multiples of
`10^e`, tested in order of distance; an exact tie goes to the even one. -/
def Interval.onGrid? (i : Interval) (e : Int) : Option Scaled :=
  let num := i.value * Nat.pow 10 (-e).toNat
  let den := i.denominator * Nat.pow 10 e.toNat
  let down := num / den
  let remainder := num % den
  let nearDown := 2 * remainder < den ∨ (2 * remainder = den ∧ down % 2 = 0)
  let order := if nearDown then [down, down + 1] else [down + 1, down]
  let hit? := order.find? fun c => i.holds (c * Nat.pow 10 e.toNat) (Nat.pow 10 (-e).toNat)
  hit?.map fun c => ⟨c, e⟩

/-- How many decimal digits the whole part of `num / den` has, with zero and
negative counts for fractions that start behind the point. -/
def magnitude (num den : Nat) : Int :=
  if den ≤ num then ((Nat.toDigits 10 (num / den)).length : Int)
  else 1 - ((Nat.toDigits 10 (den / num)).length : Int)

/-- Tries the grids that leave room for more and more digits. -/
def Interval.search (i : Interval) (top : Int) : Nat → Nat → Scaled
  | 0, _ => ⟨0, 0⟩
  | tries + 1, count =>
    match i.onGrid? (top - count) with
    | some s => s
    | none => i.search top tries (count + 1)

/-- The decimal with the fewest digits that rounds to a positive double. -/
def shortest (b : Binary) : Scaled :=
  let i := b.interval
  i.search (magnitude i.value i.denominator) 20 0

/-- The decimal written out with a point where it needs one, never with an
exponent. -/
def Scaled.positional (s : Scaled) : List Char :=
  let ds := Nat.toDigits 10 s.coefficient
  if 0 ≤ s.exponent then ds ++ List.replicate s.exponent.toNat '0'
  else
    let places := (-s.exponent).toNat
    let padded := List.replicate (places + 1 - ds.length) '0' ++ ds
    let whole := padded.take (padded.length - places)
    let fraction := (padded.drop (padded.length - places)).reverse.dropWhile (· == '0')
    if fraction.isEmpty then whole else whole ++ '.' :: fraction.reverse

end VersionTrail.Decimal
