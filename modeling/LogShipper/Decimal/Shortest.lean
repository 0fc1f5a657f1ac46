import LogShipper.Decimal.Binary64

/-!
# The shortest decimal that reads back

`shortest x` is the decimal `digits · 10 ^ exponent` with the fewest digits among those that
round to the double `x`, the nearest such one where several have that length.

The numbers that round to `m · 2 ^ q` form an interval that ends half-way to the neighbours, its
ends included when `m` is even; below a power of two the lower neighbour is twice as near. For
each count of digits the two decimals of that length next to `x` are tried.

Out of scope: numbers that are not finite, which have no decimal.
-/

namespace LogShipper.Decimal

/-- A decimal `digits · 10 ^ exponent`. -/
structure Scientific where
  digits : Nat
  exponent : Int
  deriving DecidableEq, Repr

/-- The numbers that round to one double, as numerators over a common denominator. -/
structure Rounding where
  low : Nat
  value : Nat
  high : Nat
  den : Nat
  closed : Bool

namespace Rounding

/-- The interval of numbers that round to a finite double. -/
def of (x : Binary64) : Rounding :=
  let m := x.mantissa
  let below := if x.fraction = 0 ∧ 1 < x.exponentField then 1 else 2
  { low := (4 * m - below) <<< x.shift
    value := (4 * m) <<< x.shift
    high := (4 * m + 2) <<< x.shift
    den := 1 <<< 1076
    closed := m % 2 == 0 }

/-- Whether `num / den` lies in the interval. -/
def contains (r : Rounding) (num den : Nat) : Bool :=
  let x := num * r.den
  let low := r.low * den
  let high := r.high * den
  if r.closed then low ≤ x && x ≤ high else low < x && x < high

end Rounding

/-- How many digits a natural number has. -/
def digitCount (n : Nat) : Nat := (Nat.toDigits 10 n).length

/-- The exponent of the leading digit of a positive quotient. -/
def leadingExponent (num den : Nat) : Int :=
  if den ≤ num then (digitCount (num / den) : Int) - 1
  else
    let j := digitCount (den / num) - 1
    if den ≤ num * Nat.pow 10 j then -(j : Int) else -((j : Int) + 1)

/-- The decimal `digits · 10 ^ exponent` as a numerator and a denominator. -/
def Scientific.ratio (s : Scientific) : Nat × Nat :=
  if 0 ≤ s.exponent then (s.digits * Nat.pow 10 s.exponent.toNat, 1)
  else (s.digits, Nat.pow 10 (-s.exponent).toNat)

/-- The same decimal without zeros at its end. -/
def stripZeros : Nat → Scientific → Scientific
  | 0, s => s
  | fuel + 1, s =>
    if s.digits ≠ 0 ∧ s.digits % 10 = 0 then
      stripZeros fuel { digits := s.digits / 10, exponent := s.exponent + 1 }
    else s

/-- The nearer of the two decimals on the grid of `10 ^ exponent` next to a number, among those
that round to it. -/
def onGrid (r : Rounding) (exponent : Int) : Option Scientific :=
  let unit := (Scientific.mk 1 exponent).ratio
  let below := r.value * unit.2 / (r.den * unit.1)
  let rest := r.value * unit.2 % (r.den * unit.1)
  let fits (d : Nat) := r.contains (d * unit.1) unit.2
  let least : Scientific := ⟨below, exponent⟩
  let next : Scientific := ⟨below + 1, exponent⟩
  match fits below, fits (below + 1) with
  | false, false => none
  | true, false => some least
  | false, true => some next
  | true, true =>
    if 2 * rest < r.den * unit.1 then some least
    else if r.den * unit.1 < 2 * rest then some next
    else if below % 2 = 0 then some least else some next

/-- The first grid, from the given digit count on, that holds a decimal rounding to the number. -/
def firstGrid (r : Rounding) (lead : Int) : Nat → Nat → Option Scientific
  | 0, _ => none
  | fuel + 1, count =>
    match onGrid r (lead - count + 1) with
    | some s => some s
    | none => firstGrid r lead fuel (count + 1)

/-- The shortest decimal that reads back as the magnitude of a finite double, and the nearest of
these. -/
def shortest (x : Binary64) : Scientific :=
  if x.isZero then ⟨0, 0⟩
  else
    let r := Rounding.of x
    match firstGrid r (leadingExponent r.value r.den) 18 1 with
    | some s => stripZeros 18 s
    | none => ⟨0, 0⟩

end LogShipper.Decimal
