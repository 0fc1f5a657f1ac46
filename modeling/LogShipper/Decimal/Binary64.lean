/-!
# Binary floating-point numbers

A `Binary64` is the 64 bits of a double: a sign, an eleven-bit exponent field and a fraction. A
finite one has the magnitude `mantissa · 2 ^ (shift - 1074)`. `ofRatio` rounds a quotient of
natural numbers to the nearest double, a tie to the even mantissa, and beyond the largest one to
infinity. The bits are the exponent field above the fraction, so a mantissa that rounds up to the
next power of two carries into the exponent by itself.

Out of scope: arithmetic, and the other ways of rounding.
-/

namespace LogShipper.Decimal

/-- The 64 bits of a double. -/
structure Binary64 where
  bits : UInt64
  deriving DecidableEq, Inhabited

namespace Binary64

/-- What the lowest bit of the exponent field is worth, and the leading bit of a mantissa. -/
def leadingBit : Nat := 0x10000000000000

/-- What the sign bit is worth. -/
def signBit : Nat := 0x8000000000000000

/-- The eleven-bit exponent field. -/
def exponentField (x : Binary64) : Nat := x.bits.toNat / leadingBit % 2048

/-- The fraction below the exponent field. -/
def fraction (x : Binary64) : Nat := x.bits.toNat % leadingBit

/-- Whether the sign bit is set. -/
def isNegative (x : Binary64) : Bool := x.bits.toNat / signBit == 1

/-- Whether the number is neither infinite nor a NaN. -/
def isFinite (x : Binary64) : Bool := x.exponentField != 2047

/-- Whether the bits stand for no number at all. -/
def isNaN (x : Binary64) : Bool := x.exponentField == 2047 && x.fraction != 0

/-- Whether the number is zero, of either sign. -/
def isZero (x : Binary64) : Bool := x.exponentField == 0 && x.fraction == 0

/-- The mantissa of a finite number, with its leading bit. -/
def mantissa (x : Binary64) : Nat :=
  if x.exponentField = 0 then x.fraction else x.fraction + leadingBit

/-- How far the exponent of a finite number stands above the least one. -/
def shift (x : Binary64) : Nat := x.exponentField - 1

/-- The magnitude of a finite number as a numerator and a denominator. -/
def ratio (x : Binary64) : Nat × Nat := (x.mantissa <<< x.shift, 1 <<< 1074)

/-- Numerator over denominator rounded to the nearest natural number, a tie to the even one. -/
def roundQuotient (num den : Nat) : Nat :=
  let q := num / den
  let r := num % den
  if 2 * r < den then q else if den < 2 * r then q + 1 else q + q % 2

/-- The bits below the sign of `mantissa · 2 ^ (shift - 1074)`, infinity where they overflow. -/
def parts (mantissa shift : Nat) : Nat :=
  min (shift * leadingBit + mantissa) (2047 * leadingBit)

/-- A number from its sign and the bits below the sign. -/
def ofParts (negative : Bool) (low : Nat) : Binary64 :=
  ⟨UInt64.ofNat (low + if negative then signBit else 0)⟩

/-- The shift at which a positive quotient has a 53-bit mantissa, or the least shift. -/
def shiftOf (num den : Nat) : Nat :=
  let lead := 1074 + num.log2
  let above := if num <<< den.log2 < den <<< num.log2 then 1 else 0
  lead - den.log2 - above - 52

/-- The double nearest to a quotient. -/
def ofRatio (negative : Bool) (num den : Nat) : Binary64 :=
  if num = 0 then ofParts negative 0
  else
    let s := shiftOf num den
    ofParts negative (parts (roundQuotient (num <<< 1074) (den <<< s)) s)

/-- Infinity of a sign. -/
def infinity (negative : Bool) : Binary64 := ofParts negative (2047 * leadingBit)

/-- A number that stands for no number. -/
def nan : Binary64 := ofParts false (2047 * leadingBit + leadingBit / 2)

/-- The double nearest to a natural number. -/
def ofNat (n : Nat) : Binary64 := ofRatio false n 1

/-- Zero, of a sign. -/
def zero (negative : Bool) : Binary64 := ofParts negative 0

/-- The same magnitude with a given sign. -/
def withSign (negative : Bool) (x : Binary64) : Binary64 :=
  ofParts negative (x.bits.toNat % signBit)

/-- The rounded product of two finite magnitudes. -/
def mul (x y : Binary64) : Binary64 :=
  ofRatio false (x.ratio.1 * y.ratio.1) (x.ratio.2 * y.ratio.2)

/-- The rounded quotient of two finite magnitudes. -/
def div (x y : Binary64) : Binary64 :=
  ofRatio false (x.ratio.1 * y.ratio.2) (x.ratio.2 * y.ratio.1)

/-- The double nearest to `digits · 10 ^ exponent`. -/
def ofDecimal (negative : Bool) (digits : Nat) (exponent : Int) : Binary64 :=
  if 0 ≤ exponent then ofRatio negative (digits * Nat.pow 10 exponent.toNat) 1
  else ofRatio negative digits (Nat.pow 10 (-exponent).toNat)

end Binary64

end LogShipper.Decimal
