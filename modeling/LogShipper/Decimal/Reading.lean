import LogShipper.Decimal.Binary64
import LogShipper.Text.Digits

/-!
# Reading floating-point numbers

`Binary64.ofText?` reads a whole text as a double: an optional sign, then `inf`, `infinity` or
`nan` in any case, or decimal digits with an optional point and an optional exponent. The nearest
double is taken; far beyond the doubles nothing is computed.
-/

namespace LogShipper.Decimal.Binary64

/-- The digits that a text begins with, and the rest. -/
def leadingDigits : List Char → List Nat × List Char
  | [] => ([], [])
  | c :: cs =>
    match Text.digit? c with
    | some d => (d :: (leadingDigits cs).1, (leadingDigits cs).2)
    | none => ([], c :: cs)

/-- The number that digits stand for. -/
def ofDigits (ds : List Nat) : Nat := ds.foldl (fun n d => n * 10 + d) 0

/-- A sign, if a text begins with one: whether it is a minus, and the rest. -/
def leadingSign : List Char → Bool × List Char
  | '-' :: cs => (true, cs)
  | '+' :: cs => (false, cs)
  | cs => (false, cs)

/-- An exponent that is the whole text. -/
def exponent? : List Char → Option Int
  | [] => some 0
  | c :: cs =>
    if c = 'e' ∨ c = 'E' then
      match leadingDigits (leadingSign cs).2 with
      | ([], _) => none
      | (ds, []) =>
        some (if (leadingSign cs).1 then -(ofDigits ds : Int) else ofDigits ds)
      | _ => none
    else none

/-- The double nearest to `digits · 10 ^ exponent`, where no double is that far out without a
computation. -/
def ofScaled (negative : Bool) (digits : Nat) (exponent : Int) : Binary64 :=
  let lead := (Nat.toDigits 10 digits).length + exponent
  if digits = 0 ∨ lead < -400 then zero negative
  else if 400 < lead then infinity negative
  else ofDecimal negative digits exponent

/-- Reads a number without its sign. -/
def ofUnsigned? (negative : Bool) (cs : List Char) : Option Binary64 :=
  let word := String.ofList (cs.map Char.toLower)
  if word = "inf" ∨ word = "infinity" then some (infinity negative)
  else if word = "nan" then some nan
  else
    let (whole, rest) := leadingDigits cs
    let (fraction, rest) := match rest with
      | '.' :: r => leadingDigits r
      | r => ([], r)
    if whole = [] ∧ fraction = [] then none
    else (exponent? rest).map fun e =>
      ofScaled negative (ofDigits (whole ++ fraction)) (e - fraction.length)

/-- Reads a number. -/
def ofText? (s : String) : Option Binary64 :=
  ofUnsigned? (leadingSign s.toList).1 (leadingSign s.toList).2

end LogShipper.Decimal.Binary64
