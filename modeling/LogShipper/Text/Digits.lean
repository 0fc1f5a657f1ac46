/-!
# Digits and numbers in texts

Digits in base ten and sixteen, and the reading of a whole text as an unsigned number within a
bound: decimal digits after at most one plus sign.
-/

namespace LogShipper.Text

/-- The value of a decimal digit. -/
def digit? (c : Char) : Option Nat :=
  if '0' ≤ c ∧ c ≤ '9' then some (c.toNat - 48) else none

/-- One digit of a number written in base sixteen. -/
def hexDigit (n : Nat) : Char :=
  if n < 10 then Char.ofNat (0x30 + n) else Char.ofNat (0x57 + n)

/-- The value of a digit in base sixteen, of either case. -/
def hexValue? (c : Char) : Option Nat :=
  if '0' ≤ c ∧ c ≤ '9' then some (c.toNat - 0x30)
  else if 'a' ≤ c ∧ c ≤ 'f' then some (c.toNat - 0x57)
  else if 'A' ≤ c ∧ c ≤ 'F' then some (c.toNat - 0x37)
  else none

/-- A byte as two digits. -/
def hexByte (b : UInt8) : List Char := [hexDigit (b.toNat / 16), hexDigit (b.toNat % 16)]

/-- A number in base sixteen, in lower case and without leading zeros. -/
def hexText (n : Nat) : List Char := Nat.toDigits 16 n

/-- A number in base ten. -/
def decimal (n : Nat) : String := String.ofList (Nat.toDigits 10 n)

/-- A number in base ten with zeros in front up to a width. -/
def padded (width n : Nat) : List Char :=
  let ds := Nat.toDigits 10 n
  List.replicate (width - ds.length) '0' ++ ds

/-- The number that a text of digits stands for. -/
def digits? (cs : List Char) : Option Nat :=
  match cs with
  | [] => none
  | cs => (cs.mapM digit?).map fun ds => ds.foldl (fun n d => n * 10 + d) 0

/-- The unsigned number that a whole text stands for, if it is within the bound. -/
def unsigned? (bound : Nat) (s : String) : Option Nat :=
  let digits :=
    match s.toList with
    | '+' :: cs => cs
    | cs => cs
  match digits? digits with
  | some n => if n ≤ bound then some n else none
  | none => none

end LogShipper.Text
