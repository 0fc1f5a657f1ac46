import LogShipper.Decimal.Shortest
import LogShipper.Text.Digits

/-!
# JSON values and their compact text

A `Value` is a JSON value; the members of an object stand in the order in which they are written.
`Value.render` writes it on one line without blanks. Inside a text the quote, the backslash and
the characters below the space are escaped, everything else stands as it is. A floating-point
number is written with the fewest digits that read back, positionally while its leading digit
lies between `10 ^ (-5)` and `10 ^ 15`, else with an exponent of explicit sign.

Out of scope: the indented form.
-/

namespace LogShipper.Json

open LogShipper.Decimal (Binary64 Scientific shortest)

/-- A JSON value. -/
inductive Value where
  | null
  | bool (b : Bool)
  | int (n : Int)
  | float (x : Binary64)
  | text (s : String)
  | array (items : List Value)
  | object (members : List (String × Value))
  deriving Inhabited

/-! ## Texts -/

/-- One character as it stands inside a JSON text. -/
def escapeChar (c : Char) : List Char :=
  if c = '"' then ['\\', '"']
  else if c = '\\' then ['\\', '\\']
  else if c = '\x08' then ['\\', 'b']
  else if c = '\x0c' then ['\\', 'f']
  else if c = '\n' then ['\\', 'n']
  else if c = '\r' then ['\\', 'r']
  else if c = '\t' then ['\\', 't']
  else if c.toNat < 0x20 then
    ['\\', 'u', '0', '0', Text.hexDigit (c.toNat / 16), Text.hexDigit (c.toNat % 16)]
  else [c]

/-- A text between quotes. -/
def textChars (s : String) : List Char :=
  '"' :: (s.toList.flatMap escapeChar ++ ['"'])

/-! ## Numbers -/

/-- The digits of a natural number. -/
def natChars (n : Nat) : List Char := Nat.toDigits 10 n

/-- An integer, with a minus sign where it is negative. -/
def intChars (n : Int) : List Char :=
  if n < 0 then '-' :: natChars n.natAbs else natChars n.natAbs

/-- A positive decimal, positionally or with an exponent. -/
def decimalChars (s : Scientific) : List Char :=
  let digits := natChars s.digits
  let point := (digits.length : Int) + s.exponent
  if 0 ≤ s.exponent ∧ point ≤ 16 then
    digits ++ List.replicate s.exponent.toNat '0' ++ ['.', '0']
  else if 0 < point ∧ point ≤ 16 then
    digits.take point.toNat ++ '.' :: digits.drop point.toNat
  else if -5 < point ∧ point ≤ 0 then
    '0' :: '.' :: (List.replicate (-point).toNat '0' ++ digits)
  else
    let lead := point - 1
    let tail := if lead < 0 then '-' :: natChars lead.natAbs else '+' :: natChars lead.natAbs
    match digits with
    | [d] => d :: 'e' :: tail
    | d :: rest => d :: '.' :: (rest ++ 'e' :: tail)
    | [] => []

/-- A finite floating-point number. -/
def floatChars (x : Binary64) : List Char :=
  (if x.isNegative then ['-'] else []) ++
    (if x.isZero then ['0', '.', '0'] else decimalChars (shortest x))

/-! ## Values -/

mutual

/-- A value without blanks. -/
def Value.chars : Value → List Char
  | .null => ['n', 'u', 'l', 'l']
  | .bool true => ['t', 'r', 'u', 'e']
  | .bool false => ['f', 'a', 'l', 's', 'e']
  | .int n => intChars n
  | .float x => floatChars x
  | .text s => textChars s
  | .array [] => ['[', ']']
  | .array (v :: rest) => '[' :: (v.chars ++ itemChars rest)
  | .object [] => ['\x7b', '\x7d']
  | .object ((k, v) :: rest) => '\x7b' :: (textChars k ++ ':' :: (v.chars ++ memberChars rest))

/-- The items after the first one, with the closing bracket. -/
def itemChars : List Value → List Char
  | [] => [']']
  | v :: rest => ',' :: (v.chars ++ itemChars rest)

/-- The members after the first one, with the closing brace. -/
def memberChars : List (String × Value) → List Char
  | [] => ['\x7d']
  | (k, v) :: rest => ',' :: (textChars k ++ ':' :: (v.chars ++ memberChars rest))

end

/-- The compact text of a value. -/
def Value.render (v : Value) : String := String.ofList v.chars

/-- A text or nothing. -/
def Value.ofText? : Option String → Value
  | none => .null
  | some s => .text s

end LogShipper.Json
