import LogShipper.Text.Bytes
import LogShipper.Text.Digits

/-!
# Percent encoding

A character of a set is written as a percent sign and two upper-case digits for each byte of its
UTF-8 form; characters outside ASCII always are. `decode` undoes it for any text: a percent sign
that is not followed by two digits stands for itself.

Results:
* `encode_cons`: encoding goes character by character.
* `decodeBytes_cons_of_ne`: what is no percent sign stands for itself.
-/

namespace LogShipper.Url

/-- One digit in base sixteen, in upper case. -/
def upperHexDigit (n : Nat) : Char :=
  if n < 10 then Char.ofNat (0x30 + n) else Char.ofNat (0x37 + n)

/-- A byte as a percent sign and two digits. -/
def percentByte (b : UInt8) : List Char :=
  ['%', upperHexDigit (b.toNat / 16), upperHexDigit (b.toNat % 16)]

/-- Controls and all characters outside ASCII. -/
def isControl (c : Char) : Bool := c.toNat < 0x20 || 0x7F ≤ c.toNat

/-- The characters that are encoded in a password. -/
def isCredentialReserved (c : Char) : Bool :=
  isControl c || [' ', '"', '#', '<', '>', '?', '`', '\x7b', '\x7d', '/', ':', ';', '=', '@', '[',
    '\\', ']', '^', '|'].contains c

/-- One character, encoded if it is in the set. -/
def encodeChar (inSet : Char → Bool) (c : Char) : List Char :=
  if inSet c then (Text.utf8Char c).flatMap percentByte else [c]

/-- A text with the characters of a set encoded. -/
def encode (inSet : Char → Bool) (cs : List Char) : List Char := cs.flatMap (encodeChar inSet)

/-- The bytes that an encoded text stands for. -/
def decodeBytes : List Char → Bytes
  | [] => []
  | '%' :: a :: b :: cs =>
    match Text.hexValue? a, Text.hexValue? b with
    | some x, some y => UInt8.ofNat (x * 16 + y) :: decodeBytes cs
    | _, _ => 0x25 :: decodeBytes (a :: b :: cs)
  | c :: cs => Text.utf8Char c ++ decodeBytes cs
termination_by cs => cs.length

/-- The text that an encoded text stands for, if its bytes are UTF-8. -/
def decode? (cs : List Char) : Option String := Text.ofUtf8? (decodeBytes cs)

theorem encode_cons (inSet : Char → Bool) (c : Char) (cs : List Char) :
    encode inSet (c :: cs) = encodeChar inSet c ++ encode inSet cs := by
  simp [encode]

theorem encodeChar_of_not {inSet : Char → Bool} {c : Char} (h : inSet c = false) :
    encodeChar inSet c = [c] := by
  simp [encodeChar, h]

theorem decodeBytes_cons_of_ne {c : Char} (h : c ≠ '%') (cs : List Char) :
    decodeBytes (c :: cs) = Text.utf8Char c ++ decodeBytes cs := by
  rw [decodeBytes.eq_3]
  rintro a b ds rfl
  exact absurd rfl h

end LogShipper.Url
