import LogShipper.Decimal.Binary64
import LogShipper.Text.Digits

/-!
# JSON tokens

`lex` cuts a text into tokens. A reader either reads a token or passes over it, and the two do not
meet the same faults: a text with half a surrogate pair, or a number too large for a double, can
be passed over but not read, and a number that the end of the text cuts short is malformed to one
and truncated to the other. A `Lexeme` therefore holds both outcomes.

Where no token begins, the list of tokens ends with the fault found there.

Out of scope: the place of a fault in the text.
-/

namespace LogShipper.Json

open LogShipper.Decimal (Binary64)

/-- Why a text is not JSON: something stands that must not, or the text ends too early. -/
inductive Fault where
  | malformed
  | truncated
  deriving DecidableEq, Repr

/-- A value without parts. -/
inductive Atom where
  | null
  | bool (b : Bool)
  | int (n : Int)
  | float (x : Binary64)
  | text (s : String)
  deriving DecidableEq

/-- A token that stands for a value without parts. -/
structure Lexeme where
  /-- Whether it begins with a quote. -/
  isText : Bool
  /-- The fault met by a reader that passes over it. -/
  skipped : Option Fault
  /-- What a reader that wants it gets. -/
  read : Except Fault Atom

/-- The words that a JSON text is made of. -/
inductive Token where
  | openArray
  | closeArray
  | openObject
  | closeObject
  | comma
  | colon
  | atom (lexeme : Lexeme)

/-! ## Words -/

/-- Reads the rest of a known word. -/
def scanWord : List Char → List Char → Except Fault (List Char)
  | [], cs => .ok cs
  | _ :: _, [] => .error .truncated
  | w :: ws, c :: cs => if c = w then scanWord ws cs else .error .malformed

/-! ## Texts -/

/-- The inside of a text, scanned up to the closing quote. -/
structure Scan where
  /-- What follows the closing quote. -/
  rest : Except Fault (List Char)
  /-- The characters that were written. -/
  read : Except Fault (List Char)

namespace Scan

/-- Nothing can be read from here, nor passed over. -/
def stop (f : Fault) : Scan := ⟨.error f, .error f⟩

/-- A character in front of what follows. -/
def cons (c : Char) (s : Scan) : Scan := ⟨s.rest, s.read.map (c :: ·)⟩

/-- What follows can be passed over but not read. -/
def spoil (f : Fault) (s : Scan) : Scan := ⟨s.rest, .error f⟩

end Scan

/-- The character that a short escape stands for. -/
def shortEscape? : Char → Option Char
  | '"' => some '"'
  | '\\' => some '\\'
  | '/' => some '/'
  | 'b' => some '\x08'
  | 'f' => some '\x0c'
  | 'n' => some '\n'
  | 'r' => some '\r'
  | 't' => some '\t'
  | _ => none

/-- The number that four digits in base sixteen stand for. -/
def hexQuad? (a b c d : Char) : Option Nat :=
  match Text.hexValue? a, Text.hexValue? b, Text.hexValue? c, Text.hexValue? d with
  | some a, some b, some c, some d => some (((a * 16 + b) * 16 + c) * 16 + d)
  | _, _, _, _ => none

/-- Whether a UTF-16 unit is the first half of a pair. -/
def isHighSurrogate (n : Nat) : Bool := 0xD800 ≤ n && n ≤ 0xDBFF

/-- Whether a UTF-16 unit is the second half of a pair. -/
def isLowSurrogate (n : Nat) : Bool := 0xDC00 ≤ n && n ≤ 0xDFFF

/-- The character that a pair of halves stands for. -/
def ofSurrogates (high low : Nat) : Char :=
  Char.ofNat (0x10000 + (high - 0xD800) * 0x400 + (low - 0xDC00))

/-- The fault of an escape with fewer than four characters left: four bytes would be there to be
wrong, fewer are a text cut short. -/
def shortQuadFault (cs : List Char) : Fault :=
  if 4 ≤ (String.ofList cs).utf8ByteSize then .malformed else .truncated

/-- The fault of what stands where the second half of a surrogate pair is wanted. -/
def pairFault : List Char → Fault
  | [] => .truncated
  | ['\\'] => .truncated
  | '\\' :: 'u' :: cs => shortQuadFault cs
  | _ => .malformed

/-- Scans the inside of a text. -/
def scanText : List Char → Scan
  | [] => .stop .truncated
  | '"' :: cs => ⟨.ok cs, .ok []⟩
  | ['\\'] => .stop .truncated
  | '\\' :: 'u' :: a :: b :: c :: d :: cs =>
    match hexQuad? a b c d with
    | none => .stop .malformed
    | some n =>
      if isLowSurrogate n then (scanText cs).spoil .malformed
      else if isHighSurrogate n then
        match cs with
        | '\\' :: 'u' :: e :: f :: g :: h :: ds =>
          match hexQuad? e f g h with
          | none => .stop .malformed
          | some m =>
            if isLowSurrogate m then (scanText ds).cons (ofSurrogates n m)
            else (scanText ('\\' :: 'u' :: e :: f :: g :: h :: ds)).spoil .malformed
        | cs => (scanText cs).spoil (pairFault cs)
      else (scanText cs).cons (Char.ofNat n)
  | '\\' :: e :: cs =>
    if e = 'u' then .stop (shortQuadFault cs)
    else match shortEscape? e with
      | none => .stop .malformed
      | some c => (scanText cs).cons c
  | c :: cs => if c.toNat < 0x20 then .stop .malformed else (scanText cs).cons c
termination_by cs => cs.length

/-! ## Numbers -/

/-- The parts of a number as written. -/
structure Numeral where
  negative : Bool
  whole : List Nat
  fraction : List Nat
  /-- Whether the exponent is negative, and its digits. -/
  exponent : Option (Bool × List Nat)
  /-- Whether a point was written. -/
  pointed : Bool

/-- The digits that a text begins with, and the rest. -/
def scanDigits : List Char → List Nat × List Char
  | [] => ([], [])
  | c :: cs =>
    match Text.digit? c with
    | some d => (d :: (scanDigits cs).1, (scanDigits cs).2)
    | none => ([], c :: cs)

/-- How a number fails: passing over it, and reading it. -/
structure NumberFault where
  skipping : Fault
  reading : Fault

/-- The fault where a digit is wanted and something else, or nothing, stands. -/
def NumberFault.wanting : List Char → NumberFault
  | [] => ⟨.malformed, .truncated⟩
  | _ => ⟨.malformed, .malformed⟩

/-- Scans the exponent of a number, if there is one. -/
def scanExponent : List Char → Except NumberFault (Option (Bool × List Nat) × List Char)
  | [] => .ok (none, [])
  | c :: cs =>
    if c = 'e' ∨ c = 'E' then
      let (negative, rest) :=
        match cs with
        | '+' :: r => (false, r)
        | '-' :: r => (true, r)
        | r => (false, r)
      match scanDigits rest with
      | ([], r) => .error (.wanting r)
      | (ds, r) => .ok (some (negative, ds), r)
    else .ok (none, c :: cs)

/-- Scans a number after its sign. -/
def scanNumber (negative : Bool) (cs : List Char) :
    Except NumberFault (Numeral × List Char) :=
  match scanDigits cs with
  | ([], r) => .error (.wanting r)
  | (0 :: _ :: _, _) => .error ⟨.malformed, .malformed⟩
  | (whole, '.' :: r) =>
    match scanDigits r with
    | ([], r) => .error (.wanting r)
    | (fraction, r) => do
      let (exponent, r) ← scanExponent r
      return (⟨negative, whole, fraction, exponent, true⟩, r)
  | (whole, r) => do
    let (exponent, r) ← scanExponent r
    return (⟨negative, whole, [], exponent, false⟩, r)

/-- Adds digits to a number while it stays below a bound; how many were added. -/
def accumulate (bound : Nat) : Nat → Nat → List Nat → Nat × Nat
  | n, used, [] => (n, used)
  | n, used, d :: ds =>
    if n * 10 + d ≤ bound then accumulate bound (n * 10 + d) (used + 1) ds else (n, used)

/-- The largest 64-bit unsigned number. -/
def maxUnsigned64 : Nat := UInt64.size - 1

/-- The largest exponent that is read digit by digit. -/
def maxExponent : Nat := UInt32.size / 2 - 1

/-- The number `significand · 10 ^ exponent`, with one rounding for the significand and one for each
power of ten it is scaled by; nothing where it overflows. -/
def scale (x : Binary64) (exponent : Int) : Option Binary64 :=
  if exponent.natAbs ≤ 308 then
    let power := Binary64.ofNat (Nat.pow 10 exponent.natAbs)
    if 0 ≤ exponent then
      let y := x.mul power
      if y.isFinite then some y else none
    else some (x.div power)
  else if x.isZero then some x
  else if 0 ≤ exponent then none
  else scale (x.div (Binary64.ofNat (Nat.pow 10 308))) (exponent + 308)
termination_by exponent.natAbs
decreasing_by omega

/-- The exponent that is written out, unless it is too large to matter. -/
def writtenExponent? (ds : List Nat) : Option Nat :=
  match accumulate maxExponent 0 0 ds with
  | (n, used) => if used = ds.length then some n else none

/-- The value of a number: an integer where it is written as one and fits in 64 bits, else a
double; nothing where it overflows. Digits that would overflow the significand are dropped. -/
def Numeral.value? (n : Numeral) : Option Atom :=
  let (whole, used) := accumulate maxUnsigned64 0 0 n.whole
  let dropped := n.whole.length - used
  if n.pointed = false ∧ n.exponent = none ∧ dropped = 0 ∧
      (n.negative = false ∨ (0 < whole ∧ whole ≤ UInt64.size / 2)) then
    some (.int (if n.negative then -(whole : Int) else whole))
  else
    let (significand, after) := accumulate maxUnsigned64 whole 0 n.fraction
    let start : Int := (dropped : Int) - (after : Int)
    let magnitude :=
      match n.exponent with
      | none => scale (Binary64.ofNat significand) start
      | some (negative, ds) =>
        match writtenExponent? ds with
        | some e =>
          scale (Binary64.ofNat significand) (if negative then start - e else start + e)
        | none =>
          if significand = 0 ∨ negative then some (Binary64.zero false) else none
    magnitude.map fun x => .float (x.withSign n.negative)

/-! ## The tokens of a text -/

/-- The tokens of a text, and the fault that stands after the last one. -/
structure Lexed where
  tokens : List Token
  ending : Fault

/-- Whether a character may stand between tokens. -/
def isSpace (c : Char) : Bool := c = ' ' || c = '\n' || c = '\t' || c = '\r'

/-- One token, and what follows it unless nothing can. -/
def Token.scan? (c : Char) (cs : List Char) : Option (Token × Option (List Char)) :=
  let word (rest : List Char) (a : Atom) :=
    match scanWord rest cs with
    | .ok r => some (.atom ⟨false, none, .ok a⟩, some r)
    | .error f => some (.atom ⟨false, some f, .error f⟩, none)
  let number (negative : Bool) (cs : List Char) :=
    match scanNumber negative cs with
    | .error f => some (.atom ⟨false, some f.skipping, .error f.reading⟩, none)
    | .ok (n, r) =>
      match n.value? with
      | some a => some (.atom ⟨false, none, .ok a⟩, some r)
      | none => some (.atom ⟨false, none, .error .malformed⟩, some r)
  match c with
  | '[' => some (.openArray, some cs)
  | ']' => some (.closeArray, some cs)
  | '\x7b' => some (.openObject, some cs)
  | '\x7d' => some (.closeObject, some cs)
  | ',' => some (.comma, some cs)
  | ':' => some (.colon, some cs)
  | 'n' => word ['u', 'l', 'l'] .null
  | 't' => word ['r', 'u', 'e'] (.bool true)
  | 'f' => word ['a', 'l', 's', 'e'] (.bool false)
  | '"' =>
    let s := scanText cs
    let read := s.read.map fun t => Atom.text (String.ofList t)
    match s.rest with
    | .ok r => some (.atom ⟨true, none, read⟩, some r)
    | .error f => some (.atom ⟨true, some f, read⟩, none)
  | '-' => number true cs
  | c => if (Text.digit? c).isSome then number false (c :: cs) else none

/-- The tokens of a text, given at least as much fuel as it has characters. -/
def lexFuel : Nat → List Char → Lexed
  | _, [] => ⟨[], .truncated⟩
  | 0, _ :: _ => ⟨[], .malformed⟩
  | fuel + 1, c :: cs =>
    if isSpace c then lexFuel fuel cs
    else match Token.scan? c cs with
      | none => ⟨[], .malformed⟩
      | some (t, none) => ⟨[t], .malformed⟩
      | some (t, some rest) =>
        let more := lexFuel fuel rest
        ⟨t :: more.tokens, more.ending⟩

/-- The tokens of a text. -/
def lex (cs : List Char) : Lexed := lexFuel cs.length cs

end LogShipper.Json
