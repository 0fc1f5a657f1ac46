import LogShipper.Json.Tree

/-!
# JSON documents as they are written

A `Script` is a JSON document with all that its text says: the white space around tokens, the order
of members and whether names repeat, which characters of a text are escaped and in which way, and
each number digit by digit. `Script.chars` is the text. `Script.node` is the tree that a reader of
the text meets (`Parsing.lean`).

Nothing is asked of names, so an object may hold one twice, nor of escapes, so a text may hold half
of a surrogate pair. Such a text stands for nothing (`readPieces`), and so does a number that is too
large for a double.

Results:
* `tokens_eq_cons`: a document does not begin with the end of an array.
-/

namespace LogShipper.Json

/-- Something that cannot be read is malformed. -/
def orMalformed {α : Type} : Option α → Except Fault α
  | some a => .ok a
  | none => .error .malformed

theorem orMalformed_map {α β : Type} (f : α → β) (o : Option α) :
    (orMalformed o).map f = orMalformed (o.map f) := by
  cases o <;> rfl

/-! ## White space -/

/-- White space around tokens. -/
structure Gap where
  chars : List Char
  blank : ∀ c ∈ chars, isSpace c = true

/-- No white space. -/
def Gap.none : Gap := ⟨[], fun _ hc => absurd hc List.not_mem_nil⟩

/-! ## Texts -/

/-- How one character of a text is written, or one half of it. -/
inductive Piece where
  /-- As it is. -/
  | plain (c : Char) (quote : c ≠ '"') (backslash : c ≠ '\\') (visible : 0x20 ≤ c.toNat)
  /-- As a backslash and a letter or sign. -/
  | short (sign c : Char) (means : shortEscape? sign = some c)
  /-- As four digits in base sixteen. -/
  | code (a b c d : Char) (n : Nat) (means : hexQuad? a b c d = some n)

/-- The characters of a piece. -/
def Piece.chars : Piece → List Char
  | .plain c _ _ _ => [c]
  | .short sign _ _ => ['\\', sign]
  | .code a b c d _ _ => ['\\', 'u', a, b, c, d]

/-- What pieces stand for, unless half a surrogate pair is among them. -/
def readPieces : List Piece → Option (List Char)
  | [] => some []
  | .plain c _ _ _ :: rest => (readPieces rest).map (c :: ·)
  | .short _ c _ :: rest => (readPieces rest).map (c :: ·)
  | .code _ _ _ _ n _ :: rest =>
    if isLowSurrogate n then none
    else if isHighSurrogate n then
      match rest with
      | .code _ _ _ _ m _ :: rest =>
        if isLowSurrogate m then (readPieces rest).map (ofSurrogates n m :: ·) else none
      | _ => none
    else (readPieces rest).map (Char.ofNat n :: ·)

/-! ## Numbers -/

/-- One or more digits. -/
structure Digits where
  chars : List Char
  ne_nil : chars ≠ []
  digit : ∀ c ∈ chars, (Text.digit? c).isSome = true

/-- The values of digits. -/
def Digits.values (ds : Digits) : List Nat := ds.chars.filterMap Text.digit?

/-- The sign of an exponent. -/
inductive Sign where
  | none
  | plus
  | minus

/-- The characters of a sign. -/
def Sign.chars : Sign → List Char
  | .none => []
  | .plus => ['+']
  | .minus => ['-']

/-- An exponent. -/
structure Power where
  mark : Char
  mark_eq : mark = 'e' ∨ mark = 'E'
  sign : Sign
  digits : Digits

/-- The characters of an exponent. -/
def Power.chars (p : Power) : List Char := p.mark :: (p.sign.chars ++ p.digits.chars)

/-- Whether an exponent is negative, and its digits. -/
def Power.parts (p : Power) : Bool × List Nat :=
  (match p.sign with
    | .minus => true
    | _ => false, p.digits.values)

/-- A number. A whole part of more than one digit does not begin with zero. -/
structure Figure where
  negative : Bool
  whole : Digits
  lead : whole.chars.head? = some '0' → whole.chars = ['0']
  fraction : Option Digits
  power : Option Power

namespace Figure

/-- The characters of the fraction. -/
def fractionChars (f : Figure) : List Char :=
  match f.fraction with
  | none => []
  | some ds => '.' :: ds.chars

/-- The characters of the exponent. -/
def powerChars (f : Figure) : List Char :=
  match f.power with
  | none => []
  | some p => p.chars

/-- The characters behind the sign. -/
def magnitude (f : Figure) : List Char := f.whole.chars ++ (f.fractionChars ++ f.powerChars)

/-- The characters of a number. -/
def chars (f : Figure) : List Char := if f.negative then '-' :: f.magnitude else f.magnitude

/-- The parts of a number. -/
def numeral (f : Figure) : Numeral where
  negative := f.negative
  whole := f.whole.values
  fraction := (f.fraction.map Digits.values).getD []
  exponent := f.power.map Power.parts
  pointed := f.fraction.isSome

end Figure

/-! ## Values without parts -/

/-- A value without parts. -/
inductive Leaf where
  | null
  | bool (b : Bool)
  | number (f : Figure)
  | text (pieces : List Piece)

namespace Leaf

/-- The characters of a value. -/
def chars : Leaf → List Char
  | .null => ['n', 'u', 'l', 'l']
  | .bool true => ['t', 'r', 'u', 'e']
  | .bool false => ['f', 'a', 'l', 's', 'e']
  | .number f => f.chars
  | .text pieces => '"' :: (pieces.flatMap Piece.chars ++ ['"'])

/-- What a value stands for, if it stands for anything. -/
def atom? : Leaf → Option Atom
  | .null => some .null
  | .bool b => some (.bool b)
  | .number f => f.numeral.value?
  | .text pieces => (readPieces pieces).map fun cs => .text (String.ofList cs)

/-- Whether a value is a text. -/
def isText : Leaf → Bool
  | .text _ => true
  | _ => false

/-- The token of a value: it can always be passed over. -/
def lexeme (l : Leaf) : Lexeme where
  isText := l.isText
  skipped := none
  read := orMalformed l.atom?

end Leaf

/-! ## Documents -/

/-- The name of a member, with the white space around it. -/
structure Key where
  before : Gap
  pieces : List Piece
  after : Gap

namespace Key

/-- The characters of a name. -/
def chars (k : Key) : List Char :=
  k.before.chars ++ ((Leaf.text k.pieces).chars ++ k.after.chars)

/-- The name, if it can be read. -/
def name? (k : Key) : Option String := (readPieces k.pieces).map String.ofList

/-- The token of a name. -/
def lexeme (k : Key) : Lexeme := (Leaf.text k.pieces).lexeme

end Key

/-- A JSON document. The white space `inside` follows an opening bracket or brace. -/
inductive Script where
  | leaf (before : Gap) (leaf : Leaf) (after : Gap)
  | array (before inside : Gap) (items : List Script) (after : Gap)
  | object (before inside : Gap) (members : List (Key × Script)) (after : Gap)

namespace Script

mutual

/-- The characters of a document. -/
def chars : Script → List Char
  | .leaf before l after => before.chars ++ (l.chars ++ after.chars)
  | .array before inside [] after =>
    before.chars ++ ('[' :: (inside.chars ++ (']' :: after.chars)))
  | .array before inside (d :: rest) after =>
    before.chars ++ ('[' :: (inside.chars ++ (d.chars ++ (itemChars rest ++ after.chars))))
  | .object before inside [] after =>
    before.chars ++ ('\x7b' :: (inside.chars ++ ('\x7d' :: after.chars)))
  | .object before inside ((k, d) :: rest) after =>
    before.chars ++ ('\x7b' :: (inside.chars ++
      (k.chars ++ (':' :: (d.chars ++ (memberChars rest ++ after.chars))))))

/-- The characters of the items after the first one, with the closing bracket. -/
def itemChars : List Script → List Char
  | [] => [']']
  | d :: rest => ',' :: (d.chars ++ itemChars rest)

/-- The characters of the members after the first one, with the closing brace. -/
def memberChars : List (Key × Script) → List Char
  | [] => ['\x7d']
  | (k, d) :: rest => ',' :: (k.chars ++ (':' :: (d.chars ++ memberChars rest)))

end

/-- The text of a document. -/
def text (d : Script) : String := String.ofList d.chars

mutual

/-- The tokens of a document. -/
def tokens : Script → List Token
  | .leaf _ l _ => [.atom l.lexeme]
  | .array _ _ [] _ => [.openArray, .closeArray]
  | .array _ _ (d :: rest) _ => .openArray :: (d.tokens ++ itemTokens rest)
  | .object _ _ [] _ => [.openObject, .closeObject]
  | .object _ _ ((k, d) :: rest) _ =>
    .openObject :: .atom k.lexeme :: .colon :: (d.tokens ++ memberTokens rest)

/-- The tokens of the items after the first one, with the closing bracket. -/
def itemTokens : List Script → List Token
  | [] => [.closeArray]
  | d :: rest => .comma :: (d.tokens ++ itemTokens rest)

/-- The tokens of the members after the first one, with the closing brace. -/
def memberTokens : List (Key × Script) → List Token
  | [] => [.closeObject]
  | (k, d) :: rest => .comma :: .atom k.lexeme :: .colon :: (d.tokens ++ memberTokens rest)

end

mutual

/-- The tree of a document. -/
def node : Script → Node
  | .leaf _ l _ => .atom l.lexeme
  | .array _ _ items _ => .array (itemNodes items) .closed
  | .object _ _ members _ => .object (memberNodes members) .closed

/-- The trees of items. -/
def itemNodes : List Script → List Node
  | [] => []
  | d :: rest => d.node :: itemNodes rest

/-- The trees of members. -/
def memberNodes : List (Key × Script) → List (Lexeme × Node)
  | [] => []
  | (k, d) :: rest => (k.lexeme, d.node) :: memberNodes rest

end

/-- A document does not begin with the end of an array. -/
theorem tokens_eq_cons (d : Script) :
    ∃ t ts, d.tokens = t :: ts ∧ t ≠ .closeArray := by
  match d with
  | .leaf _ l _ => exact ⟨_, _, by rw [tokens], Token.noConfusion⟩
  | .array _ _ [] _ => exact ⟨_, _, by rw [tokens], Token.noConfusion⟩
  | .array _ _ (_ :: _) _ => exact ⟨_, _, by rw [tokens], Token.noConfusion⟩
  | .object _ _ [] _ => exact ⟨_, _, by rw [tokens], Token.noConfusion⟩
  | .object _ _ ((_, _) :: _) _ => exact ⟨_, _, by rw [tokens], Token.noConfusion⟩

end Script

end LogShipper.Json
