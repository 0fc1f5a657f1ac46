import LogShipper.Text.Blank
import LogShipper.Text.Digits
import LogShipper.Text.Letter

/-!
# Patterns for the values of fields

Which texts are regular expressions. `Pattern.isValid` reads a text from left to right, piece by
piece; groups may change the `Mode` in which the pieces after their beginning are read.

A pattern is over characters or, with the flag `u` off, over bytes. There are no tables of
characters to match with: over characters nothing can be told apart by kind (`\d`, `\w`, `\s`, the
edges of words) or regardless of case. Over bytes the kinds of ASCII are known, but nothing may
match a part of a character: no dot, no complement, no byte above `\x7F`.

A closing brace cannot stand in a directive, so what a brace opens outside a class never ends.

A pattern may be nested up to `maxDepth` levels. Groups, classes, repetitions, sequences,
alternatives and the operations between classes each make a level.

Out of scope: what a pattern matches, and how large the machine for it becomes.
-/

namespace LogShipper.Pattern

/-- How a part of a pattern is read. -/
structure Mode where
  /-- Over characters; else over bytes. -/
  characters : Bool := true
  /-- Regardless of case. -/
  foldCase : Bool := false
  /-- Blanks mean nothing, and neither does anything after `#` on a line. -/
  spaced : Bool := false
  deriving DecidableEq, Repr

/-! ## Blanks -/

/-- Passes over blanks and comments; whether a comment has begun. -/
def skipBlanks (comment : Bool) : List Char → List Char
  | [] => []
  | c :: cs =>
    if comment then skipBlanks (c != '\n') cs
    else if Text.isBlank c then skipBlanks false cs
    else if c = '#' then skipBlanks true cs
    else c :: cs

/-- What is left after what means nothing. -/
def skip (m : Mode) (cs : List Char) : List Char := if m.spaced then skipBlanks false cs else cs

/-- The next character that is looked at from a hyphen: blanks are passed over, and the mark of a
comment, but not the comment. -/
def next? (m : Mode) (cs : List Char) : Option Char :=
  if m.spaced then
    match cs.dropWhile Text.isBlank with
    | '#' :: cs => (cs.dropWhile Text.isBlank).head?
    | cs => cs.head?
  else cs.head?

/-! ## Nesting -/

/-- How many levels a pattern may have. -/
def maxDepth : Nat := 250

/-- How deep the parts of a sequence are. -/
structure Parts where
  count : Nat := 0
  /-- The deepest part but for the last one. -/
  deepest : Nat := 0
  last : Nat := 0
  deriving DecidableEq, Repr

/-- Adds a part. -/
def Parts.push (p : Parts) (depth : Nat) : Parts := ⟨p.count + 1, max p.deepest p.last, depth⟩

/-- Repeats the last part. -/
def Parts.repeatLast (p : Parts) : Parts := { p with last := p.last + 1 }

/-- How deep a sequence is: one part alone makes no level. -/
def Parts.depth (p : Parts) : Nat :=
  if p.count ≤ 1 then p.last else max p.deepest p.last + 1

/-- The parts of a group or a class, as far as they were read. -/
structure Nesting where
  /-- How deep what stands before the last bar or operation is. -/
  before : Option Nat := none
  parts : Parts := {}
  deriving DecidableEq, Repr

/-- How deep the parts are. -/
def Nesting.depth (l : Nesting) : Nat :=
  match l.before with
  | none => l.parts.depth
  | some d => max d l.parts.depth + 1

/-- Adds a part. -/
def Nesting.push (l : Nesting) (depth : Nat) : Nesting := { l with parts := l.parts.push depth }

/-- Begins another alternative. All of them make one level. -/
def Nesting.alternative (l : Nesting) : Nesting where
  before := some (max (l.before.getD 0) l.parts.depth)

/-- Begins the second side of an operation. What stands before it is its first side. -/
def Nesting.operation (l : Nesting) : Nesting where
  before := some l.depth

/-! ## Single pieces -/

/-- A piece that may stand alone. -/
inductive Piece where
  /-- A character, and whether it is written as a byte. -/
  | literal (c : Char) (byte : Bool)
  /-- A kind of characters, or its complement. -/
  | kind (complement : Bool)
  /-- The beginning or end of a text. -/
  | edge
  /-- The beginning or end of a word, or neither. -/
  | wordEdge
  deriving DecidableEq, Repr

/-- Whether a piece can be matched. -/
def Piece.fits (m : Mode) : Piece → Bool
  | literal c byte => if m.characters then !m.foldCase else !(byte && 0x80 ≤ c.toNat)
  | kind complement => !m.characters && !complement
  | edge => true
  | wordEdge => !m.characters

/-- Whether a piece can be matched as a part of a class. -/
def Piece.fitsClass (m : Mode) : Piece → Bool
  | literal c _ => if m.characters then !m.foldCase else c.toNat < 0x80
  | kind complement => !m.characters && !complement
  | edge | wordEdge => false

/-- Reads so many digits in base sixteen after a number. -/
def hexNumber? (m : Mode) : Nat → Nat → List Char → Option (Nat × List Char)
  | 0, n, cs => some (n, cs)
  | k + 1, n, cs =>
    match skip m cs with
    | [] => none
    | c :: cs => (Text.hexValue? c).bind fun d => hexNumber? m k (n * 16 + d) cs

/-- Reads the number of a character. -/
def numbered? (m : Mode) (digits : Nat) (cs : List Char) : Option (Piece × List Char) :=
  (hexNumber? m digits 0 cs).bind fun (n, cs) =>
    if n.isValidChar then some (.literal (Char.ofNat n) (digits == 2), cs) else none

/-- Reads what follows a backslash. -/
def escape? (m : Mode) : List Char → Option (Piece × List Char)
  | [] => none
  | c :: cs =>
    match c with
    | 'x' => numbered? m 2 cs
    | 'u' => numbered? m 4 cs
    | 'U' => numbered? m 8 cs
    | 'd' | 's' | 'w' => some (.kind false, cs)
    | 'D' | 'S' | 'W' => some (.kind true, cs)
    | 'A' | 'z' => some (.edge, cs)
    | 'b' | 'B' | '<' | '>' => some (.wordEdge, cs)
    | 'a' => some (.literal '\x07' false, cs)
    | 'f' => some (.literal '\x0c' false, cs)
    | 't' => some (.literal '\t' false, cs)
    | 'n' => some (.literal '\n' false, cs)
    | 'r' => some (.literal '\r' false, cs)
    | 'v' => some (.literal '\x0b' false, cs)
    | c => if c.toNat < 0x80 && !c.isAlphanum then some (.literal c false, cs) else none

/-! ## Classes -/

/-- The kinds of ASCII characters that have names. -/
def kindNames : List String :=
  ["alnum", "alpha", "ascii", "blank", "cntrl", "digit", "graph", "lower", "print", "punct",
    "space", "upper", "word", "xdigit"]

/-- Reads a name up to its colon and bracket. -/
def kindName? (cs : List Char) : Option (List Char) :=
  match cs.dropWhile (· != ':') with
  | ':' :: ']' :: rest =>
    if kindNames.contains (String.ofList (cs.takeWhile (· != ':'))) then some rest else none
  | _ => none

/-- Reads a named kind after its opening bracket; whether it is the complement of one. -/
def namedKind? : List Char → Option (Bool × List Char)
  | ':' :: '^' :: cs => (kindName? cs).map (true, ·)
  | ':' :: cs => (kindName? cs).map (false, ·)
  | _ => none

/-- Whether a named kind can be matched as a part of a class. -/
def namedKindFits (m : Mode) (complement : Bool) : Bool :=
  if m.characters then !m.foldCase else !complement

/-- Reads hyphens that a class begins with, and what means nothing after them. -/
def openHyphensFuel (m : Mode) : Nat → Nesting → List Char → Option (Nesting × List Char)
  | fuel + 1, l, '-' :: cs =>
    if (Piece.literal '-' false).fitsClass m then openHyphensFuel m fuel (l.push 0) (skip m cs)
    else none
  | _, l, cs => some (l, cs)

/-- Reads the beginning of a class after its bracket: a caret, then hyphens, or one closing bracket
that closes nothing. -/
def openClass? (m : Mode) (cs : List Char) : Option (Nesting × List Char) :=
  let begun : Option (List Char) :=
    match skip m cs with
    | '^' :: cs => if m.characters then some (skip m cs) else none
    | cs => some cs
  begun.bind fun
    | ']' :: cs =>
      if (Piece.literal ']' false).fitsClass m then some (Nesting.push {} 0, cs) else none
    | cs => openHyphensFuel m cs.length {} cs

/-- Reads one character of a class, or what an escape stands for there. -/
def classPiece? (m : Mode) : List Char → Option (Piece × List Char)
  | [] => none
  | '\\' :: cs => escape? m cs
  | c :: cs => some (.literal c false, cs)

/-- Reads the second end of a range. -/
def rangeEnd? (m : Mode) (first : Piece) (cs : List Char) : Option (List Char) :=
  (classPiece? m (skip m cs)).bind fun (last, cs) =>
    match first, last with
    | .literal a _, .literal b _ =>
      if a ≤ b && first.fitsClass m && last.fitsClass m then some cs else none
    | _, _ => none

/-- Reads one character of a class, or a range of them. A hyphen before the closing bracket, or
before another hyphen, makes no range. -/
def range? (m : Mode) (cs : List Char) : Option (List Char) :=
  (classPiece? m cs).bind fun (first, cs) =>
    let alone (cs : List Char) : Option (List Char) :=
      if first.fitsClass m then some cs else none
    match skip m cs with
    | '-' :: rest =>
      if next? m rest = some ']' ∨ next? m rest = some '-' then alone ('-' :: rest)
      else rangeEnd? m first rest
    | cs => alone cs

/-- Reads the rest of a class, given at least as much fuel as there are characters. The classes
around it stand innermost first. -/
def classFuel (m : Mode) : Nat → List Nesting → Nesting → List Char → Option (Nat × List Char)
  | 0, _, _, _ => none
  | fuel + 1, outer, l, cs =>
    match skip m cs with
    | [] => none
    | '[' :: cs =>
      match namedKind? cs with
      | some (complement, rest) =>
        if namedKindFits m complement then classFuel m fuel outer (l.push 0) rest else none
      | none => (openClass? m cs).bind fun (inner, cs) => classFuel m fuel (l :: outer) inner cs
    | ']' :: cs =>
      match outer with
      | [] => some (l.depth + 1, cs)
      | around :: outer => classFuel m fuel outer (around.push (l.depth + 1)) cs
    | '&' :: '&' :: cs => classFuel m fuel outer l.operation cs
    | '-' :: '-' :: cs => classFuel m fuel outer l.operation cs
    | '~' :: '~' :: cs => classFuel m fuel outer l.operation cs
    | cs => (range? m cs).bind (classFuel m fuel outer (l.push 0))

/-- Reads a class after its bracket; how deep it is. -/
def class? (m : Mode) (cs : List Char) : Option (Nat × List Char) :=
  (openClass? m cs).bind fun (l, cs) => classFuel m cs.length [] l cs

/-! ## Groups -/

/-- What an opening bracket begins. -/
inductive Opening where
  | group (mode : Mode) (name : Option String)
  /-- Flags for the rest of the group around them. -/
  | flags (mode : Mode)
  deriving DecidableEq, Repr

/-- Reads flags: whether they are switched off, and the ones before, the latest first. -/
def flags? (off : Bool) (seen : List Char) (m : Mode) : List Char → Option (Opening × List Char)
  | [] => none
  | c :: cs =>
    if c = ':' then
      if seen.head? = some '-' then none else some (.group m none, cs)
    else if c = ')' then
      if seen.head? = some '-' ∨ seen = [] then none else some (.flags m, cs)
    else if seen.contains c then none
    else match c with
      | '-' => flags? true (c :: seen) m cs
      | 'i' => flags? off (c :: seen) { m with foldCase := !off } cs
      | 'u' => flags? off (c :: seen) { m with characters := !off } cs
      | 'x' => flags? off (c :: seen) { m with spaced := !off } cs
      | 'm' | 's' | 'R' | 'U' => flags? off (c :: seen) m cs
      | _ => none

/-- Whether a group may have the name. -/
def isName : List Char → Bool
  | [] => false
  | c :: cs =>
    (c = '_' || Text.isAlphabetic c) &&
      cs.all fun c => c = '_' || c = '.' || c = '[' || c = ']' || Text.isAlphanumeric c

/-- Reads the name of a group, which no other group has. -/
def named? (names : List String) (m : Mode) (cs : List Char) : Option (Opening × List Char) :=
  let name := cs.takeWhile (· != '>')
  match cs.dropWhile (· != '>') with
  | _ :: rest =>
    if isName name && !names.contains (String.ofList name) then
      some (.group m (some (String.ofList name)), rest)
    else none
  | [] => none

/-- Reads what follows an opening bracket. A group cannot look around. -/
def opening? (names : List String) (m : Mode) (cs : List Char) : Option (Opening × List Char) :=
  match skip m cs with
  | '?' :: 'P' :: '<' :: cs => named? names m cs
  | '?' :: '<' :: cs => named? names m cs
  | '?' :: cs => flags? false [] m cs
  | cs => some (.group m none, cs)

/-! ## Patterns -/

/-- How far a pattern has been read. -/
structure State where
  mode : Mode := {}
  nesting : Nesting := {}
  /-- What the open groups stand in, the innermost first. -/
  outer : List (Mode × Nesting) := []
  names : List String := []
  /-- Whether the last part can be repeated. -/
  repeatable : Bool := false
  deriving DecidableEq, Repr

/-- After a part of some depth. -/
def State.push (s : State) (depth : Nat) : State :=
  { s with nesting := s.nesting.push depth, repeatable := true }

/-- After a part of some depth, if it fits. -/
def State.after (s : State) (fits : Bool) (depth : Nat) (cs : List Char) :
    Option (State × List Char) :=
  if fits then some (s.push depth, cs) else none

/-- After an opening bracket and what belongs to it. -/
def State.begin (s : State) : Opening → State
  | .group mode name =>
    { mode, outer := (s.mode, s.nesting) :: s.outer, names := name.toList ++ s.names }
  | .flags mode => { s with mode, nesting := s.nesting.push 0, repeatable := false }

/-- After a mark that repeats the last part. -/
def State.repeated (s : State) : State :=
  { s with nesting := { s.nesting with parts := s.nesting.parts.repeatLast } }

/-- After a closing bracket, if a group is open. -/
def State.leave (s : State) (cs : List Char) : Option (State × List Char) :=
  match s.outer with
  | [] => none
  | (mode, nesting) :: outer =>
    { s with mode, nesting, outer }.after true (s.nesting.depth + 1) cs

/-- Reads one part: its first character, and what follows that. -/
def State.step (s : State) (c : Char) (cs : List Char) : Option (State × List Char) :=
  match c with
  | '(' => (opening? s.names s.mode cs).map fun (o, cs) => (s.begin o, cs)
  | ')' => s.leave cs
  | '|' => some ({ s with nesting := s.nesting.alternative, repeatable := false }, cs)
  | '[' => (class? s.mode cs).bind fun (depth, cs) => s.after true depth cs
  | '?' | '*' | '+' =>
    if s.repeatable then
      some (s.repeated, match cs with
        | '?' :: cs => cs
        | cs => cs)
    else none
  | '\x7b' => none
  | '\\' => (escape? s.mode cs).bind fun (piece, cs) => s.after (piece.fits s.mode) 0 cs
  | '.' => s.after s.mode.characters 0 cs
  | '^' | '$' => s.after true 0 cs
  | c => s.after ((Piece.literal c false).fits s.mode) 0 cs

/-- Reads the rest of a pattern, given more fuel than there are characters. -/
def validFuel : Nat → State → List Char → Bool
  | 0, _, _ => false
  | fuel + 1, s, cs =>
    match skip s.mode cs with
    | [] => s.outer.isEmpty && s.nesting.depth ≤ maxDepth
    | c :: cs =>
      match s.step c cs with
      | none => false
      | some (s, cs) => validFuel fuel s cs

/-- Whether a text is a pattern. -/
def isValid (s : String) : Bool := validFuel (s.toList.length + 1) {} s.toList

end LogShipper.Pattern
