import LogShipper.Decimal.Reading
import LogShipper.Log
import LogShipper.LogFilter.Pattern
import LogShipper.Text.Blank

/-!
# Directives of a log filter

A directive says up to which level entries are shown, and may say of which targets
(`target=level`) or with which fields (`[{field}]=level`, `[{field=value}]=level`). Without a level
it shows everything. One that names a span, or the value of a field, concerns only what happens
inside spans; there are none here, so it shows nothing by itself.

A directive is read without the blanks at its ends, but its parts are cut out of the text with
them. A part that would then begin or end inside a character is `torn`.

Out of scope: the wording in which a directive is refused.
-/

namespace LogShipper

/-- One rule about what is shown. -/
structure Directive where
  target : Option String := none
  /-- The span that an entry must be in. -/
  span : Option String := none
  /-- Fields that an entry must have, and perhaps their values. -/
  fields : List (String × Option String) := []
  /-- The most verbose level that is shown; none if nothing is. -/
  limit : Option Level := some .trace
  deriving DecidableEq, Repr

namespace Directive

/-- Why a text is no directive. -/
inductive Flaw where
  /-- It is not written like one. -/
  | refused
  /-- A part of it begins or ends inside a character. -/
  | torn
  deriving DecidableEq, Repr

/-! ## Parts of a text -/

/-- What is left after so many bytes, unless they end inside a character. -/
def dropBytes? : Nat → List Char → Option (List Char)
  | 0, cs => some cs
  | _ + 1, [] => none
  | n + 1, c :: cs => if c.utf8Size ≤ n + 1 then dropBytes? (n + 1 - c.utf8Size) cs else none

/-- The first so many bytes, unless they end inside a character. -/
def takeBytes? : Nat → List Char → Option (List Char)
  | 0, _ => some []
  | _ + 1, [] => none
  | n + 1, c :: cs =>
    if c.utf8Size ≤ n + 1 then (takeBytes? (n + 1 - c.utf8Size) cs).map (c :: ·) else none

/-- The bytes from one place to another, unless one of them is inside a character. -/
def slice? (cs : List Char) (i j : Nat) : Option String :=
  ((dropBytes? i cs).bind (takeBytes? (j - i))).map String.ofList

/-- The bytes from one place to another. -/
def slice (cs : List Char) (i j : Nat) : Except Flaw String :=
  match slice? cs i j with
  | some s => .ok s
  | none => .error .torn

/-- The bytes that characters take. -/
def byteSize (cs : List Char) : Nat := (cs.map Char.utf8Size).foldr (· + ·) 0

/-! ## Reading one directive -/

/-- The level that a number or a name in either case stands for; `off` is below all of them. -/
def limit? (cs : List Char) : Option (Option Level) :=
  let named : Option (Option Level) :=
    match String.ofList (cs.map Char.toLower) with
    | "off" => some none
    | "error" => some (some .error)
    | "warn" => some (some .warn)
    | "info" => some (some .info)
    | "debug" => some (some .debug)
    | "trace" => some (some .trace)
    | _ => none
  match Text.unsigned? (UInt64.size - 1) (String.ofList cs) with
  | some 0 => some none
  | some n => (Level.all.find? fun l => l.verbosity == n).map some
  | none => named

/-- At which byte the current part of a directive began, and what it is. -/
inductive Place where
  | start
  /-- In what is a level or a target. -/
  | name
  | span (start : Nat)
  | field (start : Nat)
  /-- After a list of fields. -/
  | fields
  /-- After a span. -/
  | closed
  | level (start : Nat)
  deriving DecidableEq, Repr

/-- Whether a directive may begin with a character, a bracket apart. -/
def isNameStart (c : Char) : Bool :=
  c == '-' || c == ':' || c == '_' || Text.isAlphanumeric c

/-- Whether a text may be the value of a field: a truth value, a number, or a pattern. -/
def isValue (s : String) : Bool :=
  s == "true" || s == "false" || (Decimal.Binary64.ofText? s).isSome || Pattern.isValid s

/-- A field and its value, if one stands after an equals sign. -/
def fieldOf (cs : List Char) : String × Option String :=
  let name := cs.takeWhile (· != '=')
  let rest := cs.dropWhile (· != '=')
  (String.ofList name,
    match rest with
    | [] => none
    | _ :: value => some (String.ofList (value.takeWhile (· != '='))))

/-- Adds a field. -/
def withField (d : Directive) (text : String) : Except Flaw Directive :=
  let field := fieldOf text.toList
  if text.isEmpty || !field.2.all isValue then .error .refused
  else .ok { d with fields := d.fields ++ [field] }

/-- Reads one character of a directive, at a byte. -/
def step (text : List Char) (i : Nat) (c : Char) :
    Place → Directive → Except Flaw (Place × Directive)
  | .start, d =>
    if c = '[' then .ok (.span (i + 1), d)
    else if isNameStart c then .ok (.name, d) else .error .refused
  | .name, d =>
    if c = '=' then do
      let target ← slice text 0 i
      return (.level (i + 1), { d with target := some target })
    else if c = '[' then do
      let target ← slice text 0 i
      return (.span (i + 1), { d with target := some target })
    else .ok (.name, d)
  | .span start, d =>
    if c = ']' then do
      let span ← slice text start i
      return (.closed, { d with span := some span })
    else if c = '\x7b' then do
      let span ← slice text start i
      return (.field (i + 1), { d with span := if span.isEmpty then none else some span })
    else .ok (.span start, d)
  | .field start, d =>
    if c = '\x7d' then do
      let field ← slice text start i
      return (.fields, ← d.withField field)
    else .ok (.field start, d)
  | .fields, d => if c = ']' then .ok (.closed, d) else .error .refused
  | .closed, d => if c = '=' then .ok (.level (i + 1), d) else .error .refused
  | .level start, d => .ok (.level start, d)

/-- Reads the characters of a directive from a byte on. -/
def walk (text : List Char) :
    Nat → List Char → Place → Directive → Except Flaw (Place × Directive)
  | _, [], place, d => .ok (place, d)
  | i, c :: rest, place, d => do
    let (place, d) ← step text i c place d
    walk text (i + c.utf8Size) rest place d

/-- What a directive is whose last character has been read. -/
def finish (text : List Char) : Place → Directive → Except Flaw Directive
  | .name, d =>
    match limit? text with
    | some limit => .ok { d with limit }
    | none => .ok { d with target := some (String.ofList text) }
  | .level start, d =>
    match dropBytes? start text with
    | none => .error .torn
    | some [] => .ok d
    | some cs =>
      match limit? cs with
      | some limit => .ok { d with limit }
      | none => .error .refused
  | .closed, d => .ok d
  | _, _ => .error .refused

/-- Reads a directive. Blanks at its ends are passed over, but they count in what its parts are. -/
def parse (s : String) : Except Flaw Directive := do
  let text := s.toList
  let (place, d) ← walk text 0 (Text.trim text) .start {}
  finish text place d

/-! ## What a directive concerns -/

/-- Whether the directive can show an entry by itself. -/
def isPlain (d : Directive) : Bool := d.span.isNone && d.fields.all fun f => f.2.isNone

/-- Whether the directive concerns spans. -/
def concernsSpans (d : Directive) : Bool := d.span.isSome || !d.fields.isEmpty

/-- The names of its fields. -/
def names (d : Directive) : List String := d.fields.map (·.1)

/-- Whether the directive concerns an entry with a target and fields. -/
def concerns (d : Directive) (target : String) (fields : List String) : Bool :=
  d.target.all (fun t => t.toList.isPrefixOf target.toList) && d.names.all fields.contains

/-- How specific the target is. -/
def weight (d : Directive) : Nat := (d.target.map fun t => t.utf8ByteSize + 1).getD 0

/-- Whether a directive yields to another one that comes later. -/
def yieldsTo (d later : Directive) : Bool :=
  if d.weight ≠ later.weight then d.weight < later.weight
  else if d.fields.length ≠ later.fields.length then d.fields.length < later.fields.length
  else ¬ later.names < d.names

/-- Whether entries of a level are shown. -/
def admits (d : Directive) (level : Level) : Bool :=
  d.limit.any fun limit => level.verbosity ≤ limit.verbosity

end Directive

end LogShipper
