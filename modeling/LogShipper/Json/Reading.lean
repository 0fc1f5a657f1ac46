import LogShipper.Json.Tree
import LogShipper.Json.Value
import LogShipper.Text.Quoted

/-!
# Reading values from JSON trees

A `Reader α` takes a node to a value, or to the first problem in the order of the text: a fault of
the text itself, or data that does not fit. A record is read by a `Shape`: its fields by name, in
any order, unknown members passed over, or as an array of its fields in declaration order, where
fields at the end may be left out if they have a default. An array that holds more is malformed in
a text; in a value that is known as a whole it has the wrong length.

Out of scope: at which line and column of a text a problem stands.

Results:
* `Shape.readMembers_nil`, `Shape.readMembers_cons_unknown`: what a member adds to a record.
-/

namespace LogShipper.Json

/-- Why a value could not be read. -/
inductive Problem where
  | fault (fault : Fault)
  | data (message : String)
  deriving DecidableEq, Repr

/-- How a value is read. -/
abbrev Reader (α : Type) := Node → Except Problem α

/-- How a value without parts is named where another is wanted. -/
def Atom.describe : Atom → String
  | .null => "null"
  | .bool b => "boolean `" ++ (if b then "true" else "false") ++ "`"
  | .int n => "integer `" ++ String.ofList (intChars n) ++ "`"
  | .float x => "floating point `" ++ String.ofList (floatChars x) ++ "`"
  | .text s => "string " ++ Text.quoted s

/-- A value of the wrong type. -/
def wrongType (found expected : String) : Problem :=
  .data ("invalid type: " ++ found ++ ", expected " ++ expected)

/-- A value of the right type that is out of bounds. -/
def wrongValue (found expected : String) : Problem :=
  .data ("invalid value: " ++ found ++ ", expected " ++ expected)

/-- The problem of a node that is not what is expected. -/
def Node.unexpected (node : Node) (expected : String) : Problem :=
  match node with
  | .atom l =>
    match l.read with
    | .ok a => wrongType a.describe expected
    | .error f => .fault f
  | .array _ _ => wrongType "sequence" expected
  | .object _ _ => wrongType "map" expected
  | .missing found => .fault found.fault

/-- The end of a container. -/
def Stop.check : Stop → Except Problem Unit
  | .closed | .known => .ok ()
  | .cut found | .dangling found => .error (.fault found.fault)

/-- Passes over a token. -/
def Lexeme.skip (l : Lexeme) : Except Problem Unit :=
  match l.skipped with
  | none => .ok ()
  | some f => .error (.fault f)

mutual

/-- Passes over a value: only faults of the text count. -/
def Node.skip : Node → Except Problem Unit
  | .atom l => l.skip
  | .array items stop => do
    skipItems items
    stop.check
  | .object members stop => do
    skipMembers members
    stop.check
  | .missing found => .error (.fault found.fault)

/-- Passes over the items of an array. -/
def skipItems : List Node → Except Problem Unit
  | [] => .ok ()
  | n :: rest => do
    n.skip
    skipItems rest

/-- Passes over the members of an object. -/
def skipMembers : List (Lexeme × Node) → Except Problem Unit
  | [] => .ok ()
  | (k, n) :: rest => do
    k.skip
    n.skip
    skipMembers rest

end

/-! ## Values without parts -/

namespace Reader

/-- A truth value. -/
def bool : Reader Bool
  | .atom ⟨_, _, .ok (.bool b)⟩ => .ok b
  | n => .error (n.unexpected "a boolean")

/-- A text, described as expected. -/
def textAs (expected : String) : Reader String
  | .atom ⟨_, _, .ok (.text s)⟩ => .ok s
  | n => .error (n.unexpected expected)

/-- A text. -/
def text : Reader String := textAs "a string"

/-- A file path. -/
def path : Reader String := textAs "path string"

/-- An integer between two bounds. -/
def intBetween (low high : Int) (expected : String) : Reader Int
  | .atom ⟨_, _, .ok (.int n)⟩ =>
    if low ≤ n ∧ n ≤ high then .ok n
    else .error (wrongValue (Atom.describe (.int n)) expected)
  | n => .error (n.unexpected expected)

/-- A sixteen-bit unsigned number. -/
def uint16 : Reader UInt16 := fun n =>
  (intBetween 0 (UInt16.size - 1) "u16" n).map fun i => UInt16.ofNat i.toNat

/-- A 32-bit unsigned number. -/
def uint32 : Reader UInt32 := fun n =>
  (intBetween 0 (UInt32.size - 1) "u32" n).map fun i => UInt32.ofNat i.toNat

/-- A 64-bit unsigned number. -/
def uint64 : Reader UInt64 := fun n =>
  (intBetween 0 (UInt64.size - 1) "u64" n).map fun i => UInt64.ofNat i.toNat

/-- A 64-bit signed number. -/
def int64 : Reader Int64 := fun n =>
  (intBetween Int64.minValue.toInt Int64.maxValue.toInt "i64" n).map Int64.ofInt

/-- A value or null. -/
def option {α : Type} (r : Reader α) : Reader (Option α)
  | .atom ⟨_, _, .ok .null⟩ => .ok none
  | n => (r n).map some

/-- The items of an array. -/
def items {α : Type} (r : Reader α) : List Node → Except Problem (List α)
  | [] => .ok []
  | n :: rest => do
    let a ← r n
    let as ← items r rest
    return a :: as

/-- An array. -/
def list {α : Type} (r : Reader α) : Reader (List α)
  | .array ns stop => do
    let as ← items r ns
    stop.check
    return as
  | n => .error (n.unexpected "a sequence")

end Reader

/-! ## Records -/

/-- One field of a record: its name, whether it must be given, and what its value does to the
record. -/
structure Field (α : Type) where
  name : String
  required : Bool
  read : Reader (α → α)

/-- How a record is read: its name, what it is before any field is read, and its fields in
declaration order. -/
structure Shape (α : Type) where
  name : String
  start : α
  fields : List (Field α)

namespace Shape

variable {α : Type}

/-- The field of a name. -/
def field? (shape : Shape α) (name : String) : Option (Field α) :=
  shape.fields.find? fun f => f.name == name

/-- The name of a member. -/
def keyText (key : Lexeme) : Except Problem String :=
  match key.read with
  | .ok (.text s) => .ok s
  | .ok _ => .error (.fault .malformed)
  | .error f => .error (.fault f)

/-- Reads members in order: `seen` holds the names of the fields that were given. -/
def readMembers (shape : Shape α) :
    List (Lexeme × Node) → List String → α → Except Problem (List String × α)
  | [], seen, a => .ok (seen, a)
  | (key, node) :: rest, seen, a => do
    let name ← keyText key
    match shape.field? name with
    | some f =>
      if seen.contains name then
        .error (.data ("duplicate field `" ++ name ++ "`"))
      else
        let set ← f.read node
        shape.readMembers rest (name :: seen) (set a)
    | none =>
      node.skip
      shape.readMembers rest seen a

/-- The first field that must be given and was not. -/
def missing? (shape : Shape α) (seen : List String) : Option String :=
  (shape.fields.find? fun f => f.required && !seen.contains f.name).map (·.name)

/-- Reads a record from the members of an object. -/
def readObject (shape : Shape α) (members : List (Lexeme × Node)) (stop : Stop) :
    Except Problem α := do
  let (seen, a) ← shape.readMembers members [] shape.start
  stop.check
  match shape.missing? seen with
  | some name => .error (.data ("missing field `" ++ name ++ "`"))
  | none => .ok a

/-- Reads fields in declaration order from the items of an array; `count` have been read. -/
def readItems (shape : Shape α) (stop : Stop) :
    List (Field α) → List Node → Nat → α → Except Problem α
  | [], [], _, a => do
    stop.check
    return a
  | [], rest@(_ :: _), count, _ =>
    match stop with
    | .known => .error (.data ("invalid length " ++ toString (count + rest.length) ++
        ", expected fewer elements in array"))
    | _ => .error (.fault .malformed)
  | f :: fields, [], count, a =>
    match stop with
    | .cut found | .dangling found => .error (.fault found.fault)
    | .closed | .known =>
      if f.required then
        .error (.data ("invalid length " ++ toString count ++ ", expected struct " ++
          shape.name ++ " with " ++ toString shape.fields.length ++
          (if shape.fields.length = 1 then " element" else " elements")))
      else shape.readItems stop fields [] (count + 1) a
  | f :: fields, n :: rest, count, a => do
    let set ← f.read n
    shape.readItems stop fields rest (count + 1) (set a)

/-- Reads a record. -/
def read (shape : Shape α) : Reader α
  | .object members stop => shape.readObject members stop
  | .array items stop => shape.readItems stop shape.fields items 0 shape.start
  | n => .error (n.unexpected ("struct " ++ shape.name))

theorem readMembers_nil (shape : Shape α) (seen : List String) (a : α) :
    shape.readMembers [] seen a = .ok (seen, a) := rfl

theorem readMembers_cons_unknown (shape : Shape α) {key : Lexeme} {name : String} {node : Node}
    {rest : List (Lexeme × Node)} {seen : List String} {a : α}
    (hk : keyText key = .ok name) (hf : shape.field? name = none) (hs : node.skip = .ok ()) :
    shape.readMembers ((key, node) :: rest) seen a = shape.readMembers rest seen a := by
  simp [readMembers, hk, hf, hs, bind, Except.bind]

end Shape

/-- A field that sets one part of a record. -/
def Field.setting {α β : Type} (name : String) (required : Bool) (r : Reader β)
    (set : β → α → α) : Field α :=
  { name, required, read := fun n => (r n).map set }

/-! ## Documents -/

/-- Reads a whole document: nothing may stand after its value. -/
def readTree {α : Type} (r : Reader α) (tree : Tree) : Except Problem α := do
  let a ← r tree.root
  match tree.trailing with
  | none => .ok a
  | some found => .error (.fault found.fault)

/-- Reads a text. -/
def readText {α : Type} (r : Reader α) (s : String) : Except Problem α :=
  readTree r (.ofText s)

/-! ## Values known as a whole -/

/-- A value without parts as if it had just been read. -/
def Lexeme.ofAtom (a : Atom) : Lexeme :=
  { isText := match a with
      | .text _ => true
      | _ => false
    skipped := none
    read := .ok a }

mutual

/-- The node of a value. -/
def Node.ofValue : Value → Node
  | .null => .atom (.ofAtom .null)
  | .bool b => .atom (.ofAtom (.bool b))
  | .int n => .atom (.ofAtom (.int n))
  | .float x => .atom (.ofAtom (.float x))
  | .text s => .atom (.ofAtom (.text s))
  | .array items => .array (nodesOfItems items) .known
  | .object members => .object (nodesOfMembers members) .known

/-- The nodes of the items of an array. -/
def nodesOfItems : List Value → List Node
  | [] => []
  | v :: rest => .ofValue v :: nodesOfItems rest

/-- The nodes of the members of an object. -/
def nodesOfMembers : List (String × Value) → List (Lexeme × Node)
  | [] => []
  | (k, v) :: rest => (.ofAtom (.text k), .ofValue v) :: nodesOfMembers rest

end

/-- Reads a value. -/
def readValue {α : Type} (r : Reader α) (v : Value) : Except Problem α := r (.ofValue v)

end LogShipper.Json
