import LogShipper.Endpoint
import LogShipper.Payload
import LogShipper.Record

/-!
# Layouts

A layout makes a payload of a record: a body, and what goes before and after it. Three kinds come
with the shipper: the message alone, a JSON object, and a line of text. Any other can be given in
their place.

Covers `RawLayout`, `JsonLayout`, `TextLayout`, and `LayoutKind` with its reading and `build`.

Results:
* `payload_raw`: the raw layout keeps the message and nothing else.
-/

namespace LogShipper

/-- How records are laid out. -/
inductive Layout where
  /-- The message alone. -/
  | raw
  /-- A JSON object, with the service and the process it comes from. -/
  | json (service : Option String) (pid : Nat)
  /-- A line of text between a header and a footer. -/
  | text (header footer : Option String)
  /-- Any other way to make a body, between a header and a footer. -/
  | other (header footer : Option Bytes) (format : Record → Bytes)

namespace Layout

/-- A record as a JSON object. -/
def object (service : Option String) (pid : Nat) (r : Record) : Json.Value :=
  .object ([("timestamp", .text (r.time.text 6)), ("level", .text r.level.name)] ++
    (match service with
    | none => []
    | some s => [("service", .text s)]) ++
    [("pid", .int pid), ("target", .text r.target), ("message", .text r.message)] ++
    (if r.fields.isEmpty then [] else [("fields", .object r.fields)]))

/-- A field in a line of text: a text as it is, anything else as JSON. -/
def fieldText (f : String × Json.Value) : String :=
  " " ++ f.1 ++ "=" ++
    (match f.2 with
    | .text s => s
    | v => v.render)

/-- The name of a level, with blanks up to five characters. -/
def levelColumn (l : Level) : String :=
  l.name ++ String.ofList (List.replicate (5 - l.name.length) ' ')

/-- A record as a line of text. -/
def line (r : Record) : String :=
  r.time.text 3 ++ " " ++ levelColumn r.level ++ " " ++ r.target ++ " - " ++ r.message ++
    String.join (r.fields.map fieldText)

/-- What goes before a record. -/
def header : Layout → Option Bytes
  | text header _ => header.map Text.utf8
  | other header _ _ => header
  | _ => none

/-- A record laid out. -/
def body (l : Layout) (r : Record) : Bytes :=
  match l with
  | raw => Text.utf8 r.message
  | json service pid => Text.utf8 (object service pid r).render
  | text _ _ => Text.utf8 (line r)
  | other _ _ format => format r

/-- What goes after a record. -/
def footer : Layout → Option Bytes
  | text _ footer => footer.map Text.utf8
  | other _ footer _ => footer
  | _ => none

/-- The payload of a record. -/
def payload (l : Layout) (r : Record) : Bytes := Payload.framed l.header (l.body r) l.footer

/-- The raw layout keeps the message and nothing else. -/
theorem payload_raw (r : Record) : raw.payload r = Text.utf8 r.message := by
  simp [payload, header, footer, body]

end Layout

/-! ## Kinds of layouts -/

/-- The kinds of layouts that come with the shipper. -/
inductive LayoutKind where
  | raw
  | json
  | text
  deriving DecidableEq, Repr

namespace LayoutKind

/-- The name of a kind. -/
def name : LayoutKind → String
  | raw => "raw"
  | json => "json"
  | text => "text"

/-- All kinds, the default one first. -/
def all : List LayoutKind := [raw, json, text]

/-- The kind of a name. -/
def ofName? (s : String) : Option LayoutKind := all.find? fun k => k.name == s

/-- The kind that a text names, in either case; what is wrong if there is none. -/
def parse (s : String) : Except String LayoutKind :=
  let lower := String.ofList (s.toList.map Char.toLower)
  match ofName? lower with
  | some k => .ok k
  | none => .error ("unknown layout: " ++ lower ++ " (expected raw, json or text)")

/-- The layout of a kind, for a service and a process. -/
def build (k : LayoutKind) (service : String) (pid : Nat) : Layout :=
  match k with
  | raw => .raw
  | json => .json (some service) pid
  | text => .text none none

/-- The JSON form. -/
def toJson (k : LayoutKind) : Json.Value := .text k.name

/-- Reads the name of a kind. -/
def readName (l : Json.Lexeme) : Except Json.Problem LayoutKind :=
  match l.read with
  | .error f => .error (.fault f)
  | .ok (.text s) =>
    match ofName? s with
    | some k => .ok k
    | none => .error (.data ("unknown variant `" ++ s ++
        "`, expected one of `raw`, `json`, `text`"))
  | .ok a => .error (Json.wrongType a.describe "variant identifier")

/-- Reads the JSON form: a name, or an object whose one member is a name with null. Where the name
or the closing brace should stand, the end of the text is a text cut short; anything else is
malformed, a comma too. -/
def read : Json.Reader LayoutKind
  | .atom l => if l.isText then readName l else .error (.fault .malformed)
  | .array _ _ => .error (.fault .malformed)
  | .missing found => .error (.fault found.fault)
  | .object [] (.cut found) => .error (.fault found.fault)
  | .object [] _ => .error (.fault .malformed)
  | .object ((key, value) :: rest) stop => do
    let k ← readName key
    match value with
    | .atom ⟨_, _, .ok .null⟩ => pure ()
    | v => .error (v.unexpected "unit")
    match rest, stop with
    | [], .closed | [], .known => return k
    | [], .cut found => .error (.fault found.fault)
    | _, _ => .error (.fault .malformed)

end LayoutKind

end LogShipper
