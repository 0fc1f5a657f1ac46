import LogShipper.Text.Printable
import LogShipper.Text.Digits

/-!
# Quoted text

The form in which names and reasons are shown inside another text: between double quotes, with a
backslash before a quote or a backslash, short escapes for line feed, carriage return, tab and
NUL, and the code point in braces for every other character that cannot be seen by itself. A file
path is quoted the same way, with its single quotes escaped too.

Also here: the shapes that the quoted form of a larger value is built from, a record with named
fields, an optional value, a truth value and a list.
-/

namespace LogShipper.Text

/-- The code point of a character between braces. -/
def codePoint (c : Char) : List Char :=
  ['\\', 'u', '\x7b'] ++ hexText c.toNat ++ ['\x7d']

/-- One character as it stands inside quotes. -/
def quoteChar (c : Char) : List Char :=
  if c = '"' then ['\\', '"']
  else if c = '\\' then ['\\', '\\']
  else if c = '\n' then ['\\', 'n']
  else if c = '\r' then ['\\', 'r']
  else if c = '\t' then ['\\', 't']
  else if c = '\x00' then ['\\', '0']
  else if isExtending c || !isPrintable c then codePoint c
  else [c]

/-- A text between double quotes. -/
def quoted (s : String) : String :=
  String.ofList (['"'] ++ s.toList.flatMap quoteChar ++ ['"'])

/-- A file path between double quotes. -/
def quotedPath (s : String) : String :=
  String.ofList (['"'] ++
    s.toList.flatMap (fun c => if c = '\x27' then ['\\', '\x27'] else quoteChar c) ++ ['"'])

/-- A truth value. -/
def truth (b : Bool) : String := if b then "true" else "false"

/-- Texts between square brackets, with a comma and a space between two of them. -/
def bracketed (items : List String) : String := "[" ++ ", ".intercalate items ++ "]"

/-- An optional value, its content already written. -/
def optional : Option String → String
  | none => "None"
  | some s => "Some(" ++ s ++ ")"

/-- A record: its name, then its fields in order, the values already written. -/
def record (name : String) (fields : List (String × String)) : String :=
  name ++ " \x7b " ++ ", ".intercalate (fields.map fun f => f.1 ++ ": " ++ f.2) ++ " \x7d"

end LogShipper.Text
