import LogShipper.Text.Bytes
import LogShipper.Text.Digits

/-!
# Commands and replies on the wire

A command is sent as an array of byte strings. A reply begins with a byte that tells what it is: a
short text, an error, an integer, a byte string with its length, or an array of replies with their
number. `Reply.read` reads one reply off the front of the bytes that have arrived, and tells a
reply that is not complete from bytes that are none.

Out of scope: the kinds of replies that a server sends only to clients which ask for them.
-/

namespace LogShipper.Resp

/-- The words of a command. -/
abbrev Command := List Bytes

/-- A command of texts. -/
def Command.ofTexts (words : List String) : Command := words.map Text.utf8

/-- What a server answers to a command. -/
inductive Reply where
  | text (line : Bytes)
  | error (line : Bytes)
  | int (n : Int)
  | bytes (content : Bytes)
  | array (items : List Reply)
  | nothing
  deriving Inhabited

/-- What has arrived. -/
inductive Arrival (α : Type) where
  | complete (value : α) (rest : Bytes)
  | partly
  | malformed

/-! ## Writing -/

/-- The end of a line. -/
def lineEnd : Bytes := [13, 10]

/-- A number after a byte that tells what it counts. -/
def counted (kind : Char) (n : Nat) : Bytes :=
  Text.utf8 (String.singleton kind ++ Text.decimal n) ++ lineEnd

/-- The bytes of a command. -/
def Command.encode (c : Command) : Bytes :=
  counted '*' c.length ++ c.flatMap fun word => counted '$' word.length ++ word ++ lineEnd

/-! ## Reading -/

/-- The bytes up to the end of the first line, and those after it. -/
def readLine : Bytes → Option (Bytes × Bytes)
  | 13 :: 10 :: rest => some ([], rest)
  | b :: rest => (readLine rest).map fun (line, rest) => (b :: line, rest)
  | [] => none

/-- A signed number that is the whole line. -/
def number? (line : Bytes) : Option Int := (Text.ofUtf8? line).bind fun s =>
  match s.toList with
  | '-' :: cs => (Text.digits? cs).map fun n => -(n : Int)
  | '+' :: cs => (Text.digits? cs).map Int.ofNat
  | cs => (Text.digits? cs).map Int.ofNat

/-- A byte string of a length, with the end of its line. -/
def readBytes (n : Nat) (bs : Bytes) : Arrival Reply :=
  if bs.length < n + 2 then .partly
  else if (bs.drop n).take 2 = lineEnd then .complete (.bytes (bs.take n)) (bs.drop (n + 2))
  else .malformed

mutual

/-- Reads one reply; replies within replies are read as deep as the fuel allows. -/
def Reply.readFuel : Nat → Bytes → Arrival Reply
  | 0, _ => .malformed
  | _, [] => .partly
  | fuel + 1, kind :: bs =>
    match readLine bs with
    | none => .partly
    | some (line, rest) =>
      if kind = 43 then .complete (.text line) rest
      else if kind = 45 then .complete (.error line) rest
      else match number? line with
        | none => .malformed
        | some n =>
          if kind = 58 then .complete (.int n) rest
          else if kind = 36 then
            if n < 0 then .complete .nothing rest else readBytes n.toNat rest
          else if kind = 42 then
            if n < 0 then .complete .nothing rest
            else match Reply.readMany fuel n.toNat rest with
              | .complete items rest => .complete (.array items) rest
              | .partly => .partly
              | .malformed => .malformed
          else .malformed

/-- Reads so many replies in a row. -/
def Reply.readMany : Nat → Nat → Bytes → Arrival (List Reply)
  | _, 0, bs => .complete [] bs
  | 0, _, _ => .malformed
  | fuel + 1, n + 1, bs =>
    match Reply.readFuel fuel bs with
    | .complete item rest =>
      match Reply.readMany fuel n rest with
      | .complete items rest => .complete (item :: items) rest
      | .partly => .partly
      | .malformed => .malformed
    | .partly => .partly
    | .malformed => .malformed

end

/-- Reads one reply. Each level of replies and each item takes bytes of its own, so there are no
more of them than bytes. -/
def Reply.read (bs : Bytes) : Arrival Reply := Reply.readFuel (2 * bs.length + 1) bs

end LogShipper.Resp
