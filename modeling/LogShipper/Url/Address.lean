import LogShipper.Url.Percent
import LogShipper.Url.Ipv6

/-!
# Addresses of a store as a URL

`redis://` or `rediss://`, an optional password, host, port, database and, for a connection that
does not verify its peer, a fragment. The host is a name of any kind, percent-encoded where it has
controls or characters outside ASCII, or an IPv6 address in brackets.

Covers the URL that `to_url` makes, as a library for URLs checks and writes its parts.

Out of scope: other schemes, user names, and domain names in the form that the web uses.
-/

namespace LogShipper.Url

/-- The host of an address. -/
inductive Host where
  | name (encoded : List Char)
  | address (ip : Ipv6)
  deriving DecidableEq

/-- Why a text is no host. -/
inductive HostError where
  | invalidCharacter
  | invalidIpv6
  deriving DecidableEq, Repr

/-- How the error is reported. -/
def HostError.message : HostError → String
  | .invalidCharacter => "invalid domain character"
  | .invalidIpv6 => "invalid IPv6 address"

namespace Host

/-- The characters that a host name must not hold. -/
def isForbidden (c : Char) : Bool :=
  ['\x00', '\t', '\n', '\r', ' ', '#', '/', ':', '<', '>', '?', '@', '[', '\\', ']', '^',
    '|'].contains c

/-- Whether a text stands in brackets. -/
def isBracketed (cs : List Char) : Bool := cs.head? = some '[' && cs.getLast? = some ']'

/-- The part of a host that is used: what stands before its first colon, unless it is in
brackets. A host must not begin with a colon. -/
def used (cs : List Char) : Except HostError (List Char) :=
  if isBracketed cs then .ok cs
  else if cs.head? = some ':' then .error .invalidCharacter
  else .ok (cs.takeWhile (· != ':'))

/-- Reads the part of a host that is used. -/
def parseUsed (cs : List Char) : Except HostError Host :=
  match cs with
  | '[' :: rest =>
    if rest.getLast? = some ']' then
      match Ipv6.parse? rest.dropLast with
      | some ip => .ok (.address ip)
      | none => .error .invalidIpv6
    else .error .invalidIpv6
  | cs => if cs.any isForbidden then .error .invalidCharacter else .ok (.name (encode isControl cs))

/-- Reads a host. -/
def parse (cs : List Char) : Except HostError Host := do
  let cs ← used cs
  parseUsed cs

/-- Writes a host. -/
def chars : Host → List Char
  | name cs => cs
  | address ip => '[' :: (ip.chars ++ [']'])

theorem takeWhile_of_all {p : Char → Bool} {cs : List Char} (h : ∀ c ∈ cs, p c = true) :
    cs.takeWhile p = cs := by
  induction cs with
  | nil => rfl
  | cons c r ih =>
    rw [List.takeWhile_cons, if_pos (h c (by simp)), ih fun d hd => h d (by simp [hd])]

end Host

/-- An address of a store. -/
structure Address where
  secure : Bool
  /-- The password as it is written, percent-encoded and not empty. -/
  password : Option (List Char)
  host : Host
  port : UInt16
  database : Int64
  /-- Whether the peer of a secure connection goes unverified. -/
  unverified : Bool
  deriving DecidableEq

namespace Address

/-- The scheme of an address. -/
def scheme (a : Address) : List Char :=
  if a.secure then ['r', 'e', 'd', 'i', 's', 's'] else ['r', 'e', 'd', 'i', 's']

/-- The text of an address. -/
def chars (a : Address) : List Char :=
  a.scheme ++ [':', '/', '/'] ++
    (match a.password with
    | none => []
    | some p => ':' :: (p ++ ['@'])) ++
    a.host.chars ++ [':'] ++ Nat.toDigits 10 a.port.toNat ++ ['/'] ++
    (if a.database < 0 then ['-'] else []) ++ Nat.toDigits 10 a.database.toInt.natAbs ++
    (if a.unverified then "#insecure".toList else [])

/-- The text of an address. -/
def text (a : Address) : String := String.ofList a.chars

end Address

end LogShipper.Url
