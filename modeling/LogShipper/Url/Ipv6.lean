import LogShipper.Text.Digits

/-!
# IPv6 addresses

An address is eight groups of sixteen bits. It is read from groups of one to four digits in base
sixteen between colons, of which one double colon may stand for a run of zeros and the last two
may be written as four decimal bytes. It is written in lower case, the first of its longest runs
of two or more zeros as a double colon.

Out of scope: zones.

Results:
* `ofGroups_groups`: eight groups make the address of these groups.
-/

namespace LogShipper.Url

/-- An address of eight groups. -/
structure Ipv6 where
  groups : List UInt16
  length_eq : groups.length = 8
  deriving DecidableEq

namespace Ipv6

/-- The address of eight groups. -/
def ofGroups? (gs : List UInt16) : Option Ipv6 :=
  if h : gs.length = 8 then some ⟨gs, h⟩ else none

theorem ofGroups_groups (a : Ipv6) : ofGroups? a.groups = some a := by
  simp [ofGroups?, a.length_eq]

/-! ## Reading -/

/-- The pieces of a text between separators. -/
def pieces (sep : Char) : List Char → List (List Char)
  | [] => [[]]
  | c :: cs =>
    if c = sep then [] :: pieces sep cs
    else match pieces sep cs with
      | [] => [[c]]
      | p :: ps => (c :: p) :: ps

/-- The parts of a text before and after its first double colon. -/
def cutDouble : List Char → Option (List Char × List Char)
  | [] => none
  | ':' :: ':' :: cs => some ([], cs)
  | c :: cs => (cutDouble cs).map fun (l, r) => (c :: l, r)

/-- A group of one to four digits in base sixteen. -/
def group? (cs : List Char) : Option UInt16 :=
  if 1 ≤ cs.length ∧ cs.length ≤ 4 then
    (cs.mapM Text.hexValue?).map fun ds =>
      UInt16.ofNat (ds.foldl (fun n d => n * 16 + d) 0)
  else none

/-- A decimal byte without leading zeros. -/
def byte? (cs : List Char) : Option Nat :=
  match cs.mapM Text.digit? with
  | some [d] => some d
  | some (0 :: _) => none
  | some ds =>
    let n := ds.foldl (fun n d => n * 10 + d) 0
    if ds.length ≤ 3 ∧ ds ≠ [] ∧ n ≤ 255 then some n else none
  | none => none

/-- Two groups written as four decimal bytes. -/
def dotted? (cs : List Char) : Option (List UInt16) :=
  match (pieces '.' cs).mapM byte? with
  | some [a, b, c, d] => some [UInt16.ofNat (a * 256 + b), UInt16.ofNat (c * 256 + d)]
  | _ => none

/-- The groups written by pieces; only the last piece may be dotted, and only where allowed. -/
def groups? (dottedEnd : Bool) : List (List Char) → Option (List UInt16)
  | [] => some []
  | [p] => if dottedEnd && p.contains '.' then dotted? p else (group? p).map ([·])
  | p :: ps => do
    let g ← group? p
    let gs ← groups? dottedEnd ps
    return g :: gs

/-- One side of a double colon. -/
def side? (dottedEnd : Bool) : List Char → Option (List UInt16)
  | [] => some []
  | cs => groups? dottedEnd (pieces ':' cs)

/-- Reads an address. -/
def parse? (cs : List Char) : Option Ipv6 :=
  match cutDouble cs with
  | none => (groups? true (pieces ':' cs)).bind ofGroups?
  | some (l, r) => do
    let left ← side? false l
    let right ← side? true r
    let given := left.length + right.length
    if given ≤ 7 then ofGroups? (left ++ List.replicate (8 - given) 0 ++ right) else none

/-! ## Writing -/

/-- How many zeros a list begins with. -/
def zeroRun : List UInt16 → Nat
  | [] => 0
  | g :: gs => if g = 0 then zeroRun gs + 1 else 0

/-- The place and length of the first longest run of zeros, from a place on. -/
def longestRun : Nat → List UInt16 → Nat × Nat
  | _, [] => (0, 0)
  | place, g :: gs =>
    let here := zeroRun (g :: gs)
    let later := longestRun (place + 1) gs
    if later.2 ≤ here then (place, here) else later

/-- Groups with colons between them. -/
def joined (gs : List UInt16) : List Char :=
  List.intercalate [':'] (gs.map fun g => Text.hexText g.toNat)

/-- Writes an address. -/
def chars (a : Ipv6) : List Char :=
  let (place, run) := longestRun 0 a.groups
  if 2 ≤ run then
    joined (a.groups.take place) ++ [':', ':'] ++ joined (a.groups.drop (place + run))
  else joined a.groups

end Ipv6

end LogShipper.Url
