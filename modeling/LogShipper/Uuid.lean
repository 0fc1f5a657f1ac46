import LogShipper.Text.Digits

/-!
# Names that nobody else has

A name is made of sixteen random bytes, written in base sixteen with dashes between its five groups.
Six of the bits say that it is a random one.
-/

namespace LogShipper

/-- Sets the bits that say how a name was made: the version is in the seventh byte, the variant in
the ninth. -/
def markRandom (bytes : List UInt8) : List UInt8 :=
  bytes.mapIdx fun i b =>
    if i = 6 then (b &&& 0x0F) ||| 0x40 else if i = 8 then (b &&& 0x3F) ||| 0x80 else b

/-- The groups of a name. -/
def uuidGroups (bytes : List UInt8) : List String :=
  let marked := markRandom bytes
  [(0, 4), (4, 2), (6, 2), (8, 2), (10, 6)].map fun (start, count) =>
    String.ofList (((marked.drop start).take count).flatMap Text.hexByte)

/-- The name that random bytes make. -/
def uuid (bytes : List UInt8) : String := "-".intercalate (uuidGroups bytes)

end LogShipper
