/-!
# Tables of code points

A table is a list of closed ranges of code points, as the Unicode character database lists them.
-/

namespace LogShipper.Text

/-- Whether a code point lies in one of the ranges of a table. -/
def inTable (table : List (Nat × Nat)) (n : Nat) : Bool :=
  table.any fun r => r.1 ≤ n && n ≤ r.2

end LogShipper.Text
