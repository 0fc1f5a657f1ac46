import LogShipper.Text.Bytes

/-!
# Lines of bytes

A line goes up to a line feed. What stands after the last line feed is a line too, unless nothing
does. `splitLines` cuts bytes into lines with their ends on, and `chomp` takes the end off: a line
feed, and a carriage return right before it.

Results:
* `splitLines_line`: a line is cut off the front of any bytes that begin with it.
* `chomp_lineFeed`, `chomp_crlf`, `chomp_open`: what the end of a line is.
-/

namespace LogShipper.Text

/-- The byte that ends a line. -/
def lineFeed : UInt8 := 10

/-- The byte that is dropped before a line feed. -/
def carriageReturn : UInt8 := 13

/-- Puts a byte in front of the first line. -/
def extendLine (b : UInt8) : List Bytes → List Bytes
  | [] => [[b]]
  | line :: rest => (b :: line) :: rest

/-- Cuts bytes after every line feed. -/
def splitLines : Bytes → List Bytes
  | [] => []
  | b :: bs => if b = lineFeed then [b] :: splitLines bs else extendLine b (splitLines bs)

/-- A line without its end. -/
def chomp (line : Bytes) : Bytes :=
  match line.reverse with
  | [] => []
  | b :: rest =>
    if b = lineFeed then
      match rest with
      | [] => []
      | c :: before => if c = carriageReturn then before.reverse else rest.reverse
    else line

/-! ## Nothing is lost -/

/-- A line is cut off the front of any bytes that begin with it. -/
theorem splitLines_line {line : Bytes} (h : lineFeed ∉ line) (rest : Bytes) :
    splitLines (line ++ lineFeed :: rest) = (line ++ [lineFeed]) :: splitLines rest := by
  induction line with
  | nil => simp [splitLines]
  | cons b line ih =>
    have hb : b ≠ lineFeed := fun h' => h (h' ▸ List.mem_cons_self)
    have hl : lineFeed ∉ line := fun h' => h (List.mem_cons_of_mem _ h')
    rw [List.cons_append, splitLines, if_neg hb, ih hl]
    rfl

/-- Bytes without a line feed are one line, or none. -/
theorem splitLines_open {line : Bytes} (h : lineFeed ∉ line) (hne : line ≠ []) :
    splitLines line = [line] := by
  induction line with
  | nil => exact absurd rfl hne
  | cons b line ih =>
    have hb : b ≠ lineFeed := fun h' => h (h' ▸ List.mem_cons_self)
    have hl : lineFeed ∉ line := fun h' => h (List.mem_cons_of_mem _ h')
    rw [splitLines, if_neg hb]
    cases line with
    | nil => rfl
    | cons c line => rw [ih hl (by simp), extendLine]

/-! ## The end of a line -/

theorem chomp_crlf (line : Bytes) : chomp (line ++ [carriageReturn, lineFeed]) = line := by
  simp [chomp]

theorem chomp_lineFeed {line : Bytes} (h : line.getLast? ≠ some carriageReturn) :
    chomp (line ++ [lineFeed]) = line := by
  rw [chomp, List.reverse_append]
  cases hr : line.reverse with
  | nil =>
    have : line = [] := by simpa using hr
    simp [this]
  | cons c before =>
    have hl : line = before.reverse ++ [c] := by
      rw [← List.reverse_reverse line, hr, List.reverse_cons]
    have hc : c ≠ carriageReturn := by
      intro h'
      apply h
      rw [hl, h', List.getLast?_concat]
    simp [hl, hc]

theorem chomp_open {line : Bytes} (h : line.getLast? ≠ some lineFeed) : chomp line = line := by
  rw [chomp]
  cases hr : line.reverse with
  | nil =>
    have : line = [] := by simpa using hr
    simp [this]
  | cons b rest =>
    have hl : line = rest.reverse ++ [b] := by
      rw [← List.reverse_reverse line, hr, List.reverse_cons]
    have hb : b ≠ lineFeed := by
      intro h'
      apply h
      rw [hl, h', List.getLast?_concat]
    simp [hb]

end LogShipper.Text
