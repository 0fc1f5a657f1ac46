import LogShipper.Proofs.Url.Escapes
import LogShipper.Text.Lines

/-!
# Lines of text

Bytes are cut into lines before anything is read as text. Where the bytes are UTF-8 it makes no
difference: no byte of another character is a line feed or a carriage return, so the lines of the
bytes are those of the text, and each of them is UTF-8.

Results:
* `eq_of_mem_utf8Char`: a byte below 128 stands for itself only.
* `map_read_splitLines`: the lines of UTF-8 are read as what the lines of the text say.
-/

namespace LogShipper.Text

/-! ## What the lines of a text say -/

/-- A line that a line feed ends, without a carriage return right before that. -/
def dropReturn (line : List Char) : List Char :=
  if line.getLast? = some '\r' then line.dropLast else line

/-- What the lines of a text say. Only a line feed ends one; behind the last one stands a line
without an end, unless nothing does. -/
def linesSaid (cs : List Char) : List (List Char) :=
  ((cs.splitOn '\n').dropLast.map dropReturn) ++
    ((cs.splitOn '\n').getLast?.toList.filter (· != []))

theorem linesSaid_open {line : List Char} (h : '\n' ∉ line) :
    linesSaid line = [line].filter (· != []) := by
  rw [linesSaid, List.splitOn_eq_singleton h]
  rfl

theorem linesSaid_line {line : List Char} (h : '\n' ∉ line) (rest : List Char) :
    linesSaid (line ++ '\n' :: rest) = dropReturn line :: linesSaid rest := by
  have hsplit : (line ++ '\n' :: rest).splitOn '\n' = line :: rest.splitOn '\n' := by
    have hcut := List.splitOnP_append_cons (p := (· == '\n')) line rest (beq_self_eq_true '\n')
    rwa [← List.splitOn, ← List.splitOn, ← List.splitOn, List.splitOn_eq_singleton h] at hcut
  have hne := List.splitOn_ne_nil '\n' rest
  rw [linesSaid, linesSaid, hsplit, List.dropLast_cons_of_ne_nil hne,
    List.getLast?_cons_of_ne_nil hne]
  rfl

/-! ## Bytes of characters -/

/-- A byte below 128 stands for itself, and is part of no other character. -/
theorem eq_of_mem_utf8Char {c : Char} {b : UInt8} (hb : b.toNat < 128) (h : b ∈ utf8Char c) :
    c.toNat = b.toNat := by
  have small (n : Nat) (hn : 128 ≤ n) (hn' : n < 256) : b ≠ UInt8.ofNat n := by
    rintro rfl
    rw [UInt8.toNat_ofNat_of_lt' hn'] at hb
    omega
  rw [utf8Char_eq, String.utf8EncodeChar] at h
  split at h
  · rw [List.mem_singleton] at h
    rw [h, UInt8.toNat_ofNat_of_lt' (by rw [UInt8.size]; omega)]
    rfl
  · -- all bytes of a character that takes several are 128 or more
    split at h
    · simp only [List.mem_cons, List.not_mem_nil, or_false] at h
      rcases h with h | h <;> exact absurd h (small _ (by omega) (by omega))
    · split at h
      · simp only [List.mem_cons, List.not_mem_nil, or_false] at h
        rcases h with h | h | h <;> exact absurd h (small _ (by omega) (by omega))
      · simp only [List.mem_cons, List.not_mem_nil, or_false] at h
        rcases h with h | h | h | h <;> exact absurd h (small _ (by omega) (by omega))

theorem utf8Char_lineFeed : utf8Char '\n' = [lineFeed] := by decide +kernel

theorem utf8Char_carriageReturn : utf8Char '\r' = [carriageReturn] := by decide +kernel

/-- The bytes of characters. -/
def utf8Chars (cs : List Char) : Bytes := cs.flatMap utf8Char

theorem utf8Chars_append (cs ds : List Char) :
    utf8Chars (cs ++ ds) = utf8Chars cs ++ utf8Chars ds := List.flatMap_append

theorem ofUtf8?_utf8Chars (cs : List Char) : ofUtf8? (utf8Chars cs) = some (String.ofList cs) := by
  rw [utf8Chars, ← String.toList_ofList (l := cs), ← utf8_eq_flatMap, ofUtf8?_utf8]
  rw [String.toList_ofList]

theorem lineFeed_not_mem {line : List Char} (h : '\n' ∉ line) : lineFeed ∉ utf8Chars line := by
  intro hmem
  obtain ⟨c, hc, hb⟩ := List.mem_flatMap.mp hmem
  have : c = '\n' := Char.toNat_inj.mp (eq_of_mem_utf8Char (by decide) hb)
  exact h (this ▸ hc)

/-- With the line feed of a line goes a carriage return right before it. -/
theorem chomp_utf8Chars_line (line : List Char) :
    chomp (utf8Chars line ++ [lineFeed]) = utf8Chars (dropReturn line) := by
  cases hc : line.getLast? with
  | none =>
    rw [List.getLast?_eq_none_iff.mp hc]
    rfl
  | some c =>
    obtain ⟨front, rfl⟩ := List.getLast?_eq_some_iff.mp hc
    have hbytes : utf8Chars (front ++ [c]) = utf8Chars front ++ utf8Char c := by
      rw [utf8Chars_append]
      exact congrArg (utf8Chars front ++ ·) (List.append_nil _)
    rw [dropReturn, hc]
    by_cases hreturn : c = '\r'
    · rw [if_pos (congrArg some hreturn), List.dropLast_concat, hbytes, hreturn,
        utf8Char_carriageReturn, List.append_assoc]
      exact chomp_crlf _
    · rw [if_neg fun h => hreturn (Option.some.inj h)]
      apply chomp_lineFeed
      intro hlast
      rw [hbytes, List.getLast?_append,
        List.getLast?_eq_some_getLast (utf8Char_ne_nil c), Option.some_or,
        ← List.getLast?_eq_some_getLast] at hlast
      have hvalue := eq_of_mem_utf8Char (by decide) (List.mem_of_getLast? hlast)
      exact hreturn (Char.toNat_inj.mp hvalue)

theorem chomp_utf8Chars_open {line : List Char} (h : '\n' ∉ line) :
    chomp (utf8Chars line) = utf8Chars line :=
  chomp_open fun hlast => lineFeed_not_mem h (List.mem_of_getLast? hlast)

/-- **The lines of UTF-8** are UTF-8, and are read as what the lines of the text say. The induction
takes off the first line. -/
theorem map_read_splitLines (cs : List Char) :
    (splitLines (utf8Chars cs)).map (fun raw => ofUtf8? (chomp raw)) =
      (linesSaid cs).map fun line => some (String.ofList line) := by
  induction hn : cs.length using Nat.strongRecOn generalizing cs with
  | ind n ih =>
    by_cases hmem : '\n' ∈ cs
    · obtain ⟨line, rest, rfl, hline⟩ := List.eq_append_cons_of_mem hmem
      have hbytes : utf8Chars (line ++ '\n' :: rest) =
          utf8Chars line ++ lineFeed :: utf8Chars rest := by
        rw [utf8Chars_append]
        exact congrArg (utf8Chars line ++ ·) (congrArg (· ++ utf8Chars rest) utf8Char_lineFeed)
      rw [hbytes, splitLines_line (lineFeed_not_mem hline), linesSaid_line hline, List.map_cons,
        List.map_cons, chomp_utf8Chars_line, ofUtf8?_utf8Chars,
        ih rest.length (by simp [← hn]; omega) rest rfl]
    · rw [linesSaid_open hmem]
      cases cs with
      | nil => rfl
      | cons c cs =>
        have hne : utf8Chars (c :: cs) ≠ [] := by
          simp [utf8Chars, utf8Char_ne_nil]
        rw [splitLines_open (lineFeed_not_mem hmem) hne, List.map_singleton,
          chomp_utf8Chars_open hmem, ofUtf8?_utf8Chars]
        rfl

end LogShipper.Text
