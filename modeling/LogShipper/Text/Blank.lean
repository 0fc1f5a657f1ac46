/-!
# Blank characters and trimming

`Text.isBlank` is the Unicode property White_Space. `trim` drops the blank characters at both
ends of a text and keeps those inside it.

Results:
* `trim_nil_iff`: a text trims to nothing exactly when all of it is blank.
* `trim_of_clean`: a text that neither begins nor ends with a blank character is left alone.
-/

namespace LogShipper.Text

/-- The characters with the Unicode property White_Space. -/
def isBlank (c : Char) : Bool :=
  (9 ≤ c.val && c.val ≤ 13) || c.val == 0x20 || c.val == 0x85 || c.val == 0xA0 ||
    c.val == 0x1680 || (0x2000 ≤ c.val && c.val ≤ 0x200A) || c.val == 0x2028 ||
    c.val == 0x2029 || c.val == 0x202F || c.val == 0x205F || c.val == 0x3000

/-- The text without the blank characters it begins with. -/
def trimStart (cs : List Char) : List Char := cs.dropWhile isBlank

/-- The text without the blank characters it ends with. -/
def trimEnd (cs : List Char) : List Char := (cs.reverse.dropWhile isBlank).reverse

/-- The text without the blank characters at its two ends. -/
def trim (cs : List Char) : List Char := trimEnd (trimStart cs)

/-- Whether nothing but blank characters stands in the text. -/
def isBlankText (s : String) : Bool := s.toList.all isBlank

theorem trimStart_nil_iff {cs : List Char} : trimStart cs = [] ↔ cs.all isBlank = true := by
  induction cs with
  | nil => simp [trimStart]
  | cons c r ih =>
    by_cases h : isBlank c = true
    · rw [trimStart, List.dropWhile_cons, if_pos h, ← trimStart, ih]
      simp [h]
    · simp [trimStart, h]

theorem trimEnd_nil_iff {cs : List Char} : trimEnd cs = [] ↔ cs.all isBlank = true := by
  rw [trimEnd, List.reverse_eq_nil_iff, ← trimStart, trimStart_nil_iff, List.all_reverse]

theorem head_trimStart {cs : List Char} {c : Char} {r : List Char} (h : trimStart cs = c :: r) :
    isBlank c = false := by
  induction cs with
  | nil => simp [trimStart] at h
  | cons d s ih =>
    by_cases hd : isBlank d = true
    · rw [trimStart, List.dropWhile_cons, if_pos hd] at h
      exact ih h
    · rw [trimStart, List.dropWhile_cons, if_neg hd] at h
      cases h
      simpa using hd

/-- A text trims to nothing exactly when all of it is blank. -/
theorem trim_nil_iff {cs : List Char} : trim cs = [] ↔ cs.all isBlank = true := by
  constructor
  · intro h
    rw [trim, trimEnd_nil_iff] at h
    rw [← trimStart_nil_iff]
    cases hs : trimStart cs with
    | nil => rfl
    | cons c r =>
      have hc := head_trimStart hs
      rw [hs] at h
      simp [hc] at h
  · intro h
    rw [trim, trimStart_nil_iff.mpr h]
    rfl

theorem trimStart_of_head {c : Char} {r : List Char} (h : isBlank c = false) :
    trimStart (c :: r) = c :: r := by
  simp [trimStart, h]

theorem trimEnd_of_last {cs : List Char} {c : Char} (h : isBlank c = false) :
    trimEnd (cs ++ [c]) = cs ++ [c] := by
  simp [trimEnd, h]

/-- A text that neither begins nor ends with a blank character is left alone. -/
theorem trim_of_clean {cs : List Char} (hf : ∀ c ∈ cs.head?, isBlank c = false)
    (hl : ∀ c ∈ cs.getLast?, isBlank c = false) : trim cs = cs := by
  cases cs with
  | nil => rfl
  | cons c r =>
    rw [trim, trimStart_of_head (hf c (by simp))]
    have hne : c :: r ≠ [] := by simp
    rw [← List.dropLast_concat_getLast hne]
    exact trimEnd_of_last (hl _ (by simp [List.getLast?_eq_some_getLast hne]))

end LogShipper.Text
