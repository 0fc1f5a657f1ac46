import Mathlib.Data.List.Forall2
import LogShipper.Text.Blank

/-!
# What trimming leaves

Trimming takes off the blank characters at the two ends of a text. That leaves one text only,
whichever of its parts are counted as the ends; where all of it is blank nothing is left.

Results:
* `isBlank_iff`: the blank characters are those with the Unicode property White_Space.
* `trims_trim`: what trimming leaves.
* `Trims.eq_trim`: a text is trimmed in one way only.
-/

namespace LogShipper.Text

/-- The code points with the Unicode property White_Space. -/
def whiteSpace : List Nat :=
  [0x9, 0xA, 0xB, 0xC, 0xD, 0x20, 0x85, 0xA0, 0x1680, 0x2000, 0x2001, 0x2002, 0x2003, 0x2004,
    0x2005, 0x2006, 0x2007, 0x2008, 0x2009, 0x200A, 0x2028, 0x2029, 0x202F, 0x205F, 0x3000]

theorem isBlank_iff {c : Char} : isBlank c = true ↔ c.toNat ∈ whiteSpace := by
  have hval : c.val.toNat = c.toNat := rfl
  simp only [isBlank, whiteSpace, Bool.or_eq_true, Bool.and_eq_true, decide_eq_true_iff,
    beq_iff_eq, UInt32.le_iff_toNat_le, ← UInt32.toNat_inj, hval, UInt32.reduceToNat,
    List.mem_cons, List.not_mem_nil, or_false]
  omega

/-- What a text is without the blank characters at its two ends. -/
structure Trims (whole core : List Char) : Prop where
  between : ∃ before after, whole = before ++ core ++ after ∧
    (∀ c ∈ before, isBlank c = true) ∧ ∀ c ∈ after, isBlank c = true
  starts_clean : ∀ c ∈ core.head?, isBlank c = false
  ends_clean : ∀ c ∈ core.getLast?, isBlank c = false

theorem trimStart_split (cs : List Char) :
    ∃ before, cs = before ++ trimStart cs ∧ ∀ c ∈ before, isBlank c = true :=
  ⟨cs.takeWhile isBlank, List.takeWhile_append_dropWhile.symm,
    fun _ hc => List.all_eq_true.mp List.all_takeWhile _ hc⟩

theorem trimEnd_split (cs : List Char) :
    ∃ after, cs = trimEnd cs ++ after ∧ ∀ c ∈ after, isBlank c = true := by
  obtain ⟨before, hsplit, hblank⟩ := trimStart_split cs.reverse
  refine ⟨before.reverse, ?_, fun c hc => hblank c (List.mem_reverse.mp hc)⟩
  have hreversed := congrArg List.reverse hsplit
  rwa [List.reverse_reverse, List.reverse_append] at hreversed

/-- Trimming takes off the blank ends, and nothing else. -/
theorem trims_trim (cs : List Char) : Trims cs (trim cs) := by
  obtain ⟨before, hbefore, hblank⟩ := trimStart_split cs
  obtain ⟨after, hafter, hblank'⟩ := trimEnd_split (trimStart cs)
  refine ⟨⟨before, after, ?_, hblank, hblank'⟩, fun c hc => ?_, fun c hc => ?_⟩
  · rw [List.append_assoc, trim, ← hafter, ← hbefore]
  · obtain ⟨rest, hrest⟩ : ∃ rest, trim cs = c :: rest := List.head?_eq_some_iff.mp hc
    rw [← trim, hrest] at hafter
    exact head_trimStart hafter
  · rw [trim, trimEnd, List.getLast?_reverse] at hc
    obtain ⟨rest, hrest⟩ := List.head?_eq_some_iff.mp hc
    exact head_trimStart hrest

/-! ## One way to trim -/

variable {whole core : List Char}

theorem trimStart_append {before : List Char} (h : ∀ c ∈ before, isBlank c = true)
    (rest : List Char) : trimStart (before ++ rest) = trimStart rest :=
  List.dropWhile_append_of_pos h

theorem trimEnd_append {after : List Char} (h : ∀ c ∈ after, isBlank c = true)
    (rest : List Char) : trimEnd (rest ++ after) = trimEnd rest := by
  have hreversed : ∀ c ∈ after.reverse, isBlank c = true :=
    fun c hc => h c (List.mem_reverse.mp hc)
  rw [trimEnd, List.reverse_append, ← trimStart, trimStart_append hreversed]
  rfl

/-- A text is trimmed in one way only. Where nothing but blank characters stands, all of it may be
counted as the beginning. -/
theorem Trims.eq_trim (h : Trims whole core) : core = trim whole := by
  obtain ⟨before, after, rfl, hbefore, hafter⟩ := h.between
  cases core with
  | nil =>
    rw [eq_comm, trim_nil_iff, List.append_nil, List.all_append, Bool.and_eq_true]
    exact ⟨List.all_eq_true.mpr hbefore, List.all_eq_true.mpr hafter⟩
  | cons c cs =>
    have hstart : isBlank c = false := h.starts_clean c rfl
    calc c :: cs
      _ = trim (c :: cs) := (trim_of_clean h.starts_clean h.ends_clean).symm
      _ = trimEnd (c :: cs) := by rw [trim, trimStart_of_head hstart]
      _ = trimEnd ((c :: cs) ++ after) := (trimEnd_append hafter _).symm
      _ = trim ((c :: cs) ++ after) := by
        rw [trim, List.cons_append, trimStart_of_head hstart]
      _ = trim (before ++ (c :: cs) ++ after) := by
        rw [trim, trim, List.append_assoc, trimStart_append hbefore]

/-- All of several texts are trimmed in one way only. -/
theorem eq_map_trim {wholes cores : List (List Char)} (h : List.Forall₂ Trims wholes cores) :
    cores = wholes.map trim := by
  induction h with
  | nil => rfl
  | cons hfirst _ ih => rw [List.map_cons, ← hfirst.eq_trim, ← ih]

/-- Trimming adds nothing. -/
theorem mem_of_mem_trim {cs : List Char} {c : Char} (h : c ∈ trim cs) : c ∈ cs := by
  obtain ⟨before, after, hsplit, -⟩ := (trims_trim cs).between
  rw [hsplit]
  exact List.mem_append_left _ (List.mem_append_right _ h)

theorem trim_ne_nil_iff {cs : List Char} : trim cs ≠ [] ↔ ∃ c ∈ cs, isBlank c = false := by
  simp [trim_nil_iff]

end LogShipper.Text
