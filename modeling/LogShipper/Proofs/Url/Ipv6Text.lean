import LogShipper.Proofs.Text.Digits
import LogShipper.Url.Ipv6

/-!
# An IPv6 address reads back as itself

An address is written in groups of digits with colons between them, with a double colon in place of
its first longest run of zeros. Reading what was written gives the address back: the digits of a
group stand for the group, the groups of either side of the double colon stand between colons, and
what the double colon stands for is the run that was left out.

Results:
* `group?_word`: a group reads back as itself.
* `cutDouble_joined`: groups with colons between them hold no double colon.
* `split_longestRun`: the run that is left out is one of zeros.
* `parse?_chars`: an address reads back as itself.
-/

namespace LogShipper

namespace Url.Ipv6

/-! ## Groups -/

/-- A group as it is written. -/
def word (g : UInt16) : List Char := Text.hexText g.toNat

theorem word_ne_nil (g : UInt16) : word g ≠ [] := by
  have := Nat.length_toDigits_pos (b := 16) (n := g.toNat)
  exact List.length_pos_iff.mp this

/-- **A group reads back as itself.** -/
theorem group?_word (g : UInt16) : group? (word g) = some g := by
  have hpos : 1 ≤ (word g).length := List.length_pos_iff.mpr (word_ne_nil g)
  have hle : (word g).length ≤ 4 :=
    (Nat.length_toDigits_le_iff (by omega) (by omega)).mpr g.toNat_lt
  obtain ⟨ds, hds, hvalue⟩ :=
    Text.mapM_toDigits (by omega) (fun _ => Text.hexValue?_digitChar) g.toNat
  unfold group?
  rw [if_pos ⟨hpos, hle⟩, word, Text.hexText, hds, Option.map_some, hvalue, UInt16.ofNat_toNat]

/-- Groups between colons, as they are read. -/
theorem groups?_words (dottedEnd : Bool) (gs : List UInt16) :
    groups? dottedEnd (gs.map word) = some gs := by
  induction gs with
  | nil => rfl
  | cons g gs ih =>
    cases gs with
    | nil =>
      have hdot : (word g).contains '.' = false := by
        rw [List.contains_eq_mem, decide_eq_false_iff_not]
        exact Text.not_mem_hexText (by decide)
      show groups? dottedEnd [word g] = _
      rw [groups?, hdot, Bool.and_false, if_neg Bool.false_ne_true, group?_word]
      rfl
    | cons g' gs =>
      show groups? dottedEnd (word g :: (g' :: gs).map word) = _
      rw [List.map_cons, groups?, ← List.map_cons, ih, group?_word]
      · rfl
      · exact List.cons_ne_nil _ _

/-! ## Colons -/

theorem joined_cons_cons (g g' : UInt16) (gs : List UInt16) :
    joined (g :: g' :: gs) = word g ++ ':' :: joined (g' :: gs) := by
  unfold joined
  rw [List.map_cons, List.map_cons, List.intercalate_cons_cons, List.append_assoc]
  rfl

theorem joined_singleton (g : UInt16) : joined [g] = word g := by
  simp [joined, word]

theorem joined_ne_nil (g : UInt16) (gs : List UInt16) : joined (g :: gs) ≠ [] := by
  cases gs with
  | nil =>
    rw [joined_singleton]
    exact word_ne_nil g
  | cons g' gs =>
    rw [joined_cons_cons]
    exact List.append_ne_nil_of_left_ne_nil (word_ne_nil g) _

/-- A text without separators is one piece. -/
theorem pieces_of_not_mem {sep : Char} {cs : List Char} (h : sep ∉ cs) : pieces sep cs = [cs] := by
  induction cs with
  | nil => rfl
  | cons c cs ih =>
    rw [List.mem_cons, not_or] at h
    rw [pieces, if_neg (Ne.symm h.1), ih h.2]

/-- What stands before the first separator is the first piece. -/
theorem pieces_append {sep : Char} {cs : List Char} (h : sep ∉ cs) (rest : List Char) :
    pieces sep (cs ++ sep :: rest) = cs :: pieces sep rest := by
  induction cs with
  | nil => exact if_pos rfl
  | cons c cs ih =>
    rw [List.mem_cons, not_or] at h
    rw [List.cons_append, pieces, if_neg (Ne.symm h.1), ih h.2]

theorem colon_not_mem_word (g : UInt16) : ':' ∉ word g := Text.not_mem_hexText (by decide)

/-- Groups with colons between them fall into these groups. -/
theorem pieces_joined (g : UInt16) (gs : List UInt16) :
    pieces ':' (joined (g :: gs)) = (g :: gs).map word := by
  induction gs generalizing g with
  | nil =>
    rw [joined_singleton, pieces_of_not_mem (colon_not_mem_word g)]
    rfl
  | cons g' gs ih =>
    rw [joined_cons_cons, pieces_append (colon_not_mem_word g), ih g']
    rfl

theorem side?_joined (dottedEnd : Bool) (gs : List UInt16) :
    side? dottedEnd (joined gs) = some gs := by
  cases gs with
  | nil => rfl
  | cons g gs =>
    obtain ⟨c, cs, hcs⟩ := List.exists_cons_of_ne_nil (joined_ne_nil g gs)
    rw [hcs, side?, ← hcs, pieces_joined, groups?_words]
    exact fun h => absurd h (List.cons_ne_nil c cs)

/-! ## Double colons -/

/-- A double colon is not found in what holds no colon. -/
theorem cutDouble_append {cs : List Char} (h : ':' ∉ cs) (rest : List Char) :
    cutDouble (cs ++ rest) = (cutDouble rest).map fun x => (cs ++ x.1, x.2) := by
  induction cs with
  | nil => simp
  | cons c cs ih =>
    rw [List.mem_cons, not_or] at h
    rw [List.cons_append, cutDouble.eq_3, ih h.2, Option.map_map]
    · rfl
    · exact fun _ hc _ => absurd hc.symm h.1

/-- A colon before what is none begins no double colon. -/
theorem cutDouble_colon {c : Char} (h : c ≠ ':') (rest : List Char) :
    cutDouble (':' :: c :: rest) = (cutDouble (c :: rest)).map fun x => (':' :: x.1, x.2) := by
  rw [cutDouble.eq_3]
  exact fun _ _ hc => absurd (List.cons.inj hc).1 h

theorem joined_head (g : UInt16) (gs : List UInt16) :
    ∃ c cs, joined (g :: gs) = c :: cs ∧ c ≠ ':' := by
  obtain ⟨c, cs, hcs⟩ := List.exists_cons_of_ne_nil (word_ne_nil g)
  have hc : c ≠ ':' := by
    rintro rfl
    exact colon_not_mem_word g (hcs ▸ List.mem_cons_self)
  cases gs with
  | nil => exact ⟨c, cs, (joined_singleton g).trans hcs, hc⟩
  | cons g' gs => exact ⟨c, _, by rw [joined_cons_cons, hcs]; rfl, hc⟩

/-- **Groups with colons between them hold no double colon.** -/
theorem cutDouble_joined (gs : List UInt16) (rest : List Char) :
    cutDouble (joined gs ++ rest) = (cutDouble rest).map fun x => (joined gs ++ x.1, x.2) := by
  induction gs with
  | nil => exact cutDouble_append List.not_mem_nil rest
  | cons g gs ih =>
    cases gs with
    | nil =>
      rw [joined_singleton]
      exact cutDouble_append (colon_not_mem_word g) rest
    | cons g' gs =>
      obtain ⟨c, cs, hcs, hc⟩ := joined_head g' gs
      rw [joined_cons_cons, List.append_assoc, cutDouble_append (colon_not_mem_word g),
        List.cons_append]
      rw [hcs] at ih ⊢
      rw [List.cons_append, cutDouble_colon hc, ← List.cons_append, ih, Option.map_map,
        Option.map_map]
      congr 1
      funext x
      simp

/-- Groups with colons between them are written with colons and digits. -/
theorem of_mem_joined {gs : List UInt16} {c : Char} (hc : c ∈ joined gs) :
    c = ':' ∨ ∃ x, Text.hexValue? c = some x := by
  induction gs with
  | nil => exact absurd hc List.not_mem_nil
  | cons g gs ih =>
    cases gs with
    | nil =>
      rw [joined_singleton] at hc
      exact .inr (Text.hexValue?_of_mem_toDigits (by omega) (by omega) hc)
    | cons g' gs =>
      rw [joined_cons_cons, List.mem_append, List.mem_cons] at hc
      rcases hc with hc | hc | hc
      · exact .inr (Text.hexValue?_of_mem_toDigits (by omega) (by omega) hc)
      · exact .inl hc
      · exact ih hc

/-! ## Runs of zeros -/

/-- A list begins with the run of zeros that is counted. -/
theorem split_zeroRun (gs : List UInt16) :
    gs = List.replicate (zeroRun gs) 0 ++ gs.drop (zeroRun gs) := by
  induction gs with
  | nil => rfl
  | cons g gs ih =>
    rw [zeroRun]
    split
    · rename_i h
      rw [h, List.replicate_succ, List.drop_succ_cons, List.cons_append, ← ih]
    · rfl

/-- **The run that is left out is one of zeros.** The induction is on the groups. -/
theorem split_longestRun {gs : List UInt16} {start place run : Nat}
    (h : longestRun start gs = (place, run)) (hrun : 0 < run) :
    start ≤ place ∧ gs = gs.take (place - start) ++ (List.replicate run 0 ++
      gs.drop (place - start + run)) := by
  induction gs generalizing start with
  | nil =>
    cases h
    exact absurd hrun (Nat.lt_irrefl 0)
  | cons g gs ih =>
    rw [longestRun] at h
    split at h
    · cases h
      rw [Nat.sub_self, List.take_zero, List.nil_append, Nat.zero_add]
      exact ⟨Nat.le_refl _, split_zeroRun (g :: gs)⟩
    · obtain ⟨hle, hsplit⟩ := ih h
      refine ⟨Nat.le_of_succ_le hle, ?_⟩
      have hplace : place - start = place - (start + 1) + 1 := by omega
      rw [hplace, List.take_succ_cons, Nat.add_right_comm, List.drop_succ_cons, List.cons_append,
        ← hsplit]

/-! ## Addresses -/

/-- **An address reads back as itself.** -/
theorem parse?_chars (a : Ipv6) : parse? a.chars = some a := by
  have hlength := a.length_eq
  obtain ⟨⟨place, run⟩, hlongest⟩ : ∃ r, longestRun 0 a.groups = r := ⟨_, rfl⟩
  unfold chars
  rw [hlongest]
  dsimp only
  split
  · rename_i hrun
    obtain ⟨-, hsplit⟩ := split_longestRun hlongest (by omega)
    rw [Nat.sub_zero] at hsplit
    have hcut : cutDouble (joined (a.groups.take place) ++ [':', ':'] ++
        joined (a.groups.drop (place + run))) =
          some (joined (a.groups.take place), joined (a.groups.drop (place + run))) := by
      rw [List.append_assoc, cutDouble_joined]
      show Option.map _ (some ([], _)) = _
      rw [Option.map_some, List.append_nil]
      rfl
    have hcount := congrArg List.length hsplit
    rw [List.length_append, List.length_append, List.length_replicate] at hcount
    rw [parse?, hcut]
    dsimp only
    rw [side?_joined, side?_joined]
    show (if _ ≤ 7 then _ else _) = _
    rw [if_pos (by omega), show 8 - _ = run by omega, List.append_assoc, ← hsplit,
      ofGroups_groups]
  · obtain ⟨g, gs, hgs⟩ := List.exists_cons_of_length_pos (show 0 < a.groups.length by omega)
    have hcut : cutDouble (joined a.groups) = none := by
      have := cutDouble_joined a.groups []
      rwa [List.append_nil] at this
    rw [parse?, hcut]
    dsimp only
    rw [hgs, pieces_joined, groups?_words, ← hgs]
    exact ofGroups_groups a

/-- An address is written with colons and digits. -/
theorem of_mem_chars {a : Ipv6} {c : Char} (hc : c ∈ a.chars) :
    c = ':' ∨ ∃ x, Text.hexValue? c = some x := by
  unfold chars at hc
  dsimp only at hc
  split at hc
  · rw [List.mem_append, List.mem_append] at hc
    rcases hc with (hc | hc) | hc
    · exact of_mem_joined hc
    · simp only [List.mem_cons, List.not_mem_nil, or_false, or_self] at hc
      exact .inl hc
    · exact of_mem_joined hc
  · exact of_mem_joined hc

end Url.Ipv6

end LogShipper
