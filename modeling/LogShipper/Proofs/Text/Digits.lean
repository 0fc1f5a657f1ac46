import LogShipper.Text.Digits

/-!
# Numbers read back as themselves

Results:
* `mapM_toDigits`: the digits of a number have it as their value, in any base.
* `digits?_toDigits`: a number in base ten reads back as itself.
* `head?_toDigits`: no number but zero is written with a leading zero.
* `unsigned?_eq_some_iff`: which texts are read as a number within a bound.
-/

namespace LogShipper.Text

/-- The digits of a number have it as their value. The induction is on the number without its last
digit. -/
theorem mapM_toDigits {base : Nat} (hbase : 1 < base) {value? : Char → Option Nat}
    (hdigit : ∀ d < base, value? (Nat.digitChar d) = some d) (n : Nat) :
    ∃ ds, (Nat.toDigits base n).mapM value? = some ds ∧
      ds.foldl (fun n d => n * base + d) 0 = n := by
  induction n using Nat.strongRecOn with
  | ind n ih =>
    by_cases hn : n < base
    · refine ⟨[n], ?_, by simp⟩
      rw [Nat.toDigits_of_lt_base hn]
      simp [hdigit n hn]
    · have hpos : 0 < base := by omega
      obtain ⟨ds, hds, hvalue⟩ := ih (n / base) (Nat.div_lt_self (by omega) hbase)
      refine ⟨ds ++ [n % base], ?_, ?_⟩
      · rw [Nat.toDigits_of_base_le hbase (by omega), List.mapM_append]
        simp [hds, hdigit (n % base) (Nat.mod_lt n hpos)]
      · rw [List.foldl_append, hvalue]
        exact Nat.div_add_mod' n base

theorem hexValue?_digitChar {d : Nat} (h : d < 16) : hexValue? (Nat.digitChar d) = some d := by
  have all : ∀ d : Fin 16, hexValue? (Nat.digitChar d) = some d.val := by decide
  exact all ⟨d, h⟩

/-- In a base of sixteen at most each character that a number is written with has a value. -/
theorem hexValue?_of_mem_toDigits {base n : Nat} (hbase : 1 < base) (hle : base ≤ 16) {c : Char}
    (hc : c ∈ Nat.toDigits base n) : ∃ d, hexValue? c = some d := by
  induction n using Nat.strongRecOn with
  | ind n ih =>
    by_cases hn : n < base
    · rw [Nat.toDigits_of_lt_base hn, List.mem_singleton] at hc
      exact ⟨n, hc ▸ hexValue?_digitChar (by omega)⟩
    · have hmod : n % base < base := Nat.mod_lt n (by omega)
      rw [Nat.toDigits_of_base_le hbase (by omega), List.mem_append, List.mem_singleton] at hc
      rcases hc with hc | hc
      · exact ih (n / base) (Nat.div_lt_self (by omega) hbase) hc
      · exact ⟨n % base, hc ▸ hexValue?_digitChar (by omega)⟩

/-- Such a character is none of those without a value. -/
theorem not_mem_hexText {n : Nat} {c : Char} (h : hexValue? c = none) : c ∉ hexText n := by
  intro hc
  obtain ⟨d, hd⟩ := hexValue?_of_mem_toDigits (by omega) (by omega) hc
  cases h.symm.trans hd

theorem digit?_digitChar {d : Nat} (h : d < 10) : digit? (Nat.digitChar d) = some d := by
  have all : ∀ d : Fin 10, digit? (Nat.digitChar d) = some d.val := by decide
  exact all ⟨d, h⟩

/-- A number reads back as itself. -/
theorem digits?_toDigits (n : Nat) : digits? (Nat.toDigits 10 n) = some n := by
  obtain ⟨ds, hds, hvalue⟩ := mapM_toDigits (by omega) (fun _ => digit?_digitChar) n
  have hne : Nat.toDigits 10 n ≠ [] := List.length_pos_iff.mp Nat.length_toDigits_pos
  rw [digits?.eq_2 _ hne, hds, Option.map_some, hvalue]

/-- No number but zero is written with a leading zero. The induction is on the number without its
last digit. -/
theorem head?_toDigits {n : Nat} (hn : 0 < n) : (Nat.toDigits 10 n).head? ≠ some '0' := by
  induction n using Nat.strongRecOn with
  | ind n ih =>
    by_cases hlt : n < 10
    · have all : ∀ d : Fin 10, 0 < d.val → Nat.digitChar d ≠ '0' := by decide
      rw [Nat.toDigits_of_lt_base hlt]
      exact fun h => all ⟨n, hlt⟩ hn (Option.some.inj h)
    · have more := ih (n / 10) (Nat.div_lt_self hn (by omega)) (by omega)
      obtain ⟨c, cs, hc⟩ := List.exists_cons_of_ne_nil
        (List.length_pos_iff.mp (Nat.length_toDigits_pos (b := 10) (n := n / 10)))
      rw [Nat.toDigits_of_base_le (by omega) (by omega), hc]
      rwa [hc] at more

/-- Characters that all have a value are the ones whose values are collected. -/
theorem filterMap_of_mapM {α β : Type} {f : α → Option β} {cs : List α} {ds : List β}
    (h : cs.mapM f = some ds) : cs.filterMap f = ds ∧ ∀ c ∈ cs, (f c).isSome = true := by
  induction cs generalizing ds with
  | nil =>
    cases h
    exact ⟨rfl, fun c hc => absurd hc List.not_mem_nil⟩
  | cons c cs ih =>
    rw [List.mapM_cons] at h
    cases hc : f c with
    | none =>
      rw [hc] at h
      cases h
    | some d =>
      cases hcs : cs.mapM f with
      | none =>
        rw [hc, hcs] at h
        cases h
      | some es =>
        rw [hc, hcs] at h
        cases h
        obtain ⟨hvalues, hall⟩ := ih hcs
        refine ⟨by rw [List.filterMap_cons_some hc, hvalues], ?_⟩
        simpa [hc] using hall

/-! ## Texts that stand for a number -/

/-- What a text says that stands for an unsigned number: its digits in base ten, perhaps with zeros
before them, after at most one plus sign. -/
def StandsFor (s : String) (n : Nat) : Prop :=
  ∃ sign zeros, (sign = [] ∨ sign = ['+']) ∧
    s.toList = sign ++ List.replicate zeros '0' ++ Nat.toDigits 10 n

theorem digit?_eq_some {c : Char} {d : Nat} (h : digit? c = some d) :
    d < 10 ∧ c = Nat.digitChar d := by
  unfold digit? at h
  split at h
  · rename_i hc
    obtain ⟨hlow, hhigh⟩ : 48 ≤ c.toNat ∧ c.toNat ≤ 57 := hc
    cases h
    refine ⟨by omega, Char.toNat_inj.mp ?_⟩
    rw [Nat.toNat_digitChar_of_lt_ten (by omega)]
    omega
  · cases h

/-- Zeros before the digits of a number change nothing. -/
theorem digits?_replicate_append (zeros n : Nat) :
    digits? (List.replicate zeros '0' ++ Nat.toDigits 10 n) = some n := by
  induction zeros with
  | zero => exact digits?_toDigits n
  | succ zeros ih =>
    have hne : List.replicate zeros '0' ++ Nat.toDigits 10 n ≠ [] :=
      List.append_ne_nil_of_right_ne_nil _ (List.length_pos_iff.mp Nat.length_toDigits_pos)
    rw [digits?.eq_2 _ hne] at ih
    obtain ⟨ds, hds, hvalue⟩ := Option.map_eq_some_iff.mp ih
    rw [List.replicate_succ, List.cons_append, digits?.eq_2 _ (List.cons_ne_nil _ _),
      List.mapM_cons, hds, show digit? '0' = some 0 from rfl]
    exact congrArg some hvalue

/-- Digits behind a number that is not zero are the last digits of what they make of it. -/
theorem toDigits_foldl {cs : List Char} {ds : List Nat} (h : cs.mapM digit? = some ds) {n : Nat}
    (hn : 0 < n) : Nat.toDigits 10 (ds.foldl (fun n d => n * 10 + d) n) =
      Nat.toDigits 10 n ++ cs := by
  induction cs generalizing ds n with
  | nil =>
    cases h
    exact (List.append_nil _).symm
  | cons c cs ih =>
    rw [List.mapM_cons] at h
    obtain ⟨d, hd, h⟩ := Option.bind_eq_some_iff.mp h
    obtain ⟨ds', hds, h⟩ := Option.bind_eq_some_iff.mp h
    cases h
    obtain ⟨hlt, rfl⟩ := digit?_eq_some hd
    have step : Nat.toDigits 10 (n * 10 + d) = Nat.toDigits 10 n ++ [Nat.digitChar d] := by
      rw [Nat.toDigits_of_base_le (by omega) (by omega)]
      congr 3 <;> omega
    rw [List.foldl_cons, ih hds (by omega), step, List.append_assoc]
    rfl

/-- Digits that are read are those of a number, with zeros before them. The induction takes off the
zeros. -/
theorem exists_replicate_of_digits? {cs : List Char} {n : Nat} (h : digits? cs = some n) :
    ∃ zeros, cs = List.replicate zeros '0' ++ Nat.toDigits 10 n := by
  induction cs with
  | nil => cases h
  | cons c cs ih =>
    rw [digits?.eq_2 _ (List.cons_ne_nil _ _), List.mapM_cons] at h
    obtain ⟨all, hall, rfl⟩ := Option.map_eq_some_iff.mp h
    obtain ⟨d, hd, hall⟩ := Option.bind_eq_some_iff.mp hall
    obtain ⟨ds, hds, hall⟩ := Option.bind_eq_some_iff.mp hall
    cases hall
    obtain ⟨hlt, rfl⟩ := digit?_eq_some hd
    rw [List.foldl_cons, Nat.zero_mul, Nat.zero_add]
    rcases Nat.eq_zero_or_pos d with rfl | hpos
    · cases hcs : cs with
      | nil =>
        subst hcs
        cases hds
        exact ⟨0, rfl⟩
      | cons c' cs' =>
        have rest : digits? cs = some (ds.foldl (fun n d => n * 10 + d) 0) := by
          rw [digits?.eq_2 _ (by simp [hcs]), hds]
          rfl
        obtain ⟨zeros, hzeros⟩ := ih rest
        exact ⟨zeros + 1, congrArg ('0' :: ·) (hcs ▸ hzeros)⟩
    · refine ⟨0, ?_⟩
      rw [toDigits_foldl hds hpos, Nat.toDigits_of_lt_base hlt]
      rfl

theorem unsigned?_plus {bound : Nat} {s : String} {cs : List Char} (h : s.toList = '+' :: cs) :
    unsigned? bound s = (digits? cs).filter (· ≤ bound) := by
  simp only [unsigned?, h]
  cases digits? cs <;> simp [Option.filter]

theorem unsigned?_plain {bound : Nat} {s : String} (h : ∀ cs, s.toList ≠ '+' :: cs) :
    unsigned? bound s = (digits? s.toList).filter (· ≤ bound) := by
  unfold unsigned?
  split
  · rename_i cs hs
    exact absurd hs (h cs)
  · cases hd : digits? s.toList <;> simp [Option.filter, hd]

/-- A text is read as the number that it stands for, if that is within the bound, and no other text
is read. -/
theorem unsigned?_eq_some_iff {bound n : Nat} {s : String} :
    unsigned? bound s = some n ↔ n ≤ bound ∧ StandsFor s n := by
  by_cases hplus : ∃ cs, s.toList = '+' :: cs
  · obtain ⟨cs, hs⟩ := hplus
    rw [unsigned?_plus hs, Option.filter_eq_some_iff, decide_eq_true_iff, and_comm]
    refine and_congr_right fun _ => ⟨fun h => ?_, ?_⟩
    · obtain ⟨zeros, rfl⟩ := exists_replicate_of_digits? h
      exact ⟨['+'], zeros, .inr rfl, hs⟩
    · rintro ⟨sign, zeros, rfl | rfl, hdigits⟩
      · have hread := digits?_replicate_append zeros n
        rw [← List.nil_append (List.replicate _ _), ← hdigits, hs] at hread
        cases hread
      · rw [hs] at hdigits
        cases hdigits
        exact digits?_replicate_append zeros n
  · rw [unsigned?_plain (not_exists.mp hplus), Option.filter_eq_some_iff, decide_eq_true_iff,
      and_comm]
    refine and_congr_right fun _ => ⟨fun h => ?_, ?_⟩
    · obtain ⟨zeros, hzeros⟩ := exists_replicate_of_digits? h
      exact ⟨[], zeros, .inl rfl, hzeros⟩
    · rintro ⟨sign, zeros, rfl | rfl, hdigits⟩
      · rw [hdigits]
        exact digits?_replicate_append zeros n
      · exact absurd ⟨_, hdigits⟩ hplus

end LogShipper.Text
