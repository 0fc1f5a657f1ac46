import LogShipper.Proofs.Json.Script

/-!
# The tokens of a document

The text of a document is cut into the tokens of the document, whatever white space stands between
them. `Lexes` says that the front of a text is cut into tokens, without the fuel that `lex` runs on.

A number ends only where the next character cannot go on with it (`EndsNumber`). All that may follow
a value in a document is of that kind.

Results:
* `scanText_inside`: the pieces of a text, up to the closing quote.
* `Figure.scanNumber_eq`: a number, up to what follows it.
* `lexes_leaf`: a value without parts.
* `Script.lexes`: a document.
* `Script.lex_chars`: the text of a document.
-/

namespace LogShipper.Json

/-! ## Cutting off tokens -/

/-- The front of a text is cut into tokens; the rest is left. -/
inductive Lexes : List Char → List Token → List Char → Prop where
  | done (cs : List Char) : Lexes cs [] cs
  | space {c : Char} {cs rest : List Char} {ts : List Token} (hc : isSpace c = true)
      (h : Lexes cs ts rest) : Lexes (c :: cs) ts rest
  | token {c : Char} {cs mid rest : List Char} {t : Token} {ts : List Token}
      (hc : isSpace c = false) (ht : Token.scan? c cs = some (t, some mid))
      (hle : mid.length ≤ cs.length) (h : Lexes mid ts rest) : Lexes (c :: cs) (t :: ts) rest

namespace Lexes

variable {cs mid rest : List Char} {ts us : List Token}

theorem trans (h : Lexes cs ts mid) (h' : Lexes mid us rest) : Lexes cs (ts ++ us) rest := by
  induction h with
  | done _ => exact h'
  | space hc _ ih => exact .space hc (ih h')
  | token hc ht hle _ ih => exact .token hc ht hle (ih h')

/-- One token. -/
theorem one (c : Char) (cs : List Char) {rest : List Char} {t : Token} (hc : isSpace c = false)
    (ht : Token.scan? c (cs ++ rest) = some (t, some rest)) :
    Lexes (c :: (cs ++ rest)) [t] rest := by
  refine .token hc ht ?_ (.done rest)
  rw [List.length_append]
  exact Nat.le_add_left _ _

/-- White space. -/
theorem gap (g : Gap) (h : Lexes cs ts rest) : Lexes (g.chars ++ cs) ts rest := by
  obtain ⟨chars, blank⟩ := g
  induction chars with
  | nil => exact h
  | cons c chars ih =>
    exact .space (blank c List.mem_cons_self) (ih fun d hd => blank d (List.mem_cons_of_mem c hd))

/-- With enough fuel a text is cut as it can be. -/
theorem lexFuel_eq (h : Lexes cs ts rest) {fuel : Nat} (hfuel : cs.length ≤ fuel) :
    ∃ left, rest.length ≤ left ∧ (lexFuel fuel cs).tokens = ts ++ (lexFuel left rest).tokens ∧
      (lexFuel fuel cs).ending = (lexFuel left rest).ending := by
  induction h generalizing fuel with
  | done cs => exact ⟨fuel, hfuel, rfl, rfl⟩
  | @space c cs rest ts hc _ ih =>
    rw [List.length_cons] at hfuel
    obtain ⟨fuel, rfl⟩ : ∃ n, fuel = n + 1 := ⟨fuel - 1, by omega⟩
    rw [lexFuel, if_pos hc]
    exact ih (by omega)
  | @token c cs mid rest t ts hc ht hle _ ih =>
    rw [List.length_cons] at hfuel
    obtain ⟨fuel, rfl⟩ : ∃ n, fuel = n + 1 := ⟨fuel - 1, by omega⟩
    have enough : mid.length ≤ fuel := by omega
    obtain ⟨left, hleft, htokens, hending⟩ := ih enough
    rw [lexFuel, if_neg (by rw [hc]; exact Bool.false_ne_true), ht]
    exact ⟨left, hleft, congrArg (t :: ·) htokens, hending⟩

/-- A text that is cut to its end. -/
theorem lex_eq (h : Lexes cs ts []) : lex cs = ⟨ts, .truncated⟩ := by
  obtain ⟨left, -, htokens, hending⟩ := h.lexFuel_eq (Nat.le_refl cs.length)
  have none : lexFuel left [] = ⟨[], .truncated⟩ := by cases left <;> rfl
  rw [none, List.append_nil] at htokens
  rw [none] at hending
  have ending : (lexFuel cs.length cs).ending = .truncated := hending
  unfold lex
  rw [← htokens, ← ending]

end Lexes

/-! ## Texts -/

section Texts

variable {c : Char} {cs : List Char}

theorem scanText_quote : scanText ('"' :: cs) = ⟨.ok cs, .ok []⟩ := by rw [scanText]

theorem scanText_plain (hq : c ≠ '"') (hb : c ≠ '\\') (hv : 0x20 ≤ c.toNat) :
    scanText (c :: cs) = (scanText cs).cons c := by
  rw [scanText.eq_6 _ _ hq (fun h _ => hb h) (fun _ _ _ _ _ h _ => hb h) fun _ _ h _ => hb h]
  exact if_neg (Nat.not_lt.mpr hv)

theorem ne_of_shortEscape? {sign : Char} (h : shortEscape? sign = some c) : sign ≠ 'u' := by
  rintro rfl
  cases h

theorem scanText_short {sign : Char} (h : shortEscape? sign = some c) :
    scanText ('\\' :: sign :: cs) = (scanText cs).cons c := by
  have hu := ne_of_shortEscape? h
  rw [scanText.eq_5 _ _ (fun _ _ _ _ _ he _ => hu he), if_neg hu, h]

variable {a b d : Char} {n : Nat} (h : hexQuad? a b c d = some n)
include h

/-- A code, and what comes after it. -/
theorem scanText_unicode :
    scanText ('\\' :: 'u' :: a :: b :: c :: d :: cs) =
      if isLowSurrogate n then (scanText cs).spoil .malformed
      else if isHighSurrogate n then
        match cs with
        | '\\' :: 'u' :: e :: f :: g :: i :: ds =>
          match hexQuad? e f g i with
          | none => .stop .malformed
          | some m =>
            if isLowSurrogate m then (scanText ds).cons (ofSurrogates n m)
            else (scanText ('\\' :: 'u' :: e :: f :: g :: i :: ds)).spoil .malformed
        | cs => (scanText cs).spoil (pairFault cs)
      else (scanText cs).cons (Char.ofNat n) := by
  have scanned := scanText.eq_4 a b c d cs
  rw [h] at scanned
  exact scanned

/-- The code of a character. -/
theorem scanText_unit (hlow : isLowSurrogate n = false) (hhigh : isHighSurrogate n = false) :
    scanText ('\\' :: 'u' :: a :: b :: c :: d :: cs) = (scanText cs).cons (Char.ofNat n) := by
  rw [scanText_unicode h]
  simp only [hlow, hhigh, Bool.false_eq_true, if_false]

/-- The second half of a surrogate pair with no first half. -/
theorem scanText_low (hlow : isLowSurrogate n = true) :
    scanText ('\\' :: 'u' :: a :: b :: c :: d :: cs) = (scanText cs).spoil .malformed := by
  rw [scanText_unicode h]
  simp only [hlow, if_true]

/-- A surrogate pair. -/
theorem scanText_pair {e f g i : Char} {m : Nat} (h' : hexQuad? e f g i = some m)
    (hlow : isLowSurrogate n = false) (hhigh : isHighSurrogate n = true)
    (hpair : isLowSurrogate m = true) :
    scanText ('\\' :: 'u' :: a :: b :: c :: d :: '\\' :: 'u' :: e :: f :: g :: i :: cs) =
      (scanText cs).cons (ofSurrogates n m) := by
  rw [scanText_unicode h]
  simp only [h', hlow, hhigh, hpair, Bool.false_eq_true, if_false, if_true]

/-- The first half of a surrogate pair with a code after it that is no second half. -/
theorem scanText_unpaired {e f g i : Char} {m : Nat} (h' : hexQuad? e f g i = some m)
    (hlow : isLowSurrogate n = false) (hhigh : isHighSurrogate n = true)
    (hpair : isLowSurrogate m = false) :
    scanText ('\\' :: 'u' :: a :: b :: c :: d :: '\\' :: 'u' :: e :: f :: g :: i :: cs) =
      (scanText ('\\' :: 'u' :: e :: f :: g :: i :: cs)).spoil .malformed := by
  rw [scanText_unicode h]
  simp only [h', hlow, hhigh, hpair, Bool.false_eq_true, if_false, if_true]

/-- The first half of a surrogate pair with no code after it. -/
theorem scanText_alone (hlow : isLowSurrogate n = false) (hhigh : isHighSurrogate n = true)
    (hcode : ∀ ds, cs ≠ '\\' :: 'u' :: ds) (hfault : pairFault cs = .malformed) :
    scanText ('\\' :: 'u' :: a :: b :: c :: d :: cs) = (scanText cs).spoil .malformed := by
  rw [scanText_unicode h]
  simp only [hlow, hhigh, Bool.false_eq_true, if_false, if_true]
  split
  · exact absurd rfl (hcode _)
  · rw [hfault]

end Texts

/-- The characters of pieces, up to the closing quote and beyond. -/
def inside (pieces : List Piece) (rest : List Char) : List Char :=
  pieces.flatMap Piece.chars ++ '"' :: rest

theorem inside_cons (p : Piece) (ps : List Piece) (rest : List Char) :
    inside (p :: ps) rest = p.chars ++ inside ps rest := by
  rw [inside, List.flatMap_cons, List.append_assoc]
  rfl

/-- Where no code stands there is no second half of a surrogate pair. -/
theorem pairFault_inside {ps : List Piece} (rest : List Char)
    (h : ∀ a b c d n hn qs, ps ≠ .code a b c d n hn :: qs) :
    (∀ ds, inside ps rest ≠ '\\' :: 'u' :: ds) ∧ pairFault (inside ps rest) = .malformed := by
  match ps with
  | [] => exact ⟨fun ds hds => absurd (List.cons.inj hds).1 (by decide), rfl⟩
  | .plain c _ hb _ :: qs =>
    rw [inside_cons]
    refine ⟨fun ds hds => hb (List.cons.inj hds).1, ?_⟩
    exact pairFault.eq_4 _ (List.cons_ne_nil _ _) (fun hc => hb (List.cons.inj hc).1)
      fun _ hc => hb (List.cons.inj hc).1
  | .short sign _ hs :: qs =>
    have hu := ne_of_shortEscape? hs
    rw [inside_cons]
    refine ⟨fun ds hds => hu (List.cons.inj (List.cons.inj hds).2).1, ?_⟩
    exact pairFault.eq_4 _ (List.cons_ne_nil _ _)
      (fun hc => List.cons_ne_nil _ _ (List.cons.inj hc).2)
      fun _ hc => hu (List.cons.inj (List.cons.inj hc).2).1
  | .code a b c d n hn :: qs => exact absurd rfl (h a b c d n hn qs)

/-- A code, and the pieces after it. If it is the first half of a surrogate pair the next piece
decides what it stands for. -/
theorem scanText_code {a b c d : Char} {n : Nat} (h : hexQuad? a b c d = some n)
    (ps : List Piece) (rest : List Char) (ih : ∀ qs : List Piece, qs.length ≤ ps.length →
      scanText (inside qs rest) = ⟨.ok rest, orMalformed (readPieces qs)⟩) :
    scanText ('\\' :: 'u' :: a :: b :: c :: d :: inside ps rest) =
      ⟨.ok rest, orMalformed (readPieces (.code a b c d n h :: ps))⟩ := by
  have more := ih ps (Nat.le_refl _)
  rw [readPieces.eq_def (_ :: ps)]
  cases hlow : isLowSurrogate n with
  | true =>
    rw [scanText_low h hlow, more]
    simp only [hlow, if_true]
    rfl
  | false =>
    simp only [hlow, Bool.false_eq_true, if_false]
    cases hhigh : isHighSurrogate n with
    | false =>
      rw [scanText_unit h hlow hhigh, more]
      exact congrArg (Scan.mk _) (orMalformed_map _ _)
    | true =>
      rw [if_pos rfl]
      split
      · rename_i e f g i m hm qs
        have after := ih qs (Nat.le_succ _)
        rw [inside_cons] at more ⊢
        cases hpair : isLowSurrogate m with
        | true =>
          refine (scanText_pair h hm hlow hhigh hpair).trans ?_
          show (scanText (inside qs rest)).cons _ = _
          rw [after]
          exact congrArg (Scan.mk _) (orMalformed_map _ _)
        | false =>
          refine (scanText_unpaired h hm hlow hhigh hpair).trans ?_
          exact congrArg (Scan.spoil .malformed) more
      · rename_i hcode
        obtain ⟨hnone, hfault⟩ := pairFault_inside rest hcode
        rw [scanText_alone h hlow hhigh hnone hfault, more]
        rfl

/-- **The pieces of a text**, up to the closing quote. The induction is on the number of pieces,
since a surrogate pair is made of two. -/
theorem scanText_inside (pieces : List Piece) (rest : List Char) :
    scanText (inside pieces rest) = ⟨.ok rest, orMalformed (readPieces pieces)⟩ := by
  induction hn : pieces.length using Nat.strongRecOn generalizing pieces with
  | ind n ih =>
    subst hn
    match pieces with
    | [] => exact scanText_quote
    | .plain c hq hb hv :: ps =>
      have more := ih ps.length (Nat.lt_succ_self _) ps rfl
      rw [inside_cons]
      show scanText (c :: inside ps rest) = _
      rw [scanText_plain hq hb hv, more]
      exact congrArg (Scan.mk _) (orMalformed_map _ _)
    | .short sign c h :: ps =>
      have more := ih ps.length (Nat.lt_succ_self _) ps rfl
      rw [inside_cons]
      show scanText ('\\' :: sign :: inside ps rest) = _
      rw [scanText_short h, more]
      exact congrArg (Scan.mk _) (orMalformed_map _ _)
    | .code a b c d n h :: ps =>
      rw [inside_cons]
      exact scanText_code h ps rest fun qs hle => ih qs.length (Nat.lt_succ_of_le hle) qs rfl

/-! ## Numbers -/

/-- The next character, if there is one, cannot go on with a number. -/
def EndsNumber (rest : List Char) : Prop :=
  ∀ c cs, rest = c :: cs → Text.digit? c = none ∧ c ≠ '.' ∧ c ≠ 'e' ∧ c ≠ 'E'

theorem endsNumber_nil : EndsNumber [] := fun _ _ h => absurd h.symm (List.cons_ne_nil _ _)

theorem endsNumber_cons {c : Char} (cs : List Char)
    (h : Text.digit? c = none ∧ c ≠ '.' ∧ c ≠ 'e' ∧ c ≠ 'E') : EndsNumber (c :: cs) := by
  intro d ds heq
  rw [← (List.cons.inj heq).1]
  exact h

/-- White space ends a number, and so does what follows it if there is none. -/
theorem endsNumber_gap (g : Gap) {rest : List Char} (h : EndsNumber rest) :
    EndsNumber (g.chars ++ rest) := by
  cases hg : g.chars with
  | nil => exact h
  | cons c cs =>
    have blank := g.blank c (by rw [hg]; exact List.mem_cons_self)
    refine endsNumber_cons _ ?_
    simp only [isSpace, Bool.or_eq_true, decide_eq_true_eq] at blank
    rcases blank with ((rfl | rfl) | rfl) | rfl <;> decide

/-- No digit comes next. -/
def NoDigit (rest : List Char) : Prop := ∀ c cs, rest = c :: cs → Text.digit? c = none

theorem noDigit_cons {c : Char} (cs : List Char) (h : Text.digit? c = none) :
    NoDigit (c :: cs) := by
  intro d ds heq
  rw [← (List.cons.inj heq).1]
  exact h

theorem EndsNumber.noDigit {rest : List Char} (h : EndsNumber rest) : NoDigit rest :=
  fun c cs heq => (h c cs heq).1

theorem scanDigits_of_noDigit {rest : List Char} (h : NoDigit rest) :
    scanDigits rest = ([], rest) := by
  cases rest with
  | nil => rfl
  | cons c cs => rw [scanDigits, h c cs rfl]

/-- Digits, up to what follows them. -/
theorem scanDigits_append {cs rest : List Char} (hcs : ∀ c ∈ cs, (Text.digit? c).isSome = true)
    (h : NoDigit rest) : scanDigits (cs ++ rest) = (cs.filterMap Text.digit?, rest) := by
  induction cs with
  | nil => exact scanDigits_of_noDigit h
  | cons c cs ih =>
    obtain ⟨d, hd⟩ := Option.isSome_iff_exists.mp (hcs c List.mem_cons_self)
    rw [List.cons_append, scanDigits, hd, ih fun e he => hcs e (List.mem_cons_of_mem c he),
      List.filterMap_cons_some hd]

namespace Digits

variable (ds : Digits)

theorem scanDigits_eq {rest : List Char} (h : NoDigit rest) :
    scanDigits (ds.chars ++ rest) = (ds.values, rest) := scanDigits_append ds.digit h

/-- The first digit, and the values of all. -/
theorem exists_cons : ∃ c cs d, ds.chars = c :: cs ∧ Text.digit? c = some d ∧
    ds.values = d :: cs.filterMap Text.digit? := by
  obtain ⟨c, cs, hc⟩ := List.exists_cons_of_ne_nil ds.ne_nil
  obtain ⟨d, hd⟩ := Option.isSome_iff_exists.mp (ds.digit c (by rw [hc]; exact List.mem_cons_self))
  refine ⟨c, cs, d, hc, hd, ?_⟩
  rw [values, hc, List.filterMap_cons_some hd]

theorem values_ne_nil : ds.values ≠ [] := by
  obtain ⟨_, _, _, _, _, hvalues⟩ := ds.exists_cons
  rw [hvalues]
  exact List.cons_ne_nil _ _

end Digits

/-- An exponent without a sign. -/
theorem scanExponent_unsigned {mark c : Char} {cs rest : List Char} {d : Nat} {ds : List Nat}
    (hmark : mark = 'e' ∨ mark = 'E') (hd : Text.digit? c = some d)
    (h : scanDigits (c :: cs) = (d :: ds, rest)) :
    scanExponent (mark :: c :: cs) = .ok (some (false, d :: ds), rest) := by
  have signless : ∀ r, c :: cs ≠ '+' :: r ∧ c :: cs ≠ '-' :: r := by
    intro r
    constructor <;> intro heq <;> rw [(List.cons.inj heq).1] at hd <;> cases hd
  unfold scanExponent
  simp only [if_pos hmark]
  split
  · rename_i heq
    split at heq
    · exact absurd ‹_› (signless _).1
    · exact absurd ‹_› (signless _).2
    · rw [h] at heq
      cases heq
  · rename_i heq
    split at heq
    · exact absurd ‹_› (signless _).1
    · exact absurd ‹_› (signless _).2
    · rw [h] at heq
      cases heq
      rfl

/-- An exponent, up to what follows it. -/
theorem scanExponent_chars (p : Power) {rest : List Char} (h : NoDigit rest) :
    scanExponent (p.chars ++ rest) = .ok (some p.parts, rest) := by
  obtain ⟨mark, mark_eq, sign, ds⟩ := p
  obtain ⟨c, cs, d, hc, hd, hvalues⟩ := ds.exists_cons
  have scanned := ds.scanDigits_eq h
  rw [Power.parts, hvalues]
  rw [hvalues] at scanned
  cases sign with
  | plus =>
    show scanExponent (mark :: '+' :: (ds.chars ++ rest)) = _
    unfold scanExponent
    simp only [if_pos mark_eq, scanned]
  | minus =>
    show scanExponent (mark :: '-' :: (ds.chars ++ rest)) = _
    unfold scanExponent
    simp only [if_pos mark_eq, scanned]
  | none =>
    show scanExponent (mark :: (ds.chars ++ rest)) = _
    rw [hc] at scanned ⊢
    exact scanExponent_unsigned mark_eq hd scanned

theorem scanExponent_of_endsNumber {rest : List Char} (h : EndsNumber rest) :
    scanExponent rest = .ok (none, rest) := by
  cases rest with
  | nil => rfl
  | cons c cs =>
    obtain ⟨-, -, he, hE⟩ := h c cs rfl
    exact if_neg fun hc => hc.elim he hE

theorem eq_zero_of_digit? {c : Char} (h : Text.digit? c = some 0) : c = '0' := by
  unfold Text.digit? at h
  split at h
  · rename_i hrange
    have low : '0'.toNat ≤ c.toNat := hrange.1
    have value : c.toNat - 48 = 0 := Option.some.inj h
    have zero : '0'.toNat = 48 := rfl
    exact Char.toNat_inj.mp (by omega)
  · cases h

namespace Figure

variable (f : Figure) {rest : List Char}

/-- A whole part of more than one digit does not begin with zero. -/
theorem values_ne (d : Nat) (ds : List Nat) : f.whole.values ≠ 0 :: d :: ds := by
  intro h
  obtain ⟨c, cs, e, hc, he, hvalues⟩ := f.whole.exists_cons
  rw [hvalues] at h
  obtain ⟨rfl, hrest⟩ := List.cons.inj h
  have zero : f.whole.chars = ['0'] := f.lead (by rw [hc, eq_zero_of_digit? he]; rfl)
  rw [(List.cons.inj (hc.symm.trans zero)).2] at hrest
  cases hrest

theorem noDigit_powerChars (h : EndsNumber rest) : NoDigit (f.powerChars ++ rest) := by
  unfold powerChars
  split
  · exact h.noDigit
  · rename_i p _
    refine noDigit_cons _ ?_
    rcases p.mark_eq with hm | hm <;> rw [hm] <;> rfl

theorem scanExponent_powerChars (h : EndsNumber rest) :
    scanExponent (f.powerChars ++ rest) = .ok (f.power.map Power.parts, rest) := by
  unfold powerChars
  split
  · rename_i hp
    rw [hp]
    exact scanExponent_of_endsNumber h
  · rename_i p hp
    rw [hp]
    exact scanExponent_chars p h.noDigit

/-- No point comes where the exponent may. -/
theorem powerChars_ne (h : EndsNumber rest) (cs : List Char) :
    f.powerChars ++ rest ≠ '.' :: cs := by
  unfold powerChars
  split
  · intro heq
    exact (h '.' cs heq).2.1 rfl
  · rename_i p _
    intro heq
    have mark : p.mark = '.' := (List.cons.inj heq).1
    rcases p.mark_eq with hm | hm <;> rw [hm] at mark <;> exact absurd mark (by decide)

theorem scanDigits_magnitude (h : EndsNumber rest) : scanDigits (f.magnitude ++ rest) =
    (f.whole.values, f.fractionChars ++ (f.powerChars ++ rest)) := by
  have parts : f.magnitude ++ rest =
      f.whole.chars ++ (f.fractionChars ++ (f.powerChars ++ rest)) := by
    simp only [magnitude, List.append_assoc]
  rw [parts]
  refine f.whole.scanDigits_eq ?_
  unfold fractionChars
  split
  · exact f.noDigit_powerChars h
  · exact noDigit_cons _ rfl

end Figure

/-- A number without a fraction. -/
theorem scanNumber_whole {negative : Bool} {cs r rest : List Char} {ds : List Nat}
    {power : Option (Bool × List Nat)} (hne : ds ≠ []) (hlead : ∀ e es, ds ≠ 0 :: e :: es)
    (hr : ∀ cs, r ≠ '.' :: cs) (hwhole : scanDigits cs = (ds, r))
    (hpower : scanExponent r = .ok (power, rest)) :
    scanNumber negative cs = .ok (⟨negative, ds, [], power, false⟩, rest) := by
  unfold scanNumber
  rw [hwhole]
  split
  · rename_i heq
    exact absurd (Prod.mk.inj heq).1 hne
  · rename_i heq
    exact absurd (Prod.mk.inj heq).1 (hlead _ _)
  · rename_i heq
    exact absurd (Prod.mk.inj heq).2 (hr _)
  · rename_i heq
    obtain ⟨rfl, rfl⟩ := Prod.mk.inj heq
    rw [hpower]
    rfl

/-- A number with a fraction. -/
theorem scanNumber_pointed {negative : Bool} {cs r r' rest : List Char} {ds es : List Nat}
    {power : Option (Bool × List Nat)} (hne : ds ≠ []) (hlead : ∀ e es, ds ≠ 0 :: e :: es)
    (hes : es ≠ []) (hwhole : scanDigits cs = (ds, '.' :: r)) (hfraction : scanDigits r = (es, r'))
    (hpower : scanExponent r' = .ok (power, rest)) :
    scanNumber negative cs = .ok (⟨negative, ds, es, power, true⟩, rest) := by
  unfold scanNumber
  rw [hwhole]
  split
  · rename_i heq
    exact absurd (Prod.mk.inj heq).1 hne
  · rename_i heq
    exact absurd (Prod.mk.inj heq).1 (hlead _ _)
  · rename_i heq
    obtain ⟨rfl, hpoint⟩ := Prod.mk.inj heq
    obtain rfl := (List.cons.inj hpoint).2
    rw [hfraction]
    split
    · rename_i heq
      exact absurd (Prod.mk.inj heq).1 hes
    · rename_i heq
      obtain ⟨rfl, rfl⟩ := Prod.mk.inj heq
      rw [hpower]
      rfl
  · rename_i hno heq
    obtain ⟨rfl, rfl⟩ := Prod.mk.inj heq
    exact absurd rfl (hno _)

/-- **A number**, up to what follows it. -/
theorem Figure.scanNumber_eq (f : Figure) {rest : List Char} (h : EndsNumber rest) :
    scanNumber f.negative (f.magnitude ++ rest) = .ok (f.numeral, rest) := by
  have whole := f.scanDigits_magnitude h
  have power := f.scanExponent_powerChars h
  have ne_nil := f.whole.values_ne_nil
  unfold fractionChars at whole
  unfold numeral
  cases hf : f.fraction with
  | none =>
    rw [hf] at whole
    exact scanNumber_whole ne_nil f.values_ne (f.powerChars_ne h) whole power
  | some ds =>
    rw [hf] at whole
    exact scanNumber_pointed ne_nil f.values_ne ds.values_ne_nil whole
      (ds.scanDigits_eq (f.noDigit_powerChars h)) power

/-! ## Values without parts -/

theorem isSpace_digit {c : Char} (h : (Text.digit? c).isSome = true) : isSpace c = false := by
  rw [Bool.eq_false_iff]
  intro blank
  simp only [isSpace, Bool.or_eq_true, decide_eq_true_eq] at blank
  rcases blank with ((rfl | rfl) | rfl) | rfl <;> cases h

theorem scan?_minus {cs rest : List Char} {n : Numeral}
    (h : scanNumber true cs = .ok (n, rest)) :
    Token.scan? '-' cs = some (.atom ⟨false, none, orMalformed n.value?⟩, some rest) := by
  unfold Token.scan?
  simp only [h]
  cases n.value? <;> rfl

theorem scan?_digit {c : Char} (hc : (Text.digit? c).isSome = true) {cs rest : List Char}
    {n : Numeral} (h : scanNumber false (c :: cs) = .ok (n, rest)) :
    Token.scan? c cs = some (.atom ⟨false, none, orMalformed n.value?⟩, some rest) := by
  rw [Token.scan?.eq_12]
  · simp only [hc, h, if_true]
    cases n.value? <;> rfl
  -- No digit is one of the signs and letters that begin another token.
  all_goals
    rintro rfl
    cases hc

/-- A number is a token. -/
theorem lexes_figure (f : Figure) {rest : List Char} (h : EndsNumber rest) :
    Lexes (f.chars ++ rest) [.atom (Leaf.number f).lexeme] rest := by
  have scanned := f.scanNumber_eq h
  unfold Figure.chars
  cases hn : f.negative with
  | true =>
    rw [hn] at scanned
    exact .one _ _ rfl (scan?_minus scanned)
  | false =>
    obtain ⟨c, cs, d, hc, hd, -⟩ := f.whole.exists_cons
    have digit : (Text.digit? c).isSome = true := by rw [hd]; rfl
    have first : f.magnitude ++ rest = c :: ((cs ++ (f.fractionChars ++ f.powerChars)) ++ rest) := by
      rw [Figure.magnitude, hc]
      rfl
    rw [if_neg Bool.false_ne_true, first]
    rw [hn, first] at scanned
    exact .one _ _ (isSpace_digit digit) (scan?_digit digit scanned)

/-- A text is a token. -/
theorem lexes_text (pieces : List Piece) (rest : List Char) :
    Lexes ((Leaf.text pieces).chars ++ rest) [.atom (Leaf.text pieces).lexeme] rest := by
  have end_quote : (pieces.flatMap Piece.chars ++ ['"']) ++ rest = inside pieces rest :=
    List.append_assoc _ _ _
  refine .one '"' _ rfl ?_
  rw [end_quote]
  unfold Token.scan?
  simp only [scanText_inside, orMalformed_map]
  rfl

/-- **A value without parts** is a token. -/
theorem lexes_leaf (l : Leaf) {rest : List Char} (h : EndsNumber rest) :
    Lexes (l.chars ++ rest) [.atom l.lexeme] rest := by
  cases l with
  | null => exact .one 'n' ['u', 'l', 'l'] rfl rfl
  | bool b =>
    cases b with
    | true => exact .one 't' ['r', 'u', 'e'] rfl rfl
    | false => exact .one 'f' ['a', 'l', 's', 'e'] rfl rfl
  | number f => exact lexes_figure f h
  | text pieces => exact lexes_text pieces rest

/-! ## Documents -/

/-- The name of a member, up to what follows it. -/
theorem lexes_key (k : Key) {rest : List Char} {ts : List Token} {left : List Char}
    (h : Lexes rest ts left) : Lexes (k.chars ++ rest) (.atom k.lexeme :: ts) left := by
  have parts : k.chars ++ rest =
      k.before.chars ++ ((Leaf.text k.pieces).chars ++ (k.after.chars ++ rest)) := by
    simp only [Key.chars, List.append_assoc]
  rw [parts]
  exact .gap _ ((lexes_text k.pieces _).trans (.gap _ h))

/-- A sign that is a token. -/
theorem lexes_sign {c : Char} {t : Token} {rest : List Char} {ts : List Token} {left : List Char}
    (hc : isSpace c = false) (ht : Token.scan? c rest = some (t, some rest))
    (h : Lexes rest ts left) : Lexes (c :: rest) (t :: ts) left :=
  .token hc ht (Nat.le_refl _) h

namespace Script

/-- A comma and a closing bracket end a number. -/
theorem endsNumber_itemChars (items : List Script) (rest : List Char) :
    EndsNumber (itemChars items ++ rest) := by
  cases items <;> rw [itemChars] <;> exact endsNumber_cons _ (by decide)

/-- A comma and a closing brace end a number. -/
theorem endsNumber_memberChars (members : List (Key × Script)) (rest : List Char) :
    EndsNumber (memberChars members ++ rest) := by
  cases members <;> rw [memberChars] <;> exact endsNumber_cons _ (by decide)

mutual

/-- **A document** is cut into its tokens, whatever follows that cannot go on with a number. The
induction is on the document: behind an item or a member stands a comma, a bracket or a brace. -/
theorem lexes (d : Script) {rest : List Char} (h : EndsNumber rest) :
    Lexes (d.chars ++ rest) d.tokens rest := by
  match d with
  | .leaf before l after =>
    rw [chars, tokens]
    simp only [List.append_assoc]
    exact .gap _ ((lexes_leaf l (endsNumber_gap after h)).trans (.gap _ (.done rest)))
  | .array before gap [] after =>
    rw [chars, tokens]
    simp only [List.append_assoc, List.cons_append]
    exact .gap _ (lexes_sign rfl rfl (.gap _ (lexes_sign rfl rfl (.gap _ (.done rest)))))
  | .array before gap (d :: items) after =>
    rw [chars, tokens]
    simp only [List.append_assoc, List.cons_append]
    exact .gap _ (lexes_sign rfl rfl (.gap _ ((lexes d (endsNumber_itemChars items _)).trans
      (lexes_items items (.gap after (.done rest))))))
  | .object before gap [] after =>
    rw [chars, tokens]
    simp only [List.append_assoc, List.cons_append]
    exact .gap _ (lexes_sign rfl rfl (.gap _ (lexes_sign rfl rfl (.gap _ (.done rest)))))
  | .object before gap ((k, d) :: members) after =>
    rw [chars, tokens]
    simp only [List.append_assoc, List.cons_append]
    exact .gap _ (lexes_sign rfl rfl (.gap _ (lexes_key k (lexes_sign rfl rfl
      ((lexes d (endsNumber_memberChars members _)).trans
        (lexes_members members (.gap after (.done rest))))))))

/-- The items after the first one, with the closing bracket. -/
theorem lexes_items (items : List Script) {rest left : List Char} (h : Lexes rest [] left) :
    Lexes (itemChars items ++ rest) (itemTokens items) left := by
  match items with
  | [] =>
    rw [itemChars, itemTokens]
    exact lexes_sign rfl rfl h
  | d :: items =>
    rw [itemChars, itemTokens]
    simp only [List.append_assoc, List.cons_append]
    exact lexes_sign rfl rfl ((lexes d (endsNumber_itemChars items rest)).trans
      (lexes_items items h))

/-- The members after the first one, with the closing brace. -/
theorem lexes_members (members : List (Key × Script)) {rest left : List Char}
    (h : Lexes rest [] left) :
    Lexes (memberChars members ++ rest) (memberTokens members) left := by
  match members with
  | [] =>
    rw [memberChars, memberTokens]
    exact lexes_sign rfl rfl h
  | (k, d) :: members =>
    rw [memberChars, memberTokens]
    simp only [List.append_assoc, List.cons_append]
    exact lexes_sign rfl rfl (lexes_key k (lexes_sign rfl rfl
      ((lexes d (endsNumber_memberChars members rest)).trans (lexes_members members h))))

end

/-- **The text of a document** is cut into the tokens of the document. -/
theorem lex_chars (d : Script) : lex d.chars = ⟨d.tokens, .truncated⟩ := by
  have whole := d.lexes endsNumber_nil
  rw [List.append_nil] at whole
  exact whole.lex_eq

end Script

end LogShipper.Json
