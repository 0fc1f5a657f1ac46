import LogShipper.Endpoint

/-!
# What becomes of a password in a URL

A password is written with the reserved characters encoded, and a client decodes what is written
before it logs in. The percent sign is not reserved: where the password itself holds an escape, a
percent sign with two digits after it, the escape is written as it is, and the client decodes it.
So the client logs in with what the password would stand for if it were encoded already
(`decodeBytes_encode`), which is the password exactly where it holds no escape.

Covers `to_url`, and how a client reads the password.

Results:
* `SparesEscapes.of_mem_encode`: what encoding writes holds nothing of the set.
* `decodeBytes_encode`: decoding an encoded text is decoding the text itself.
* `decode?_eq_some_iff`: a text decodes to itself exactly where it holds no escape.
* `Endpoint.password_survives_iff`: a password survives exactly where it holds no escape.
* `Endpoint.password_altered`: one that does not.
-/

namespace LogShipper

namespace Text

theorem utf8Char_eq (c : Char) : utf8Char c = String.utf8EncodeChar c := by
  simp [utf8Char, utf8, List.utf8Encode_singleton]

theorem utf8Char_ne_nil (c : Char) : utf8Char c ≠ [] := by
  rw [utf8Char_eq, ← List.length_pos_iff, String.length_utf8EncodeChar]
  exact c.utf8Size_pos

/-- The bytes of a text are those of its characters in a row. -/
theorem utf8_eq_flatMap (s : String) : utf8 s = s.toList.flatMap utf8Char := by
  have chars : s.toList.flatMap utf8Char = s.toList.flatMap String.utf8EncodeChar :=
    congrArg (s.toList.flatMap ·) (funext utf8Char_eq)
  have bytes : s.toByteArray = s.toList.utf8Encode := by
    rw [← String.toByteArray_ofList, String.ofList_toList]
  rw [utf8, bytes, chars]
  simp [List.utf8Encode]

theorem utf8_of_ofUtf8? {bs : Bytes} {s : String} (h : ofUtf8? bs = some s) : bs = utf8 s := by
  unfold ofUtf8? String.fromUTF8? at h
  split at h
  · rw [← Option.some.inj h]
    rfl
  · cases h

end Text

namespace Url

/-! ## Escapes -/

/-- Whether a text begins with two digits in base sixteen. -/
def beginsWithDigits : List Char → Bool
  | a :: b :: _ => (Text.hexValue? a).isSome && (Text.hexValue? b).isSome
  | _ => false

/-- Whether a text holds an escape: a percent sign with two digits after it. -/
def holdsEscape : List Char → Bool
  | [] => false
  | c :: cs => c == '%' && beginsWithDigits cs || holdsEscape cs

theorem beginsWithDigits_iff {cs : List Char} : beginsWithDigits cs = true ↔
    ∃ a b x y rest, cs = a :: b :: rest ∧
      Text.hexValue? a = some x ∧ Text.hexValue? b = some y := by
  constructor
  · intro h
    match cs with
    | a :: b :: rest =>
      obtain ⟨ha, hb⟩ := Bool.and_eq_true_iff.mp h
      obtain ⟨x, hx⟩ := Option.isSome_iff_exists.mp ha
      obtain ⟨y, hy⟩ := Option.isSome_iff_exists.mp hb
      exact ⟨a, b, x, y, rest, rfl, hx, hy⟩
  · rintro ⟨a, b, x, y, rest, rfl, hx, hy⟩
    simp [beginsWithDigits, hx, hy]

/-- What an escape decodes to. -/
theorem decodeBytes_escape {a b : Char} {x y : Nat} (ha : Text.hexValue? a = some x)
    (hb : Text.hexValue? b = some y) (cs : List Char) :
    decodeBytes ('%' :: a :: b :: cs) = UInt8.ofNat (x * 16 + y) :: decodeBytes cs := by
  rw [decodeBytes, ha, hb]

/-- A percent sign without two digits after it stands for itself. -/
theorem decodeBytes_stray {cs : List Char} (h : beginsWithDigits cs = false) :
    decodeBytes ('%' :: cs) = Text.utf8Char '%' ++ decodeBytes cs := by
  match cs with
  | [] => rw [decodeBytes.eq_3 _ _ (by simp)]
  | [a] => rw [decodeBytes.eq_3 _ _ (by simp)]
  | a :: b :: cs =>
    rw [decodeBytes]
    split
    · rename_i x y hx hy
      simp [beginsWithDigits, hx, hy] at h
    · rfl

/-- A text is read from its front: escapes, percent signs that are none, other characters. -/
theorem induction_on_escapes {P : List Char → Prop} (cs : List Char) (nil : P [])
    (escape : ∀ a b x y cs, Text.hexValue? a = some x → Text.hexValue? b = some y → P cs →
      P ('%' :: a :: b :: cs))
    (stray : ∀ cs, beginsWithDigits cs = false → P cs → P ('%' :: cs))
    (plain : ∀ c cs, c ≠ '%' → P cs → P (c :: cs)) : P cs := by
  induction hn : cs.length using Nat.strongRecOn generalizing cs with
  | ind n ih =>
    match cs with
    | [] => exact nil
    | c :: cs =>
      have rest : P cs := ih cs.length (by simp [← hn]) cs rfl
      by_cases hc : c = '%'
      · subst hc
        cases hd : beginsWithDigits cs with
        | false => exact stray cs hd rest
        | true =>
          obtain ⟨a, b, x, y, cs, rfl, hx, hy⟩ := beginsWithDigits_iff.mp hd
          exact escape a b x y cs hx hy (ih cs.length (by simp [← hn]; omega) cs rfl)
      · exact plain c cs hc rest

/-! ## Decoding what encoding writes -/

theorem hexValue?_upperHexDigit {n : Nat} (h : n < 16) :
    Text.hexValue? (upperHexDigit n) = some n := by
  have all : ∀ n : Fin 16, Text.hexValue? (upperHexDigit n) = some n.val := by decide
  exact all ⟨n, h⟩

theorem decodeBytes_percentByte (b : UInt8) (cs : List Char) :
    decodeBytes (percentByte b ++ cs) = b :: decodeBytes cs := by
  have hb : b.toNat < 256 := b.toNat_lt
  have high : Text.hexValue? (upperHexDigit (b.toNat / 16)) = some (b.toNat / 16) :=
    hexValue?_upperHexDigit (by omega)
  have low : Text.hexValue? (upperHexDigit (b.toNat % 16)) = some (b.toNat % 16) :=
    hexValue?_upperHexDigit (by omega)
  have whole : b.toNat / 16 * 16 + b.toNat % 16 = b.toNat := by omega
  show decodeBytes ('%' :: _ :: _ :: cs) = _
  rw [decodeBytes_escape high low, whole, UInt8.ofNat_toNat]

theorem decodeBytes_percentBytes (bs : Bytes) (cs : List Char) :
    decodeBytes (bs.flatMap percentByte ++ cs) = bs ++ decodeBytes cs := by
  induction bs with
  | nil => rfl
  | cons b bs ih =>
    rw [List.flatMap_cons, List.append_assoc, decodeBytes_percentByte, ih]
    rfl

/-- The percent sign and digits are not in a set of characters to encode. -/
structure SparesEscapes (inSet : Char → Bool) : Prop where
  percent : inSet '%' = false
  digit : ∀ c x, Text.hexValue? c = some x → inSet c = false

/-- A digit in base sixteen is a digit or one of the first six letters. -/
theorem range_of_hexValue? {c : Char} {x : Nat} (h : Text.hexValue? c = some x) :
    ('0' ≤ c ∧ c ≤ '9') ∨ ('a' ≤ c ∧ c ≤ 'f') ∨ ('A' ≤ c ∧ c ≤ 'F') := by
  unfold Text.hexValue? at h
  split at h
  · exact .inl ‹_›
  · split at h
    · exact .inr (.inl ‹_›)
    · split at h
      · exact .inr (.inr ‹_›)
      · cases h

/-- Escapes in a password are written as they are. -/
theorem sparesEscapes_credential : SparesEscapes isCredentialReserved where
  percent := by decide
  digit c x h := by
    have range := range_of_hexValue? h
    simp only [Char.le_def, UInt32.le_iff_toNat_le, Char.toNat_val] at range
    rw [isCredentialReserved, Bool.or_eq_false_iff]
    constructor
    · simp only [isControl, Bool.or_eq_false_iff, decide_eq_false_iff_not]
      simp at range
      omega
    · rw [List.contains_eq_mem, decide_eq_false_iff_not]
      intro hc
      simp only [List.mem_cons, List.not_mem_nil, or_false] at hc
      rcases hc with rfl | rfl | rfl | rfl | rfl | rfl | rfl | rfl | rfl | rfl | rfl | rfl | rfl |
        rfl | rfl | rfl | rfl | rfl | rfl <;> simp at range

section Encoding

variable {inSet : Char → Bool}

theorem encode_of_not {cs : List Char} (h : ∀ c ∈ cs, inSet c = false) : encode inSet cs = cs := by
  induction cs with
  | nil => rfl
  | cons c cs ih =>
    rw [List.forall_mem_cons] at h
    rw [encode_cons, encodeChar_of_not h.1, ih h.2, List.singleton_append]

theorem encodeChar_ne_nil (c : Char) : encodeChar inSet c ≠ [] := by
  rw [encodeChar]
  split
  · cases hb : Text.utf8Char c with
    | nil => exact absurd hb (Text.utf8Char_ne_nil c)
    | cons b bs => exact List.cons_ne_nil _ _
  · exact List.cons_ne_nil _ _

theorem encode_eq_nil_iff {cs : List Char} : encode inSet cs = [] ↔ cs = [] := by
  cases cs with
  | nil => exact iff_of_true rfl rfl
  | cons c cs => simp [encode_cons, encodeChar_ne_nil]

theorem mem_encode_of_not {c : Char} {cs : List Char} (h : inSet c = false) (hc : c ∈ cs) :
    c ∈ encode inSet cs :=
  List.mem_flatMap.mpr ⟨c, hc, by simp [encodeChar_of_not h]⟩

/-- A character that encoding writes is one of the text, or part of an escape. -/
theorem of_mem_encode {c : Char} {cs : List Char} (hc : c ∈ encode inSet cs) :
    (c ∈ cs ∧ inSet c = false) ∨ c = '%' ∨ ∃ x, Text.hexValue? c = some x := by
  obtain ⟨d, hd, hcd⟩ := List.mem_flatMap.mp hc
  rw [encodeChar] at hcd
  split at hcd
  · obtain ⟨b, -, hcb⟩ := List.mem_flatMap.mp hcd
    have hb : b.toNat < 256 := b.toNat_lt
    simp only [percentByte, List.mem_cons, List.not_mem_nil, or_false] at hcb
    rcases hcb with rfl | rfl | rfl
    · exact .inr (.inl rfl)
    · exact .inr (.inr ⟨_, hexValue?_upperHexDigit (by omega)⟩)
    · exact .inr (.inr ⟨_, hexValue?_upperHexDigit (by omega)⟩)
  · rename_i hin
    obtain rfl := List.mem_singleton.mp hcd
    exact .inl ⟨hd, Bool.eq_false_iff.mpr hin⟩

/-- What encoding writes holds nothing of the set. -/
theorem SparesEscapes.of_mem_encode (hs : SparesEscapes inSet) {c : Char} {cs : List Char}
    (hc : c ∈ encode inSet cs) : inSet c = false := by
  rcases Url.of_mem_encode hc with ⟨-, h⟩ | rfl | ⟨x, hx⟩
  · exact h
  · exact hs.percent
  · exact hs.digit c x hx

/-- A smaller set spares what a larger one does. -/
theorem SparesEscapes.of_subset (hs : SparesEscapes inSet) {small : Char → Bool}
    (h : ∀ c, small c = true → inSet c = true) : SparesEscapes small where
  percent := Bool.eq_false_iff.mpr fun hc => Bool.eq_false_iff.mp hs.percent (h _ hc)
  digit c x hx := Bool.eq_false_iff.mpr fun hc => Bool.eq_false_iff.mp (hs.digit c x hx) (h c hc)

/-- A character that is no digit is written with something in front that is none. -/
theorem encode_cons_of_no_digit (inSet : Char → Bool) {c : Char}
    (h : Text.hexValue? c = none) (cs : List Char) :
    ∃ d rest, encode inSet (c :: cs) = d :: rest ∧ Text.hexValue? d = none := by
  rw [encode_cons, encodeChar]
  split
  · cases hb : Text.utf8Char c with
    | nil => exact absurd hb (Text.utf8Char_ne_nil c)
    | cons b bs => exact ⟨'%', _, rfl, by decide⟩
  · exact ⟨c, _, rfl, h⟩

/-- What encoding writes begins with two digits where the text does. -/
theorem beginsWithDigits_encode (hs : SparesEscapes inSet) (cs : List Char) :
    beginsWithDigits (encode inSet cs) = beginsWithDigits cs := by
  cases cs with
  | nil => rfl
  | cons a cs =>
    cases ha : Text.hexValue? a with
    | none =>
      obtain ⟨d, rest, hd, hnone⟩ := encode_cons_of_no_digit inSet ha cs
      rw [hd]
      cases rest <;> cases cs <;> simp [beginsWithDigits, ha, hnone]
    | some x =>
      rw [encode_cons, encodeChar_of_not (hs.digit a x ha), List.singleton_append]
      cases cs with
      | nil => rfl
      | cons b cs =>
        cases hb : Text.hexValue? b with
        | none =>
          obtain ⟨d, rest, hd, hnone⟩ := encode_cons_of_no_digit inSet hb cs
          rw [hd]
          simp [beginsWithDigits, hb, hnone]
        | some y =>
          rw [encode_cons, encodeChar_of_not (hs.digit b y hb)]
          rfl

/-- **Decoding an encoded text is decoding the text itself**, as long as escapes in it are written
as they are. -/
theorem decodeBytes_encode (hs : SparesEscapes inSet) (cs : List Char) :
    decodeBytes (encode inSet cs) = decodeBytes cs := by
  induction cs using induction_on_escapes with
  | nil => rfl
  | escape a b x y cs hx hy ih =>
    rw [encode_cons, encode_cons, encode_cons, encodeChar_of_not hs.percent,
      encodeChar_of_not (hs.digit a x hx), encodeChar_of_not (hs.digit b y hy)]
    show decodeBytes ('%' :: a :: b :: encode inSet cs) = _
    rw [decodeBytes_escape hx hy, decodeBytes_escape hx hy, ih]
  | stray cs hd ih =>
    rw [encode_cons, encodeChar_of_not hs.percent]
    show decodeBytes ('%' :: encode inSet cs) = _
    rw [decodeBytes_stray hd, decodeBytes_stray ((beginsWithDigits_encode hs cs).trans hd), ih]
  | plain c cs hc ih =>
    rw [encode_cons, decodeBytes_cons_of_ne hc, ← ih, encodeChar]
    split
    · exact decodeBytes_percentBytes _ _
    · exact decodeBytes_cons_of_ne hc _

end Encoding

/-! ## Texts that decode to themselves -/

/-- Decoding does not lengthen a text. -/
theorem length_decodeBytes_le (cs : List Char) :
    (decodeBytes cs).length ≤ (cs.flatMap Text.utf8Char).length := by
  induction cs using induction_on_escapes with
  | nil => simp [decodeBytes]
  | escape a b x y cs hx hy ih =>
    have := List.length_pos_iff.mpr (Text.utf8Char_ne_nil a)
    rw [decodeBytes_escape hx hy]
    simp only [List.flatMap_cons, List.length_append, List.length_cons]
    omega
  | stray cs hd ih =>
    rw [decodeBytes_stray hd]
    simp only [List.flatMap_cons, List.length_append]
    omega
  | plain c cs hc ih =>
    rw [decodeBytes_cons_of_ne hc]
    simp only [List.flatMap_cons, List.length_append]
    omega

/-- An escape is longer than what it decodes to. -/
theorem length_decodeBytes_lt {cs : List Char} (h : holdsEscape cs = true) :
    (decodeBytes cs).length < (cs.flatMap Text.utf8Char).length := by
  induction cs using induction_on_escapes with
  | nil => exact absurd h Bool.false_ne_true
  | escape a b x y cs hx hy ih =>
    have rest := length_decodeBytes_le cs
    have ha := List.length_pos_iff.mpr (Text.utf8Char_ne_nil a)
    have hb := List.length_pos_iff.mpr (Text.utf8Char_ne_nil b)
    rw [decodeBytes_escape hx hy]
    simp only [List.flatMap_cons, List.length_append, List.length_cons]
    omega
  | stray cs hd ih =>
    have := ih (by simpa [holdsEscape, hd] using h)
    rw [decodeBytes_stray hd]
    simp only [List.flatMap_cons, List.length_append]
    omega
  | plain c cs hc ih =>
    have := ih (by simpa [holdsEscape, hc] using h)
    rw [decodeBytes_cons_of_ne hc]
    simp only [List.flatMap_cons, List.length_append]
    omega

theorem decodeBytes_of_no_escape {cs : List Char} (h : holdsEscape cs = false) :
    decodeBytes cs = cs.flatMap Text.utf8Char := by
  induction cs using induction_on_escapes with
  | nil => rw [decodeBytes, List.flatMap_nil]
  | escape a b x y cs hx hy ih => simp [holdsEscape, beginsWithDigits, hx, hy] at h
  | stray cs hd ih =>
    rw [decodeBytes_stray hd, ih (by simpa [holdsEscape, hd] using h), List.flatMap_cons]
  | plain c cs hc ih =>
    rw [decodeBytes_cons_of_ne hc, ih (by simpa [holdsEscape, hc] using h), List.flatMap_cons]

theorem decodeBytes_eq_iff {cs : List Char} :
    decodeBytes cs = cs.flatMap Text.utf8Char ↔ holdsEscape cs = false := by
  refine ⟨fun h => ?_, decodeBytes_of_no_escape⟩
  refine Bool.eq_false_iff.mpr fun hesc => ?_
  have := length_decodeBytes_lt hesc
  rw [h] at this
  exact Nat.lt_irrefl _ this

/-- **A text decodes to itself exactly where it holds no escape.** -/
theorem decode?_eq_some_iff {s : String} :
    decode? s.toList = some s ↔ holdsEscape s.toList = false := by
  rw [← decodeBytes_eq_iff, ← Text.utf8_eq_flatMap, decode?]
  constructor
  · exact Text.utf8_of_ofUtf8?
  · intro h
    rw [h, Text.ofUtf8?_utf8]

end Url

/-! ## Passwords -/

namespace Endpoint

theorem urlPassword_eq {e : Endpoint} {p : String} (hp : e.password = some p) (hne : p ≠ "") :
    e.urlPassword = some (Url.encode Url.isCredentialReserved p.toList) := by
  unfold urlPassword
  rw [hp]
  exact if_neg (by simpa using hne)

/-- **The password that a client reads from the URL is the configured one exactly where that holds
no escape.** It is what the configured one would stand for if it were encoded already. -/
theorem password_survives_iff {e : Endpoint} {p : String} {a : Url.Address}
    (hp : e.password = some p) (hne : p ≠ "") (ha : e.address = .ok a) :
    ∃ written, a.password = some written ∧ Url.decode? written = Url.decode? p.toList ∧
      (Url.decode? written = some p ↔ Url.holdsEscape p.toList = false) := by
  have decoded : Url.decode? (Url.encode Url.isCredentialReserved p.toList) =
      Url.decode? p.toList := by
    rw [Url.decode?, Url.decodeBytes_encode Url.sparesEscapes_credential, Url.decode?]
  refine ⟨_, (password_of_address ha).trans (urlPassword_eq hp hne), decoded, ?_⟩
  rw [decoded]
  exact Url.decode?_eq_some_iff

/-- An endpoint whose password is full of percent signs, reserved characters and others outside
ASCII, but holds no escape. -/
def strayPercents : Endpoint where
  host := "localhost"
  password := some "100%/%4é%%g1@%"

/-- Percent signs that are no escapes survive. -/
theorem password_survives_stray :
    strayPercents.password = some "100%/%4é%%g1@%" ∧ ∃ a written, strayPercents.address = .ok a ∧
      a.password = some written ∧ Url.decode? written = some "100%/%4é%%g1@%" := by
  obtain ⟨a, ha⟩ : ∃ a, strayPercents.address = .ok a := ⟨_, rfl⟩
  obtain ⟨written, hw, -, hiff⟩ := password_survives_iff (p := "100%/%4é%%g1@%") rfl (by decide) ha
  exact ⟨rfl, a, written, ha, hw, hiff.mpr (by decide)⟩

/-- An endpoint whose password holds an escape. -/
def escapedPassword : Endpoint where
  host := "h"
  password := some "%41"

/-- **Not every password survives**: `%41` is written as it is, and read as `A`. -/
theorem password_altered :
    ¬ ∀ (e : Endpoint) (p : String) (a : Url.Address), e.password = some p → p ≠ "" →
      e.address = .ok a → a.password.bind Url.decode? = some p := by
  intro h
  obtain ⟨a, ha, hread⟩ : ∃ a, escapedPassword.address = .ok a ∧
      a.password.bind Url.decode? = some "A" := ⟨_, rfl, by decide +kernel⟩
  have same := hread.symm.trans (h escapedPassword "%41" a rfl (by decide) ha)
  exact absurd (Option.some.inj same) (by decide)

end Endpoint

end LogShipper
