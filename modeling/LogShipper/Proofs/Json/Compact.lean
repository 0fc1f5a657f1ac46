import LogShipper.Json.Value
import LogShipper.Proofs.Json.Script
import LogShipper.Proofs.Text.Digits
import Mathlib.Data.List.Forall2
import Mathlib.Tactic.SplitIfs

/-!
# Values as documents

A value is written as a document without white space, in which the characters of a text that need
an escape have the shortest one and an integer has no needless digits. Read back, a text stands for
itself and an integer for itself, if it fits in 64 bits with or without a sign.

Results:
* `exists_text`, `exists_int`, `exists_bool`, `exists_null`: values without parts.
* `exists_array`, `exists_object`: values with parts, given documents for the parts.
-/

namespace LogShipper.Json

/-! ## Texts -/

theorem hexValue?_hexDigit {n : Nat} (h : n < 16) : Text.hexValue? (Text.hexDigit n) = some n := by
  have all : ∀ n : Fin 16, Text.hexValue? (Text.hexDigit n) = some n.val := by decide
  exact all ⟨n, h⟩

/-- A character below the space, as four digits in base sixteen. -/
theorem hexQuad?_control {c : Char} (h : c.toNat < 0x20) :
    hexQuad? '0' '0' (Text.hexDigit (c.toNat / 16)) (Text.hexDigit (c.toNat % 16)) =
      some c.toNat := by
  have zero : Text.hexValue? '0' = some 0 := rfl
  rw [hexQuad?, zero, hexValue?_hexDigit (by omega), hexValue?_hexDigit (by omega)]
  exact congrArg some (by omega)

/-- A code that is no half of a surrogate pair. -/
theorem readPieces_code {a b c d : Char} {n : Nat} (h : hexQuad? a b c d = some n)
    (hlow : isLowSurrogate n = false) (hhigh : isHighSurrogate n = false) (ps : List Piece) :
    readPieces (.code a b c d n h :: ps) = (readPieces ps).map (Char.ofNat n :: ·) := by
  rw [readPieces.eq_def]
  simp only [hlow, hhigh, Bool.false_eq_true, if_false]

/-- A character as it is written stands for itself. -/
theorem exists_piece (c : Char) : ∃ p : Piece, p.chars = escapeChar c ∧
    ∀ ps, readPieces (p :: ps) = (readPieces ps).map (c :: ·) := by
  unfold escapeChar
  split_ifs with hquote hbackslash h1 h2 h3 h4 h5 hcontrol
  · exact ⟨.short '"' c (by rw [hquote]; rfl), rfl, fun _ => rfl⟩
  · exact ⟨.short '\\' c (by rw [hbackslash]; rfl), rfl, fun _ => rfl⟩
  · exact ⟨.short 'b' c (by rw [h1]; rfl), rfl, fun _ => rfl⟩
  · exact ⟨.short 'f' c (by rw [h2]; rfl), rfl, fun _ => rfl⟩
  · exact ⟨.short 'n' c (by rw [h3]; rfl), rfl, fun _ => rfl⟩
  · exact ⟨.short 'r' c (by rw [h4]; rfl), rfl, fun _ => rfl⟩
  · exact ⟨.short 't' c (by rw [h5]; rfl), rfl, fun _ => rfl⟩
  · refine ⟨.code _ _ _ _ c.toNat (hexQuad?_control hcontrol), rfl, fun ps => ?_⟩
    have hlow : isLowSurrogate c.toNat = false := by
      rw [isLowSurrogate, Bool.and_eq_false_iff, decide_eq_false_iff_not]
      exact .inl (by omega)
    have hhigh : isHighSurrogate c.toNat = false := by
      rw [isHighSurrogate, Bool.and_eq_false_iff, decide_eq_false_iff_not]
      exact .inl (by omega)
    rw [readPieces_code _ hlow hhigh, Char.ofNat_toNat]
  · exact ⟨.plain c hquote hbackslash (Nat.le_of_not_lt hcontrol), rfl, fun _ => rfl⟩

theorem exists_pieces (cs : List Char) : ∃ ps : List Piece,
    ps.flatMap Piece.chars = cs.flatMap escapeChar ∧ readPieces ps = some cs := by
  induction cs with
  | nil => exact ⟨[], rfl, rfl⟩
  | cons c cs ih =>
    obtain ⟨p, hp, hread⟩ := exists_piece c
    obtain ⟨ps, hps, hreads⟩ := ih
    refine ⟨p :: ps, ?_, ?_⟩
    · rw [List.flatMap_cons, List.flatMap_cons, hp, hps]
    · rw [hread, hreads]
      rfl

/-! ## Numbers -/

theorem le_foldl_digits (ds : List Nat) (n : Nat) : n ≤ ds.foldl (fun n d => n * 10 + d) n := by
  induction ds generalizing n with
  | nil => exact Nat.le_refl n
  | cons d ds ih =>
    have more := ih (n * 10 + d)
    rw [List.foldl_cons]
    omega

/-- Digits of a number within the bound are all added. -/
theorem accumulate_eq {bound : Nat} (ds : List Nat) (n used : Nat)
    (h : ds.foldl (fun n d => n * 10 + d) n ≤ bound) :
    accumulate bound n used ds = (ds.foldl (fun n d => n * 10 + d) n, used + ds.length) := by
  induction ds generalizing n used with
  | nil => rfl
  | cons d ds ih =>
    rw [List.foldl_cons] at h
    have fits : n * 10 + d ≤ bound := Nat.le_trans (le_foldl_digits ds _) h
    rw [accumulate, if_pos fits, ih _ _ h, List.foldl_cons, List.length_cons,
      Nat.add_assoc, Nat.add_comm 1]

/-- The digits of a natural number. -/
def Digits.ofNat (n : Nat) : Digits where
  chars := natChars n
  ne_nil := List.length_pos_iff.mp Nat.length_toDigits_pos
  digit := by
    obtain ⟨ds, hds, -⟩ := Text.mapM_toDigits (by omega) (fun _ => Text.digit?_digitChar) n
    exact (Text.filterMap_of_mapM hds).2

theorem Digits.foldl_ofNat (n : Nat) :
    (Digits.ofNat n).values.foldl (fun n d => n * 10 + d) 0 = n := by
  obtain ⟨ds, hds, hvalue⟩ := Text.mapM_toDigits (by omega) (fun _ => Text.digit?_digitChar) n
  rw [values, show (ofNat n).chars = Nat.toDigits 10 n from rfl, (Text.filterMap_of_mapM hds).1,
    hvalue]

namespace Figure

/-- An integer as it is written. -/
def ofInt (n : Int) : Figure where
  negative := n < 0
  whole := .ofNat n.natAbs
  lead := fun h => by
    rcases Nat.eq_zero_or_pos n.natAbs with hn | hn
    · rw [hn]
      rfl
    · exact absurd h (Text.head?_toDigits hn)
  fraction := none
  power := none

theorem chars_ofInt (n : Int) : (ofInt n).chars = intChars n := by
  have magnitude : (ofInt n).magnitude = natChars n.natAbs := List.append_nil _
  rw [chars, magnitude, intChars]
  by_cases hn : n < 0
  · rw [if_pos hn, if_pos (show (ofInt n).negative = true from decide_eq_true hn)]
  · rw [if_neg hn, if_neg (show ¬ (ofInt n).negative = true from fun h => hn (of_decide_eq_true h))]

/-- An integer that fits in 64 bits reads back as itself. -/
theorem value?_ofInt {n : Int} (hlow : -(UInt64.size / 2 : Nat) ≤ n) (hhigh : n < UInt64.size) :
    (ofInt n).numeral.value? = some (.int n) := by
  have size : UInt64.size = 18446744073709551616 := rfl
  have sum : (ofInt n).whole.values.foldl (fun n d => n * 10 + d) 0 = n.natAbs :=
    Digits.foldl_ofNat n.natAbs
  have whole : accumulate maxUnsigned64 0 0 (ofInt n).numeral.whole =
      (n.natAbs, (ofInt n).whole.values.length) := by
    have fits : n.natAbs ≤ maxUnsigned64 := by
      unfold maxUnsigned64
      omega
    refine (accumulate_eq _ 0 0 (by rw [← sum] at fits; exact fits)).trans ?_
    rw [Nat.zero_add]
    exact congrArg (·, _) sum
  have fits : (ofInt n).numeral.pointed = false ∧ (ofInt n).numeral.exponent = none ∧
      (ofInt n).numeral.whole.length - (ofInt n).whole.values.length = 0 ∧
      ((ofInt n).numeral.negative = false ∨ (0 < n.natAbs ∧ n.natAbs ≤ UInt64.size / 2)) := by
    refine ⟨rfl, rfl, Nat.sub_self _, ?_⟩
    by_cases hn : n < 0
    · exact .inr (by omega)
    · exact .inl (decide_eq_false hn)
  unfold Numeral.value?
  simp only [whole]
  rw [if_pos fits]
  refine congrArg (fun n => some (Atom.int n)) ?_
  by_cases hn : n < 0
  · rw [if_pos (show (ofInt n).numeral.negative = true from decide_eq_true hn)]
    omega
  · rw [if_neg (show ¬ (ofInt n).numeral.negative = true from fun h => hn (of_decide_eq_true h))]
    omega

end Figure

/-! ## Documents -/

namespace Script

/-- The document is a value without parts. -/
def IsAtom (a : Atom) (d : Script) : Prop :=
  ∃ before l after, d = .leaf before l after ∧ l.atom? = some a

/-- The document is a text. -/
def IsText (s : String) (d : Script) : Prop := d.IsAtom (.text s)

/-- The document is a truth value. -/
def IsBool (b : Bool) (d : Script) : Prop := d.IsAtom (.bool b)

/-- The document is an integer. -/
def IsInt (n : Int) (d : Script) : Prop := d.IsAtom (.int n)

/-- The document is null, or stands for a value. -/
def IsOption {β : Type} (spells : β → Script → Prop) : Option β → Script → Prop
  | none, d => d.IsAtom .null
  | some b, d => spells b d

/-- The document is an array of documents for values. -/
def IsList {β : Type} (spells : β → Script → Prop) (bs : List β) : Script → Prop
  | .array _ _ items _ => List.Forall₂ spells bs items
  | _ => False

/-- A value without parts, without white space. -/
def ofLeaf (l : Leaf) : Script := .leaf .none l .none

theorem chars_ofLeaf (l : Leaf) : (ofLeaf l).chars = l.chars := by
  rw [ofLeaf, chars]
  exact List.append_nil _

theorem isAtom_ofLeaf {l : Leaf} {a : Atom} (h : l.atom? = some a) : (ofLeaf l).IsAtom a :=
  ⟨_, l, _, rfl, h⟩

theorem exists_null : ∃ d : Script, d.chars = Value.null.chars ∧ d.IsAtom .null :=
  ⟨ofLeaf .null, (chars_ofLeaf _).trans (by rw [Value.chars]; rfl), isAtom_ofLeaf rfl⟩

theorem exists_bool (b : Bool) :
    ∃ d : Script, d.chars = (Value.bool b).chars ∧ d.IsBool b := by
  refine ⟨ofLeaf (.bool b), (chars_ofLeaf _).trans ?_, isAtom_ofLeaf rfl⟩
  cases b <;> rw [Value.chars] <;> rfl

theorem exists_int {n : Int} (hlow : -(UInt64.size / 2 : Nat) ≤ n) (hhigh : n < UInt64.size) :
    ∃ d : Script, d.chars = (Value.int n).chars ∧ d.IsInt n := by
  refine ⟨ofLeaf (.number (.ofInt n)), (chars_ofLeaf _).trans ?_,
    isAtom_ofLeaf (Figure.value?_ofInt hlow hhigh)⟩
  rw [Value.chars]
  exact Figure.chars_ofInt n

theorem exists_nat {n : Nat} (h : n < UInt64.size) :
    ∃ d : Script, d.chars = (Value.int n).chars ∧ d.IsInt n :=
  exists_int (by omega) (by omega)

theorem exists_uint16 (n : UInt16) :
    ∃ d : Script, d.chars = (Value.int n.toNat).chars ∧ d.IsInt n.toNat :=
  exists_nat (Nat.lt_trans n.toNat_lt (by decide))

theorem exists_uint32 (n : UInt32) :
    ∃ d : Script, d.chars = (Value.int n.toNat).chars ∧ d.IsInt n.toNat :=
  exists_nat (Nat.lt_trans n.toNat_lt (by decide))

theorem exists_uint64 (n : UInt64) :
    ∃ d : Script, d.chars = (Value.int n.toNat).chars ∧ d.IsInt n.toNat := exists_nat n.toNat_lt

theorem exists_int64 (n : Int64) :
    ∃ d : Script, d.chars = (Value.int n.toInt).chars ∧ d.IsInt n.toInt :=
  exists_int n.minValue_le_toInt (Int.lt_of_le_of_lt n.toInt_le (by decide))

theorem exists_text (s : String) :
    ∃ d : Script, d.chars = (Value.text s).chars ∧ d.IsText s := by
  obtain ⟨ps, hps, hread⟩ := exists_pieces s.toList
  refine ⟨ofLeaf (.text ps), (chars_ofLeaf _).trans ?_, isAtom_ofLeaf ?_⟩
  · rw [Value.chars, textChars, ← hps]
    rfl
  · rw [Leaf.atom?, hread, Option.map_some, String.ofList_toList]

/-- A text or null. -/
theorem exists_text? (o : Option String) :
    ∃ d : Script, d.chars = (Value.ofText? o).chars ∧ IsOption IsText o d := by
  cases o with
  | none => exact exists_null
  | some s => exact exists_text s

/-- Documents of items, behind the first one. -/
theorem exists_itemChars {α : Type} {P : α → Script → Prop} {f : α → Value} (as : List α)
    (h : ∀ a ∈ as, ∃ d : Script, d.chars = (f a).chars ∧ P a d) :
    ∃ ds, itemChars ds = Json.itemChars (as.map f) ∧ List.Forall₂ P as ds := by
  induction as with
  | nil => exact ⟨[], rfl, .nil⟩
  | cons a as ih =>
    obtain ⟨d, hd, hp⟩ := h a List.mem_cons_self
    obtain ⟨ds, hds, hps⟩ := ih fun b hb => h b (List.mem_cons_of_mem a hb)
    refine ⟨d :: ds, ?_, .cons hp hps⟩
    rw [itemChars, List.map_cons, Json.itemChars, hd, hds]

/-- **Documents of items** make the document of an array. -/
theorem exists_array {α : Type} {P : α → Script → Prop} {f : α → Value} (as : List α)
    (h : ∀ a ∈ as, ∃ d : Script, d.chars = (f a).chars ∧ P a d) :
    ∃ d : Script, d.chars = (Value.array (as.map f)).chars ∧ IsList P as d := by
  cases as with
  | nil =>
    refine ⟨.array .none .none [] .none, ?_, .nil⟩
    rw [chars, List.map_nil, Value.chars]
    rfl
  | cons a as =>
    obtain ⟨d, hd, hp⟩ := h a List.mem_cons_self
    obtain ⟨ds, hds, hps⟩ := exists_itemChars as fun b hb => h b (List.mem_cons_of_mem a hb)
    refine ⟨.array .none .none (d :: ds) .none, ?_, .cons hp hps⟩
    rw [chars, List.map_cons, Value.chars, hd, hds]
    show '[' :: (_ ++ (_ ++ [])) = _
    rw [List.append_nil]

section Objects

variable {α : Type} {P : α → Script → Prop} {name : α → String}

theorem exists_key (s : String) : ∃ k : Key, k.chars = textChars s ∧ k.name? = some s := by
  obtain ⟨ps, hps, hread⟩ := exists_pieces s.toList
  refine ⟨⟨.none, ps, .none⟩, ?_, ?_⟩
  · show [] ++ ((Leaf.text ps).chars ++ []) = _
    rw [List.nil_append, List.append_nil, textChars, ← hps]
    rfl
  · rw [Key.name?, hread, Option.map_some, String.ofList_toList]

/-- Documents of members, behind the first one. -/
theorem exists_memberChars {as : List α} {members : List (String × Value)}
    (h : List.Forall₂ (fun a m => m.1 = name a ∧ ∃ d : Script, d.chars = m.2.chars ∧ P a d)
      as members) :
    ∃ ms : List (Key × Script), memberChars ms = Json.memberChars members ∧
      List.Forall₂ (fun a m => m.1.name? = some (name a) ∧ P a m.2) as ms := by
  induction h with
  | nil => exact ⟨[], rfl, .nil⟩
  | @cons a m as members h _ ih =>
    obtain ⟨s, v⟩ := m
    obtain ⟨hname, d, hd, hp⟩ := h
    obtain ⟨ms, hms, hps⟩ := ih
    obtain ⟨k, hk, hs⟩ := exists_key s
    refine ⟨(k, d) :: ms, ?_, .cons ⟨hs.trans (congrArg some hname), hp⟩ hps⟩
    rw [memberChars, Json.memberChars, hk, hd, hms]

/-- **Documents of members** make the document of an object. -/
theorem exists_object {as : List α} {members : List (String × Value)}
    (h : List.Forall₂ (fun a m => m.1 = name a ∧ ∃ d : Script, d.chars = m.2.chars ∧ P a d)
      as members) :
    ∃ ms, (Script.object .none .none ms .none).chars = (Value.object members).chars ∧
      List.Forall₂ (fun a m => m.1.name? = some (name a) ∧ P a m.2) as ms := by
  cases h with
  | nil =>
    refine ⟨[], ?_, .nil⟩
    rw [chars, Value.chars]
    rfl
  | @cons a m as members h hrest =>
    obtain ⟨s, v⟩ := m
    obtain ⟨hname, d, hd, hp⟩ := h
    obtain ⟨ms, hms, hps⟩ := exists_memberChars hrest
    obtain ⟨k, hk, hs⟩ := exists_key s
    refine ⟨(k, d) :: ms, ?_, .cons ⟨hs.trans (congrArg some hname), hp⟩ hps⟩
    rw [chars, Value.chars, hk, hd, hms]
    show '\x7b' :: (_ ++ ':' :: (_ ++ (_ ++ []))) = _
    rw [List.append_nil]

end Objects

end Script

end LogShipper.Json
