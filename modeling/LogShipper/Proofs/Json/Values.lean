import LogShipper.Proofs.Json.Compact
import LogShipper.Proofs.Json.Decoding

/-!
# Values read back

A reader of any value keeps all that a text holds, the members of an object in their order and as
often as they stand. A value that holds no floating-point number, and whose integers fit in 64 bits,
is written on one line and reads back as itself, however deep it is nested.

Results:
* `exists_value`: the text of a value is a document that reads back as the value.
* `readText_render`: a value reads back.
* `visible_chars`: every value is written on one line.
* `length_chars_lt_of_mem`: a member is shorter than the object that holds it.
-/

namespace LogShipper.Json

/-! ## Reading any value -/

/-- The value of an atom. -/
def Atom.value : Atom → Value
  | .null => .null
  | .bool b => .bool b
  | .int n => .int n
  | .float x => .float x
  | .text s => .text s

namespace Reader

mutual

/-- Any value. -/
def value : Node → Except Problem Value
  | .atom l => (l.read.map Atom.value).mapError .fault
  | .array ns stop => do
    let vs ← values ns
    stop.check
    return .array vs
  | .object ns stop => do
    let ms ← members ns
    stop.check
    return .object ms
  | .missing found => .error (.fault found.fault)

/-- The values of items. -/
def values : List Node → Except Problem (List Value)
  | [] => .ok []
  | n :: rest => do
    let v ← value n
    let vs ← values rest
    return v :: vs

/-- Names and values of members. -/
def members : List (Lexeme × Node) → Except Problem (List (String × Value))
  | [] => .ok []
  | (k, n) :: rest => do
    let name ← Shape.keyText k
    let v ← value n
    let ms ← members rest
    return (name, v) :: ms

end

end Reader

/-! ## Plain values -/

mutual

/-- Whether a value holds no floating-point number, and no integer of more than 64 bits. -/
def Value.isPlain : Value → Bool
  | .null => true
  | .bool _ => true
  | .int n => decide (-(UInt64.size / 2 : Nat) ≤ n) && decide (n < UInt64.size)
  | .float _ => false
  | .text _ => true
  | .array items => itemsPlain items
  | .object members => membersPlain members

/-- Whether all items are plain. -/
def itemsPlain : List Value → Bool
  | [] => true
  | v :: rest => v.isPlain && itemsPlain rest

/-- Whether all members are plain. -/
def membersPlain : List (String × Value) → Bool
  | [] => true
  | (_, v) :: rest => v.isPlain && membersPlain rest

end

/-! ## Documents of values -/

namespace Script

/-- The document reads as a value. -/
def Reads (v : Value) (d : Script) : Prop := Reader.value d.node = .ok v

theorem IsAtom.reads {a : Atom} {d : Script} (h : d.IsAtom a) : d.Reads a.value := by
  obtain ⟨before, l, after, rfl, ha⟩ := h
  rw [Reads, node, Reader.value, Leaf.lexeme, ha]
  rfl

theorem values_itemNodes {vs : List Value} {ds : List Script} (h : List.Forall₂ Reads vs ds) :
    Reader.values (itemNodes ds) = .ok vs := by
  induction h with
  | nil => rw [itemNodes, Reader.values]
  | cons hv _ ih =>
    rw [itemNodes, Reader.values, hv, ih]
    rfl

theorem IsList.reads {vs : List Value} {d : Script} (h : IsList Reads vs d) :
    d.Reads (.array vs) := by
  match d with
  | .array _ _ items _ =>
    rw [Reads, node, Reader.value, values_itemNodes h]
    rfl

theorem members_memberNodes {members : List (String × Value)} {ms : List (Key × Script)}
    (h : List.Forall₂ (fun a m => m.1.name? = some a.1 ∧ Reads a.2 m.2) members ms) :
    Reader.members (memberNodes ms) = .ok members := by
  induction h with
  | nil => rw [memberNodes, Reader.members]
  | @cons a m members ms hm _ ih =>
    obtain ⟨k, d⟩ := m
    obtain ⟨hname, hv⟩ := hm
    rw [memberNodes, Reader.members, Record.keyText_lexeme, hname, hv, ih]
    rfl

theorem reads_object {members : List (String × Value)} {ms : List (Key × Script)}
    (h : List.Forall₂ (fun a m => m.1.name? = some a.1 ∧ Reads a.2 m.2) members ms) :
    (Script.object .none .none ms .none).Reads (.object members) := by
  rw [Reads, node, Reader.value, members_memberNodes h]
  rfl

mutual

/-- **The text of a value** is a document that reads back as the value. The induction is on the
value, along its items and members. -/
theorem exists_value (v : Value) (h : v.isPlain = true) :
    ∃ d : Script, d.chars = v.chars ∧ d.Reads v := by
  match v with
  | .null =>
    obtain ⟨d, hd, hatom⟩ := exists_null
    exact ⟨d, hd, hatom.reads⟩
  | .bool b =>
    obtain ⟨d, hd, hatom⟩ := exists_bool b
    exact ⟨d, hd, IsAtom.reads hatom⟩
  | .int n =>
    rw [Value.isPlain, Bool.and_eq_true, decide_eq_true_iff, decide_eq_true_iff] at h
    obtain ⟨d, hd, hatom⟩ := exists_int h.1 h.2
    exact ⟨d, hd, IsAtom.reads hatom⟩
  | .float x =>
    rw [Value.isPlain] at h
    cases h
  | .text s =>
    obtain ⟨d, hd, hatom⟩ := exists_text s
    exact ⟨d, hd, IsAtom.reads hatom⟩
  | .array items =>
    rw [Value.isPlain] at h
    obtain ⟨d, hd, hlist⟩ := exists_array (f := id) items (exists_values items h)
    rw [List.map_id] at hd
    exact ⟨d, hd, hlist.reads⟩
  | .object members =>
    rw [Value.isPlain] at h
    have hmembers : List.Forall₂ (fun a m : String × Value =>
        m.1 = a.1 ∧ ∃ d : Script, d.chars = m.2.chars ∧ d.Reads a.2) members members :=
      List.forall₂_same.mpr fun m hm => ⟨rfl, exists_namedValues members h m hm⟩
    obtain ⟨ms, hms, hreads⟩ := exists_object hmembers
    exact ⟨_, hms, reads_object hreads⟩

/-- The texts of items are documents. -/
theorem exists_values (vs : List Value) (h : itemsPlain vs = true) :
    ∀ v ∈ vs, ∃ d : Script, d.chars = v.chars ∧ d.Reads v := by
  match vs with
  | [] => exact fun _ hv => absurd hv List.not_mem_nil
  | w :: rest =>
    rw [itemsPlain, Bool.and_eq_true] at h
    intro v hv
    rcases List.mem_cons.mp hv with hv | hv
    · exact hv ▸ exists_value w h.1
    · exact exists_values rest h.2 v hv

/-- The texts of members' values are documents. -/
theorem exists_namedValues (ms : List (String × Value)) (h : membersPlain ms = true) :
    ∀ m ∈ ms, ∃ d : Script, d.chars = m.2.chars ∧ d.Reads m.2 := by
  match ms with
  | [] => exact fun _ hm => absurd hm List.not_mem_nil
  | (_, v) :: rest =>
    rw [membersPlain, Bool.and_eq_true] at h
    intro m hm
    rcases List.mem_cons.mp hm with hm | hm
    · exact hm ▸ exists_value v h.1
    · exact exists_namedValues rest h.2 m hm

end

end Script

/-- **A value reads back** as itself. -/
theorem readText_render {v : Value} (h : v.isPlain = true) :
    readText Reader.value v.render = .ok v := by
  obtain ⟨d, hd, hreads⟩ := Script.exists_value v h
  rw [Value.render, ← hd, ← Script.text, Script.readText_text]
  exact hreads

/-! ## One line -/

/-- No control character stands in a text. -/
def Visible (cs : List Char) : Prop := ∀ c ∈ cs, 0x20 ≤ c.toNat

instance (cs : List Char) : Decidable (Visible cs) := List.decidableBAll _ cs

theorem visible_cons {c : Char} {cs : List Char} :
    Visible (c :: cs) ↔ 0x20 ≤ c.toNat ∧ Visible cs := List.forall_mem_cons

theorem visible_append {cs ds : List Char} : Visible (cs ++ ds) ↔ Visible cs ∧ Visible ds :=
  List.forall_mem_append

theorem visible_hexDigit {n : Nat} (h : n < 16) : 0x20 ≤ (Text.hexDigit n).toNat := by
  have all : ∀ n : Fin 16, 0x20 ≤ (Text.hexDigit n).toNat := by decide
  exact all ⟨n, h⟩

/-- Control characters are escaped. -/
theorem visible_escapeChar (c : Char) : Visible (escapeChar c) := by
  unfold escapeChar
  split_ifs with hquote hbackslash h1 h2 h3 h4 h5 hcontrol
  · decide
  · decide
  · decide
  · decide
  · decide
  · decide
  · decide
  · have hdigits : Visible [Text.hexDigit (c.toNat / 16), Text.hexDigit (c.toNat % 16)] := by
      rw [visible_cons, visible_cons]
      exact ⟨visible_hexDigit (by omega), visible_hexDigit (by omega), List.forall_mem_nil _⟩
    have hmark : Visible ['\\', 'u', '0', '0'] := by decide
    exact visible_append.mpr ⟨hmark, hdigits⟩
  · exact visible_cons.mpr ⟨Nat.le_of_not_lt hcontrol, List.forall_mem_nil _⟩

theorem visible_textChars (s : String) : Visible (textChars s) := by
  rw [textChars, visible_cons, visible_append]
  refine ⟨by decide, fun c hc => ?_, by decide⟩
  obtain ⟨d, -, hc⟩ := List.mem_flatMap.mp hc
  exact visible_escapeChar d c hc

theorem visible_natChars (n : Nat) : Visible (natChars n) := by
  intro c hc
  obtain ⟨d, hd⟩ := Option.isSome_iff_exists.mp ((Digits.ofNat n).digit c hc)
  obtain ⟨hlt, rfl⟩ := Text.digit?_eq_some hd
  have all : ∀ d : Fin 10, 0x20 ≤ (Nat.digitChar d).toNat := by decide
  exact all ⟨d, hlt⟩

theorem visible_intChars (n : Int) : Visible (intChars n) := by
  unfold intChars
  split
  · exact visible_cons.mpr ⟨by decide, visible_natChars _⟩
  · exact visible_natChars _

theorem visible_zeros (n : Nat) : Visible (List.replicate n '0') := by
  intro c hc
  rw [List.eq_of_mem_replicate hc]
  decide

/-- Digits with a point behind the first one, and an exponent. -/
theorem visible_pointed {digits tail : List Char} : Visible digits → Visible tail →
    Visible (match digits with
      | [d] => d :: 'e' :: tail
      | d :: rest => d :: '.' :: (rest ++ 'e' :: tail)
      | [] => []) := by
  intro hdigits htail
  have hmarked : Visible ('e' :: tail) := visible_cons.mpr ⟨by decide, htail⟩
  match digits with
  | [] => exact List.forall_mem_nil _
  | [d] => exact visible_cons.mpr ⟨(visible_cons.mp hdigits).1, hmarked⟩
  | d :: d' :: rest =>
    obtain ⟨hd, hrest⟩ := visible_cons.mp hdigits
    exact visible_cons.mpr ⟨hd, visible_cons.mpr ⟨by decide, visible_append.mpr ⟨hrest, hmarked⟩⟩⟩

theorem visible_decimalChars (x : Decimal.Scientific) : Visible (decimalChars x) := by
  have hdigits := visible_natChars x.digits
  unfold decimalChars
  dsimp only
  split_ifs with hwhole hpoint hsmall hlead
  · exact visible_append.mpr ⟨visible_append.mpr ⟨hdigits, visible_zeros _⟩, by decide⟩
  · refine visible_append.mpr ⟨fun c hc => hdigits c (List.mem_of_mem_take hc), ?_⟩
    exact visible_cons.mpr ⟨by decide, fun c hc => hdigits c (List.mem_of_mem_drop hc)⟩
  · exact visible_cons.mpr ⟨by decide, visible_cons.mpr ⟨by decide,
      visible_append.mpr ⟨visible_zeros _, hdigits⟩⟩⟩
  · refine visible_pointed hdigits ?_
    exact visible_cons.mpr ⟨by decide, visible_natChars _⟩
  · refine visible_pointed hdigits ?_
    exact visible_cons.mpr ⟨by decide, visible_natChars _⟩

theorem visible_floatChars (x : Decimal.Binary64) : Visible (floatChars x) := by
  unfold floatChars
  refine visible_append.mpr ⟨?_, ?_⟩
  · split <;> decide
  · split
    · decide
    · exact visible_decimalChars _

mutual

/-- **A value is written on one line.** -/
theorem visible_chars (v : Value) : Visible v.chars := by
  match v with
  | .null =>
    rw [Value.chars]
    decide
  | .bool true =>
    rw [Value.chars]
    decide
  | .bool false =>
    rw [Value.chars]
    decide
  | .int n =>
    rw [Value.chars]
    exact visible_intChars n
  | .float x =>
    rw [Value.chars]
    exact visible_floatChars x
  | .text s =>
    rw [Value.chars]
    exact visible_textChars s
  | .array [] =>
    rw [Value.chars]
    decide
  | .array (v :: rest) =>
    rw [Value.chars, visible_cons, visible_append]
    exact ⟨by decide, visible_chars v, visible_itemChars rest⟩
  | .object [] =>
    rw [Value.chars]
    decide
  | .object ((k, v) :: rest) =>
    rw [Value.chars, visible_cons, visible_append, visible_cons, visible_append]
    exact ⟨by decide, visible_textChars k, by decide, visible_chars v,
      visible_memberChars rest⟩

theorem visible_itemChars (vs : List Value) : Visible (itemChars vs) := by
  match vs with
  | [] =>
    rw [itemChars]
    decide
  | v :: rest =>
    rw [itemChars, visible_cons, visible_append]
    exact ⟨by decide, visible_chars v, visible_itemChars rest⟩

theorem visible_memberChars (ms : List (String × Value)) : Visible (memberChars ms) := by
  match ms with
  | [] =>
    rw [memberChars]
    decide
  | (k, v) :: rest =>
    rw [memberChars, visible_cons, visible_append, visible_cons, visible_append]
    exact ⟨by decide, visible_textChars k, by decide, visible_chars v,
      visible_memberChars rest⟩

end

/-! ## Parts are shorter -/

theorem length_toList_lt_textChars (s : String) : s.toList.length < (textChars s).length := by
  have hle (cs : List Char) : cs.length ≤ (cs.flatMap escapeChar).length := by
    induction cs with
    | nil => exact Nat.le_refl 0
    | cons c cs ih =>
      have hpos : 0 < (escapeChar c).length := by
        unfold escapeChar
        split_ifs <;> exact Nat.succ_pos _
      rw [List.flatMap_cons, List.length_append, List.length_cons]
      omega
  have := hle s.toList
  rw [textChars, List.length_cons, List.length_append]
  omega

theorem length_chars_le_memberChars {ms : List (String × Value)} {m : String × Value}
    (h : m ∈ ms) : m.2.chars.length ≤ (memberChars ms).length := by
  induction ms with
  | nil => cases h
  | cons n ms ih =>
    obtain ⟨k, v⟩ := n
    rw [memberChars, List.length_cons, List.length_append, List.length_cons, List.length_append]
    rcases List.mem_cons.mp h with rfl | h
    · dsimp only
      omega
    · have := ih h
      omega

/-- A member is shorter than the object that holds it. -/
theorem length_chars_lt_of_mem {ms : List (String × Value)} {m : String × Value} (h : m ∈ ms) :
    m.2.chars.length < (Value.object ms).chars.length := by
  cases ms with
  | nil => cases h
  | cons n ms =>
    obtain ⟨k, v⟩ := n
    rw [Value.chars, List.length_cons, List.length_append, List.length_cons, List.length_append]
    rcases List.mem_cons.mp h with rfl | h
    · dsimp only
      omega
    · have := length_chars_le_memberChars h
      omega

end LogShipper.Json
