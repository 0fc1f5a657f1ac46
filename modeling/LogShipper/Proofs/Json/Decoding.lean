import LogShipper.Proofs.Json.Parsing
import LogShipper.Proofs.Json.Records

/-!
# Records are read as their slots say

A `Shape` reads a record as its slots say if each of its fields reads one slot and leaves the others
alone (`Record.Describes`). Members may then come in any order, since what was read of a field stays
as it is, and a field that is left out stays as it was at the start.

Results:
* `Record.Describes.read_eq`: every document that stands for a record reads as that record.
* `Record.Describes.read_error`: no document that breaks a rule is read.
* `Record.fits_part`: a field that is one part of a record.
-/

namespace LogShipper.Json

namespace Record

variable {α : Type}

/-! ## Shapes and slots -/

/-- A field of a shape reads a slot of a record and leaves the other slots alone. -/
structure Fits (slots : List (Slot α)) (start : α) (s : Slot α) (f : Field α) : Prop where
  name : f.name = s.name
  required : f.required = s.required
  default : ∀ a, s.Default a → s.required = false ∧ s.Same a start
  spells : ∀ a d, s.Spells a d → ∃ set, f.read d.node = .ok set ∧ ∀ b, s.Same a (set b)
  keeps : ∀ n set, f.read n = .ok set →
    ∀ t ∈ slots, t.name ≠ s.name → ∀ a b, t.Same a b → t.Same a (set b)
  flawed : ∀ d, s.Flawed d → ∃ p, f.read d.node = .error p

/-- A shape reads records of certain slots. -/
structure Describes (slots : List (Slot α)) (shape : Shape α) : Prop where
  fits : List.Forall₂ (Fits slots shape.start) slots shape.fields
  distinct : (slots.map (·.name)).Nodup
  ext : ∀ a b, (∀ s ∈ slots, s.Same a b) → a = b

theorem keyText_lexeme (k : Key) : Shape.keyText k.lexeme =
    match k.name? with
    | some name => .ok name
    | none => .error (.fault .malformed) := by
  rw [Shape.keyText, Key.lexeme, Leaf.lexeme, Leaf.atom?, Key.name?]
  cases readPieces k.pieces <;> rfl

namespace Describes

variable {slots : List (Slot α)} {shape : Shape α} (h : Describes slots shape)
include h

theorem field?_eq_some {s : Slot α} (hs : s ∈ slots) :
    ∃ f, shape.field? s.name = some f ∧ Fits slots shape.start s f := by
  obtain ⟨f, hf, hfits⟩ := exists_right h.fits hs
  have isSome : (shape.field? s.name).isSome = true := by
    rw [Shape.field?, List.find?_isSome]
    exact ⟨f, hf, beq_iff_eq.mpr hfits.name⟩
  obtain ⟨g, hg⟩ := Option.isSome_iff_exists.mp isSome
  have hname : g.name = s.name :=
    beq_iff_eq.mp (List.find?_some (p := fun f : Field α => f.name == s.name) hg)
  obtain ⟨t, ht, htfits⟩ := exists_left h.fits (List.mem_of_find?_eq_some hg)
  have same : t = s :=
    List.inj_on_of_nodup_map h.distinct ht hs (htfits.name.symm.trans hname)
  exact ⟨g, hg, same ▸ htfits⟩

theorem field?_eq_none {name : String} (hname : ∀ s ∈ slots, s.name ≠ name) :
    shape.field? name = none := by
  rw [Shape.field?, List.find?_eq_none]
  intro f hf heq
  obtain ⟨s, hs, hfits⟩ := exists_left h.fits hf
  exact hname s hs (hfits.name.symm.trans (beq_iff_eq.mp heq))

end Describes

/-! ## Items -/

section

variable {slots ss : List (Slot α)} {shape : Shape α} {fs : List (Field α)}

/-- **Items that stand for a record** are read one by one. The induction is on the fields; what
stands for those that are left out was there from the start. -/
theorem readItems_eq (hfits : List.Forall₂ (Fits slots shape.start) ss fs) {a : α}
    (hss : ∀ s ∈ ss, s ∈ slots) (hdistinct : (ss.map (·.name)).Nodup) (items : List Script)
    (hitems : Items a ss items)
    (count : Nat) (b : α) (hb : ∀ s ∈ ss, ∀ x, s.Same x shape.start → s.Same x b) :
    ∃ b', shape.readItems .closed fs (Script.itemNodes items) count b = .ok b' ∧
      (∀ s ∈ ss, s.Same a b') ∧
      ∀ s ∈ slots, s.name ∉ ss.map (·.name) → ∀ x, s.Same x b → s.Same x b' := by
  induction hfits generalizing items count b with
  | nil =>
    cases items with
    | nil =>
      rw [Script.itemNodes]
      exact ⟨b, rfl, fun s hs => absurd hs List.not_mem_nil, fun _ _ _ _ hsame => hsame⟩
    | cons d ds => exact hitems.elim
  | @cons s f ss fs hf _ ih =>
    obtain ⟨hfirst, hrest⟩ := List.nodup_cons.mp hdistinct
    have others : ∀ t ∈ ss, t.name ≠ s.name := fun t ht heq =>
      hfirst (List.mem_map.mpr ⟨t, ht, heq⟩)
    have more := ih (fun t ht => hss t (List.mem_cons_of_mem _ ht)) hrest
    cases items with
    | nil =>
      have hdefault := hf.default a (hitems s List.mem_cons_self)
      obtain ⟨b', hread, hsame, hkeep⟩ := more [] (by
        cases ss <;> exact fun t ht => hitems t (List.mem_cons_of_mem _ ht)) (count + 1) b
        fun t ht => hb t (List.mem_cons_of_mem _ ht)
      refine ⟨b', ?_, fun t ht => ?_, fun t ht hnot => hkeep t ht fun hmem =>
        hnot (List.mem_cons_of_mem _ hmem)⟩
      · rw [Script.itemNodes] at hread ⊢
        rw [Shape.readItems, hf.required, hdefault.1]
        exact hread
      · rcases List.mem_cons.mp ht with rfl | ht
        · exact hkeep t (hss t List.mem_cons_self) hfirst a
            (hb t List.mem_cons_self a hdefault.2)
        · exact hsame t ht
    | cons d ds =>
      obtain ⟨hspells, hlater⟩ := hitems
      obtain ⟨set, hset, hset_same⟩ := hf.spells a d hspells
      have keeps := hf.keeps _ _ hset
      obtain ⟨b', hread, hsame, hkeep⟩ := more ds hlater (count + 1) (set b) fun t ht x hx =>
        keeps t (hss t (List.mem_cons_of_mem _ ht)) (others t ht) x b
          (hb t (List.mem_cons_of_mem _ ht) x hx)
      refine ⟨b', ?_, fun t ht => ?_, fun t ht hnot x hx => ?_⟩
      · rw [Script.itemNodes, Shape.readItems, hset]
        exact hread
      · rcases List.mem_cons.mp ht with rfl | ht
        · exact hkeep t (hss t List.mem_cons_self) hfirst a (hset_same b)
        · exact hsame t ht
      · rw [List.map_cons, List.mem_cons, not_or] at hnot
        exact hkeep t ht hnot.2 x (keeps t ht hnot.1 x b hx)

/-- No field that must be given can be left out at the end. -/
theorem readItems_nil_error (hfits : List.Forall₂ (Fits slots shape.start) ss fs) {s : Slot α}
    (hs : s ∈ ss) (hr : s.required = true) (count : Nat) (b : α) :
    ∃ p, shape.readItems .closed fs [] count b = .error p := by
  induction hfits generalizing count with
  | nil => cases hs
  | @cons t f ss fs hf _ ih =>
    rw [Shape.readItems, hf.required]
    cases ht : t.required with
    | true => exact ⟨_, rfl⟩
    | false =>
      refine ih ((List.mem_cons.mp hs).resolve_left ?_) (count + 1)
      rintro rfl
      cases ht.symm.trans hr

/-- Items that break a rule are not read. The induction is on the breach. -/
theorem readItems_error {items : List Script} (hflawed : FlawedItems ss items)
    (hfits : List.Forall₂ (Fits slots shape.start) ss fs) (count : Nat) (b : α) :
    ∃ p, shape.readItems .closed fs (Script.itemNodes items) count b = .error p := by
  induction hflawed generalizing fs count b with
  | lacking hs hr =>
    rw [Script.itemNodes]
    exact readItems_nil_error hfits hs hr count b
  | @within ss s d ds hd =>
    cases hfits with
    | cons hf _ =>
      obtain ⟨p, hp⟩ := hf.flawed d hd
      rw [Script.itemNodes, Shape.readItems, hp]
      exact ⟨p, rfl⟩
  | @later ss s d ds _ ih =>
    cases hfits with
    | @cons _ f _ _ hf hfits =>
      rw [Script.itemNodes, Shape.readItems]
      cases f.read d.node with
      | error p => exact ⟨p, rfl⟩
      | ok set => exact ih hfits (count + 1) (set b)

end

/-! ## Members -/

/-- After some fields were given a record holds in them what `a` holds, and what it held before in
all others. -/
def Takes (slots : List (Slot α)) (given : List (Option String)) (a b b' : α) : Prop :=
  ∀ s ∈ slots, (some s.name ∈ given → s.Same a b') ∧
    (some s.name ∉ given → ∀ x, s.Same x b → s.Same x b')

theorem Takes.refl (slots : List (Slot α)) (a b : α) : Takes slots [] a b b :=
  fun _ _ => ⟨fun hmem => absurd hmem List.not_mem_nil, fun _ _ hsame => hsame⟩

theorem Takes.trans {slots : List (Slot α)} {given given' : List (Option String)} {a b c d : α}
    (h : Takes slots given a b c) (h' : Takes slots given' a c d) :
    Takes slots (given ++ given') a b d := by
  intro s hs
  refine ⟨fun hmem => ?_, fun hnot x hsame => ?_⟩
  · by_cases hlater : some s.name ∈ given'
    · exact (h' s hs).1 hlater
    · have hearlier := (List.mem_append.mp hmem).resolve_right hlater
      exact (h' s hs).2 hlater a ((h s hs).1 hearlier)
  · rw [List.mem_append, not_or] at hnot
    exact (h' s hs).2 hnot.2 x ((h s hs).2 hnot.1 x hsame)

/-- Members break no rule before a reader that has seen some fields, and that has seen some fields
after them. -/
structure Cleared (slots : List (Slot α)) (members : List (Key × Script))
    (seen seen' : List String) : Prop where
  given : ∀ name ∈ seen', name ∈ seen ∨ some name ∈ names members
  once : ∀ s ∈ slots, (names members).count (some s.name) ≤ 1
  fresh : ∀ s ∈ slots, s.name ∈ seen → some s.name ∉ names members
  sound : ∀ s ∈ slots, ∀ m ∈ members, m.1.name? = some s.name → ¬ s.Flawed m.2

namespace Cleared

variable {slots : List (Slot α)} {rest : List (Key × Script)} {seen seen' : List String} {k : Key}

theorem nil (slots : List (Slot α)) (seen : List String) : Cleared slots [] seen seen where
  given _ := .inl
  once _ _ := Nat.zero_le 1
  fresh _ _ _ := List.not_mem_nil
  sound _ _ _ hm := absurd hm List.not_mem_nil

/-- A member with an unknown name. -/
theorem pass (h : Cleared slots rest seen seen') (d : Script)
    (hunknown : ∀ s ∈ slots, k.name? ≠ some s.name) : Cleared slots ((k, d) :: rest) seen seen' := by
  constructor
  · exact fun name hmem => (h.given name hmem).imp id (List.mem_cons_of_mem _)
  · intro s hs
    show (k.name? :: names rest).count _ ≤ 1
    rw [List.count_cons_of_ne (hunknown s hs)]
    exact h.once s hs
  · intro s hs hmem hagain
    rcases List.mem_cons.mp hagain with heq | hagain
    · exact hunknown s hs heq.symm
    · exact h.fresh s hs hmem hagain
  · intro s hs m hm hname
    rcases List.mem_cons.mp hm with rfl | hm
    · exact absurd hname (hunknown s hs)
    · exact h.sound s hs m hm hname

/-- A field that is given for the first time. -/
theorem take {name : String} {d : Script} (h : Cleared slots rest (name :: seen) seen')
    (hname : k.name? = some name) (hseen : name ∉ seen)
    (hd : ∀ s ∈ slots, s.name = name → ¬ s.Flawed d) : Cleared slots ((k, d) :: rest) seen seen' := by
  constructor
  · intro other hmem
    rcases h.given other hmem with hmem | hmem
    · rcases List.mem_cons.mp hmem with rfl | hmem
      · exact .inr (hname ▸ List.mem_cons_self)
      · exact .inl hmem
    · exact .inr (List.mem_cons_of_mem _ hmem)
  · intro s hs
    show (k.name? :: names rest).count _ ≤ 1
    rw [hname]
    by_cases heq : s.name = name
    · have hlast := h.fresh s hs (heq ▸ List.mem_cons_self)
      rw [heq] at hlast ⊢
      have hone : (some name :: names rest).count (some name) = 1 := by
        rw [List.count_cons_self, List.count_eq_zero.mpr hlast]
      exact Nat.le_of_eq hone
    · rw [List.count_cons_of_ne fun h => heq (Option.some.inj h).symm]
      exact h.once s hs
  · intro s hs hmem hagain
    rcases List.mem_cons.mp hagain with heq | hagain
    · exact hseen (Option.some.inj (heq.trans hname) ▸ hmem)
    · exact h.fresh s hs (List.mem_cons_of_mem _ hmem) hagain
  · intro s hs m hm hnamed
    rcases List.mem_cons.mp hm with rfl | hm
    · exact hd s hs (Option.some.inj (hnamed.symm.trans hname))
    · exact h.sound s hs m hm hnamed

end Cleared

namespace Describes

variable {slots : List (Slot α)} {shape : Shape α} (h : Describes slots shape)
include h

/-- A member with a known name that was not given before. -/
theorem readMembers_known {s : Slot α} (hs : s ∈ slots) {a : α} {k : Key} {d : Script}
    (hname : k.name? = some s.name) (hspells : ∀ t ∈ slots, t.name = s.name → t.Spells a d)
    (rest : List (Lexeme × Node)) {seen : List String} (hseen : s.name ∉ seen) (b : α) :
    ∃ b', Takes slots [k.name?] a b b' ∧
      shape.readMembers ((k.lexeme, d.node) :: rest) seen b =
        shape.readMembers rest (s.name :: seen) b' := by
  obtain ⟨f, hf, hfits⟩ := h.field?_eq_some hs
  obtain ⟨set, hset, -⟩ := hfits.spells a d (hspells s hs rfl)
  refine ⟨set b, ?_, ?_⟩
  · intro t ht
    rw [hname, List.mem_singleton, Option.some.injEq]
    refine ⟨fun heq => ?_, fun hne x => hfits.keeps _ _ hset t ht hne x b⟩
    obtain ⟨g, hg, htfits⟩ := h.field?_eq_some ht
    rw [heq, hf] at hg
    obtain ⟨set', hset', hsame⟩ := htfits.spells a d (hspells t ht heq)
    rw [← Option.some.inj hg, hset] at hset'
    rw [Except.ok.inj hset']
    exact hsame b
  · have fresh : seen.contains s.name = false := by simpa using hseen
    rw [Shape.readMembers, keyText_lexeme, hname]
    simp only [bind, Except.bind, hf, fresh, hset, Bool.false_eq_true, if_false]

/-- **Members that stand for a record** are read one by one. The induction is on the members; no
field that was given comes again. -/
theorem readMembers_eq {a : α} (members : List (Key × Script)) (readable : none ∉ names members)
    (spelled : ∀ s ∈ slots, ∀ m ∈ members, m.1.name? = some s.name → s.Spells a m.2)
    (once : ∀ s ∈ slots, (names members).count (some s.name) ≤ 1) (seen : List String) (b : α)
    (fresh : ∀ s ∈ slots, s.name ∈ seen → some s.name ∉ names members) :
    ∃ seen' b', shape.readMembers (Script.memberNodes members) seen b = .ok (seen', b') ∧
      (∀ s ∈ slots, s.name ∈ seen ∨ some s.name ∈ names members → s.name ∈ seen') ∧
      Takes slots (names members) a b b' := by
  induction members generalizing seen b with
  | nil =>
    refine ⟨seen, b, by rw [Script.memberNodes, Shape.readMembers_nil], ?_, .refl slots a b⟩
    exact fun s _ hs => hs.resolve_right List.not_mem_nil
  | cons m rest ih =>
    obtain ⟨k, d⟩ := m
    obtain ⟨name, hname⟩ : ∃ name, k.name? = some name :=
      Option.ne_none_iff_exists'.mp fun hnone => readable (hnone ▸ List.mem_cons_self)
    have more := ih (fun hmem => readable (List.mem_cons_of_mem _ hmem))
      (fun s hs m hm => spelled s hs m (List.mem_cons_of_mem _ hm))
      (fun s hs => Nat.le_trans List.count_le_count_cons (once s hs))
    rw [Script.memberNodes]
    by_cases hknown : ∃ s ∈ slots, s.name = name
    · obtain ⟨s, hs, rfl⟩ := hknown
      have hseen : s.name ∉ seen := fun hmem => fresh s hs hmem (hname ▸ List.mem_cons_self)
      have hspells : ∀ t ∈ slots, t.name = s.name → t.Spells a d := fun t ht heq =>
        spelled t ht (k, d) List.mem_cons_self (heq ▸ hname)
      obtain ⟨b₁, htakes, hread⟩ := h.readMembers_known hs hname hspells
        (Script.memberNodes rest) hseen b
      have hlast : some s.name ∉ names rest := by
        have count : (k.name? :: names rest).count (some s.name) ≤ 1 := once s hs
        rw [hname, List.count_cons_self] at count
        exact List.count_eq_zero.mp (by omega)
      obtain ⟨seen', b', hrest, hseen', htakes'⟩ := more (s.name :: seen) b₁ <| by
        intro t ht hmem
        rcases List.mem_cons.mp hmem with heq | hmem
        · rw [heq]
          exact hlast
        · exact fun hagain => fresh t ht hmem (List.mem_cons_of_mem _ hagain)
      refine ⟨seen', b', hread.trans hrest, fun t ht hgiven => hseen' t ht ?_,
        htakes.trans htakes'⟩
      rcases hgiven with hmem | hmem
      · exact .inl (List.mem_cons_of_mem _ hmem)
      · rcases List.mem_cons.mp hmem with heq | hmem
        · exact .inl (Option.some.inj (heq.trans hname) ▸ List.mem_cons_self)
        · exact .inr hmem
    · have hunknown : ∀ s ∈ slots, s.name ≠ name := fun s hs heq => hknown ⟨s, hs, heq⟩
      have other : ∀ s ∈ slots, some s.name ∈ names ((k, d) :: rest) → some s.name ∈ names rest := by
        intro s hs hmem
        refine (List.mem_cons.mp hmem).resolve_left fun heq => ?_
        exact hunknown s hs (Option.some.inj (heq.trans hname))
      obtain ⟨seen', b', hrest, hseen', htakes⟩ := more seen b fun s hs hmem hagain =>
        fresh s hs hmem (List.mem_cons_of_mem _ hagain)
      refine ⟨seen', b', ?_, fun s hs hgiven => hseen' s hs (hgiven.imp id (other s hs)), ?_⟩
      · rw [shape.readMembers_cons_unknown ((keyText_lexeme k).trans (by rw [hname]))
          (h.field?_eq_none hunknown) d.skip_node, hrest]
      · exact fun s hs => ⟨fun hmem => (htakes s hs).1 (other s hs hmem),
          fun hnot => (htakes s hs).2 fun hmem => hnot (List.mem_cons_of_mem _ hmem)⟩

/-- No field that must be given is missing where all that were left out have a default. -/
theorem missing?_eq_none {seen : List String}
    (hseen : ∀ s ∈ slots, s.required = true → s.name ∈ seen) : shape.missing? seen = none := by
  rw [Shape.missing?, Option.map_eq_none_iff, List.find?_eq_none]
  intro f hf hmissing
  obtain ⟨s, hs, hfits⟩ := exists_left h.fits hf
  rw [Bool.and_eq_true, Bool.not_eq_true', hfits.required, hfits.name] at hmissing
  have hmem := hseen s hs hmissing.1
  simp [hmem] at hmissing

theorem readObject_eq {a : α} {members : List (Key × Script)} (hm : Members slots a members) :
    shape.readObject (Script.memberNodes members) .closed = .ok a := by
  obtain ⟨seen, b, hread, hseen, htakes⟩ := h.readMembers_eq members hm.readable hm.spelled hm.once
    [] shape.start fun _ _ hmem => absurd hmem List.not_mem_nil
  have given (s : Slot α) (hs : s ∈ slots) (hr : s.required = true) : s.name ∈ seen := by
    refine hseen s hs (.inr (Classical.byContradiction fun hnot => ?_))
    obtain ⟨f, -, hfits⟩ := h.field?_eq_some hs
    rw [(hfits.default a (hm.omitted s hs hnot)).1] at hr
    cases hr
  have whole : b = a := by
    refine (h.ext a b fun s hs => ?_).symm
    by_cases hmem : some s.name ∈ names members
    · exact (htakes s hs).1 hmem
    · obtain ⟨f, -, hfits⟩ := h.field?_eq_some hs
      exact (htakes s hs).2 hmem a (hfits.default a (hm.omitted s hs hmem)).2
  simp only [Shape.readObject, hread, bind, Except.bind, Stop.check, h.missing?_eq_none given, whole]

/-- **Every document that stands for a record** reads as that record. -/
theorem read_eq {a : α} {d : Script} (hd : Spells slots a d) : shape.read d.node = .ok a := by
  match d with
  | .object _ _ members _ =>
    rw [Script.node]
    exact h.readObject_eq hd
  | .array _ _ items _ =>
    obtain ⟨b, hread, hsame, -⟩ := readItems_eq h.fits (fun _ hs => hs) h.distinct items hd 0
      shape.start fun _ _ _ hx => hx
    rw [Script.node]
    rw [h.ext a b hsame]
    exact hread
  | .leaf _ _ _ => exact hd.elim

/-- What was read of one member, if it and all after it were read. -/
theorem of_readMembers_cons {k : Key} {d : Script} {rest : List (Lexeme × Node)}
    {seen : List String} {b : α} {r : List String × α}
    (hread : shape.readMembers ((k.lexeme, d.node) :: rest) seen b = .ok r) :
    (shape.readMembers rest seen b = .ok r ∧ ∀ s ∈ slots, k.name? ≠ some s.name) ∨
      ∃ s ∈ slots, ∃ set : α → α, k.name? = some s.name ∧ s.name ∉ seen ∧
        (∀ t ∈ slots, t.name = s.name → ¬ t.Flawed d) ∧
        shape.readMembers rest (s.name :: seen) (set b) = .ok r := by
  rw [Shape.readMembers, keyText_lexeme] at hread
  cases hname : k.name? with
  | none =>
    rw [hname] at hread
    cases hread
  | some name =>
    rw [hname] at hread
    by_cases hknown : ∃ s ∈ slots, s.name = name
    · obtain ⟨s, hs, rfl⟩ := hknown
      obtain ⟨f, hf, hfits⟩ := h.field?_eq_some hs
      simp only [bind, Except.bind, hf] at hread
      split at hread
      · cases hread
      · rename_i hseen
        cases hset : f.read d.node with
        | error p =>
          rw [hset] at hread
          cases hread
        | ok set =>
          rw [hset] at hread
          refine .inr ⟨s, hs, set, rfl, by simpa using hseen, fun t ht heq hflawed => ?_, hread⟩
          obtain ⟨g, hg, htfits⟩ := h.field?_eq_some ht
          rw [heq, hf] at hg
          obtain ⟨p, hp⟩ := htfits.flawed d hflawed
          rw [← Option.some.inj hg, hset] at hp
          cases hp
    · have hunknown : ∀ s ∈ slots, s.name ≠ name := fun s hs heq => hknown ⟨s, hs, heq⟩
      simp only [bind, Except.bind, h.field?_eq_none hunknown, d.skip_node] at hread
      exact .inl ⟨hread, fun s hs heq => hunknown s hs (Option.some.inj heq).symm⟩

/-- **Members that were read** break no rule. The induction is on the members; what was seen of
fields before a member decides whether it may stand there. -/
theorem cleared_of_readMembers {members : List (Key × Script)} {seen seen' : List String} {b b' : α}
    (hread : shape.readMembers (Script.memberNodes members) seen b = .ok (seen', b')) :
    Cleared slots members seen seen' := by
  induction members generalizing seen b with
  | nil =>
    rw [Script.memberNodes, Shape.readMembers_nil] at hread
    cases hread
    exact .nil slots _
  | cons m rest ih =>
    obtain ⟨k, d⟩ := m
    rw [Script.memberNodes] at hread
    obtain ⟨hrest, hunknown⟩ | ⟨s, hs, set, hname, hseen, hd, hrest⟩ := h.of_readMembers_cons hread
    · exact (ih hrest).pass d hunknown
    · exact (ih hrest).take hname hseen hd

theorem not_flawedMembers {members : List (Key × Script)} {a : α}
    (hread : shape.readObject (Script.memberNodes members) .closed = .ok a) :
    ¬ FlawedMembers slots members := by
  rw [Shape.readObject] at hread
  cases hmembers : shape.readMembers (Script.memberNodes members) [] shape.start with
  | error p =>
    rw [hmembers] at hread
    cases hread
  | ok r =>
    obtain ⟨seen, b⟩ := r
    simp only [hmembers, bind, Except.bind, Stop.check] at hread
    have cleared := h.cleared_of_readMembers hmembers
    intro hflawed
    cases hflawed with
    | repeated hs hcount => exact absurd (cleared.once _ hs) (Nat.not_le.mpr hcount)
    | within hs hm hname hd => exact cleared.sound _ hs _ hm hname hd
    | @lacking s hs hr hnot =>
      have hseen : s.name ∉ seen := fun hmem =>
        (cleared.given _ hmem).elim List.not_mem_nil hnot
      obtain ⟨f, hf, hfits⟩ := exists_right h.fits hs
      have hmissing : (shape.missing? seen).isSome = true := by
        rw [Shape.missing?, Option.isSome_map, List.find?_isSome]
        refine ⟨f, hf, ?_⟩
        rw [hfits.required, hfits.name, hr]
        simpa using hseen
      obtain ⟨name, hname⟩ := Option.isSome_iff_exists.mp hmissing
      rw [hname] at hread
      cases hread

/-- **No document that breaks a rule** is read. -/
theorem read_error {d : Script} (hd : Flawed slots d) : ∃ p, shape.read d.node = .error p := by
  match d with
  | .object _ _ members _ =>
    rw [Script.node]
    cases hread : shape.readObject (Script.memberNodes members) .closed with
    | error p => exact ⟨p, hread⟩
    | ok a => exact absurd hd (h.not_flawedMembers hread)
  | .array _ _ items _ =>
    rw [Script.node]
    exact readItems_error hd h.fits 0 shape.start
  | .leaf _ _ _ => exact hd.elim

end Describes

/-! ## Parts -/

/-- A reader gets from a document what the document stands for. -/
def Reads {β : Type} (r : Reader β) (spells : β → Script → Prop) : Prop :=
  ∀ b d, spells b d → r d.node = .ok b

/-- A reader gets nothing from a document that breaks a rule. -/
def Refuses {β : Type} (r : Reader β) (flawed : Script → Prop) : Prop :=
  ∀ d, flawed d → ∃ p, r d.node = .error p

theorem Describes.reads {slots : List (Slot α)} {shape : Shape α} (h : Describes slots shape) :
    Reads shape.read (Spells slots) := fun _ _ hd => h.read_eq hd

/-- A record reads back from the text that it is written as. -/
theorem Describes.readText_render {slots : List (Slot α)} {shape : Shape α}
    (h : Describes slots shape) {a : α} {v : Value}
    (hv : ∃ d : Script, d.chars = v.chars ∧ Spells slots a d) :
    readText shape.read v.render = .ok a := by
  obtain ⟨d, hchars, hd⟩ := hv
  rw [Value.render, ← hchars]
  exact (d.readText_text shape.read).trans (h.read_eq hd)

theorem Describes.refuses {slots : List (Slot α)} {shape : Shape α} (h : Describes slots shape) :
    Refuses shape.read (Flawed slots) := fun _ hd => h.read_error hd

/-- **A field that is one part** of a record. -/
theorem fits_part {slots : List (Slot α)} {start : α} {β : Type} {name : String}
    {default? : Option β} {get : α → β} {set : β → α → α} {r : Reader β}
    {spells : β → Script → Prop} {flawed : Script → Prop}
    (hstart : default? = some (get start) ∨ default? = none) (hreads : Reads r spells)
    (hrefuses : Refuses r flawed) (hget : ∀ b a, get (set b a) = b)
    (hkeeps : ∀ t ∈ slots, t.name ≠ name → ∀ b a a', t.Same a a' → t.Same a (set b a')) :
    Fits slots start (.part name default? get spells flawed)
      (.setting name default?.isNone r set) where
  name := rfl
  required := rfl
  default a ha := by
    have hsome : default? = some (get a) := ha
    refine ⟨by rw [hsome]; rfl, ?_⟩
    rcases hstart with hstart | hnone
    · exact Option.some.inj (hsome.symm.trans hstart)
    · cases hsome.symm.trans hnone
  spells a d hd := by
    refine ⟨set (get a), ?_, fun b => (hget _ b).symm⟩
    show (r d.node).map set = _
    rw [hreads (get a) d hd]
    rfl
  keeps n set' hset t ht hne a b hsame := by
    have hmap : (r n).map set = .ok set' := hset
    cases hr : r n with
    | error p =>
      rw [hr] at hmap
      cases hmap
    | ok v =>
      rw [hr] at hmap
      cases hmap
      exact hkeeps t ht hne v a b hsame
  flawed d hd := by
    obtain ⟨p, hp⟩ := hrefuses d hd
    refine ⟨p, ?_⟩
    show (r d.node).map set = _
    rw [hp]
    rfl

end Record

/-! ## Values without parts, options and lists -/

namespace Script

theorem IsAtom.node_eq {a : Atom} {d : Script} (h : d.IsAtom a) :
    ∃ isText, d.node = .atom ⟨isText, none, .ok a⟩ := by
  obtain ⟨before, l, after, rfl, ha⟩ := h
  refine ⟨l.isText, ?_⟩
  rw [node, Leaf.lexeme, ha]
  rfl

end Script

namespace Record

open Script

theorem refuses_nothing {β : Type} (r : Reader β) : Refuses r fun _ => False :=
  fun _ hd => hd.elim

theorem fits_plain {α β : Type} {slots : List (Slot α)} {start : α} {name : String}
    {default? : Option β} {get : α → β} {set : β → α → α} {r : Reader β}
    {spells : β → Script → Prop} (hstart : default? = some (get start) ∨ default? = none)
    (hreads : Reads r spells) (hget : ∀ b a, get (set b a) = b)
    (hkeeps : ∀ t ∈ slots, t.name ≠ name → ∀ b a a', t.Same a a' → t.Same a (set b a')) :
    Fits slots start (.plain name default? get spells)
      (.setting name default?.isNone r set) :=
  fits_part hstart hreads (refuses_nothing r) hget hkeeps

theorem reads_bool : Reads .bool IsBool := by
  intro b d hd
  obtain ⟨_, hnode⟩ := hd.node_eq
  rw [hnode]
  rfl

theorem reads_textAs (expected : String) : Reads (.textAs expected) IsText := by
  intro s d hd
  obtain ⟨_, hnode⟩ := hd.node_eq
  rw [hnode]
  rfl

/-- A text is not read from null. -/
theorem textAs_null_ne (expected : String) (l : Lexeme) (s : String) (hl : l.read = .ok .null) :
    Reader.textAs expected (.atom l) ≠ .ok s := by
  intro h
  unfold Reader.textAs at h
  split at h
  · rename_i heq
    cases heq
    cases hl
  · cases h

theorem intBetween_eq {low high n : Int} {expected : String} {d : Script} (hd : d.IsInt n)
    (hlow : low ≤ n) (hhigh : n ≤ high) : Reader.intBetween low high expected d.node = .ok n := by
  obtain ⟨_, hnode⟩ := hd.node_eq
  rw [hnode]
  exact if_pos ⟨hlow, hhigh⟩

/-- An unsigned number of some size. -/
theorem reads_unsigned {β : Type} {size : Nat} {expected : String} {ofNat : Nat → β}
    {toNat : β → Nat} (hlt : ∀ b, toNat b < size) (hof : ∀ b, ofNat (toNat b) = b) :
    Reads (fun n => (Reader.intBetween 0 (size - 1) expected n).map fun i => ofNat i.toNat)
      fun b => IsInt (toNat b) := by
  intro b d hd
  have bound := hlt b
  show (Reader.intBetween 0 (size - 1) expected d.node).map _ = _
  rw [intBetween_eq hd (by omega) (by omega)]
  exact congrArg Except.ok (hof b)

theorem reads_uint16 : Reads .uint16 fun n : UInt16 => IsInt n.toNat :=
  reads_unsigned UInt16.toNat_lt fun _ => UInt16.ofNat_toNat

theorem reads_uint32 : Reads .uint32 fun n : UInt32 => IsInt n.toNat :=
  reads_unsigned UInt32.toNat_lt fun _ => UInt32.ofNat_toNat

theorem reads_uint64 : Reads .uint64 fun n : UInt64 => IsInt n.toNat :=
  reads_unsigned UInt64.toNat_lt fun _ => UInt64.ofNat_toNat

theorem reads_int64 : Reads .int64 fun n : Int64 => IsInt n.toInt := by
  intro n d hd
  rw [Reader.int64, intBetween_eq hd n.minValue_le_toInt n.toInt_le]
  exact congrArg Except.ok (Int64.ofInt_toInt n)

section

variable {β : Type} {r : Reader β} {spells : β → Script → Prop}

/-- A value or null, if the value is not read from null. -/
theorem reads_option (hreads : Reads r spells)
    (hnull : ∀ l b, l.read = .ok .null → r (.atom l) ≠ .ok b) :
    Reads (.option r) (IsOption spells) := by
  intro o d hd
  cases o with
  | none =>
    obtain ⟨_, hnode⟩ := IsAtom.node_eq hd
    rw [hnode]
    rfl
  | some b =>
    have hread := hreads b d hd
    unfold Reader.option
    split
    · rename_i hnode
      rw [hnode] at hread
      exact absurd hread (hnull _ b rfl)
    · rw [hread]
      rfl

theorem refuses_option {flawed : Script → Prop} (hrefuses : Refuses r flawed)
    (hatom : ∀ d l, flawed d → d.node ≠ .atom l) : Refuses (.option r) flawed := by
  intro d hd
  obtain ⟨p, hp⟩ := hrefuses d hd
  refine ⟨p, ?_⟩
  unfold Reader.option
  split
  · rename_i hnode
    exact absurd hnode (hatom d _ hd)
  · rw [hp]
    rfl

theorem items_eq (hreads : Reads r spells) {bs : List β} {ds : List Script}
    (h : List.Forall₂ spells bs ds) : Reader.items r (itemNodes ds) = .ok bs := by
  induction h with
  | nil =>
    rw [itemNodes]
    rfl
  | cons hd _ ih =>
    rw [itemNodes, Reader.items, hreads _ _ hd, ih]
    rfl

theorem reads_list (hreads : Reads r spells) : Reads (.list r) (IsList spells) := by
  intro bs d hd
  match d with
  | .array _ _ ds _ =>
    rw [node, Reader.list, items_eq hreads hd]
    rfl
  | .leaf _ _ _ => exact hd.elim
  | .object _ _ _ _ => exact hd.elim

end

/-- A record is not read from null. -/
theorem read_atom_ne {α : Type} (shape : Shape α) (l : Lexeme) (a : α) :
    shape.read (.atom l) ≠ .ok a := by
  intro h
  cases h

/-- A document that breaks a rule has parts. -/
theorem Flawed.node_ne_atom {α : Type} {slots : List (Slot α)} {d : Script} (hd : Flawed slots d)
    (l : Lexeme) : d.node ≠ .atom l := by
  match d with
  | .array _ _ _ _ =>
    rw [node]
    exact Node.noConfusion
  | .object _ _ _ _ =>
    rw [node]
    exact Node.noConfusion
  | .leaf _ _ _ => exact hd.elim

end Record

end LogShipper.Json
