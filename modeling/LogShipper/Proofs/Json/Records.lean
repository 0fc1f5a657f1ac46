import LogShipper.Proofs.Json.Compact
import Mathlib.Data.List.Nodup

/-!
# The ways to write a record

A record may be written as an object, with its members in any order and others between them, or as
an array. A `Slot` says what one field of a record means, whatever reads it: which documents stand
for what a record holds in it, when it may be left out, and which documents break a rule. From the
slots of a record follows which documents stand for a record (`Record.Spells`) and which break a
rule (`Record.Flawed`): a field that must be given is left out, or a field is given twice.

Results:
* `Record.Members.perm`, `Record.Members.insert`: what may be done to the members of an object.
* `Record.exists_compact`: the JSON form of a record stands for it.
-/

namespace LogShipper.Json

/-- What a field of a record means. -/
structure Slot (α : Type) where
  name : String
  /-- Whether it must be given. -/
  required : Bool
  /-- Two records hold the same in it. -/
  Same : α → α → Prop
  /-- The record holds what a record holds where the field is left out. -/
  Default : α → Prop
  /-- The document stands for what the record holds. -/
  Spells : α → Script → Prop
  /-- The document breaks a rule. -/
  Flawed : Script → Prop

/-- A field that is one part of a record. Without a default it must be given. -/
@[simp]
def Slot.part {α β : Type} (name : String) (default? : Option β) (get : α → β)
    (spells : β → Script → Prop) (flawed : Script → Prop) : Slot α where
  name := name
  required := default?.isNone
  Same a b := get a = get b
  Default a := default? = some (get a)
  Spells a d := spells (get a) d
  Flawed := flawed

/-- A field with no rules of its own. -/
@[simp]
def Slot.plain {α β : Type} (name : String) (default? : Option β) (get : α → β)
    (spells : β → Script → Prop) : Slot α :=
  .part name default? get spells fun _ => False

namespace Record

variable {α : Type}

/-! ## Which documents stand for a record -/

/-- The names of members, as far as they can be read. -/
def names (members : List (Key × Script)) : List (Option String) := members.map (·.1.name?)

/-- The members of an object stand for a record. -/
structure Members (slots : List (Slot α)) (a : α) (members : List (Key × Script)) : Prop where
  readable : none ∉ names members
  spelled : ∀ s ∈ slots, ∀ m ∈ members, m.1.name? = some s.name → s.Spells a m.2
  once : ∀ s ∈ slots, (names members).count (some s.name) ≤ 1
  omitted : ∀ s ∈ slots, some s.name ∉ names members → s.Default a

/-- The items of an array stand for a record: fields in order, where those at the end may be left
out. -/
def Items (a : α) : List (Slot α) → List Script → Prop
  | slots, [] => ∀ s ∈ slots, s.Default a
  | [], _ :: _ => False
  | s :: slots, d :: ds => s.Spells a d ∧ Items a slots ds

/-- The document stands for a record. -/
def Spells (slots : List (Slot α)) (a : α) : Script → Prop
  | .object _ _ members _ => Members slots a members
  | .array _ _ items _ => Items a slots items
  | .leaf _ _ _ => False

/-- The members of an object break a rule. -/
inductive FlawedMembers (slots : List (Slot α)) (members : List (Key × Script)) : Prop where
  | lacking {s : Slot α} (hs : s ∈ slots) (hr : s.required = true)
      (h : some s.name ∉ names members)
  | repeated {s : Slot α} (hs : s ∈ slots) (h : 2 ≤ (names members).count (some s.name))
  | within {s : Slot α} {m : Key × Script} (hs : s ∈ slots) (hm : m ∈ members)
      (hn : m.1.name? = some s.name) (h : s.Flawed m.2)

/-- The items of an array break a rule. -/
inductive FlawedItems : List (Slot α) → List Script → Prop where
  | lacking {slots : List (Slot α)} {s : Slot α} (hs : s ∈ slots) (hr : s.required = true) :
      FlawedItems slots []
  | within {slots : List (Slot α)} {s : Slot α} {d : Script} {ds : List Script} (h : s.Flawed d) :
      FlawedItems (s :: slots) (d :: ds)
  | later {slots : List (Slot α)} {s : Slot α} {d : Script} {ds : List Script}
      (h : FlawedItems slots ds) : FlawedItems (s :: slots) (d :: ds)

/-- The document breaks a rule. -/
def Flawed (slots : List (Slot α)) : Script → Prop
  | .object _ _ members _ => FlawedMembers slots members
  | .array _ _ items _ => FlawedItems slots items
  | .leaf _ _ _ => False

/-! ## What may be done to the members of an object -/

namespace Members

variable {slots : List (Slot α)} {a : α} {members members' : List (Key × Script)}

/-- Members may come in any order. -/
theorem perm (h : Members slots a members) (hp : members.Perm members') :
    Members slots a members' := by
  have hnames : (names members).Perm (names members') := hp.map _
  constructor
  · exact fun hnone => h.readable (hnames.mem_iff.mpr hnone)
  · exact fun s hs m hm => h.spelled s hs m (hp.mem_iff.mpr hm)
  · exact fun s hs => (hnames.count_eq _) ▸ h.once s hs
  · exact fun s hs hnot => h.omitted s hs fun hmem => hnot (hnames.mem_iff.mp hmem)

/-- A member with an unknown name may be anything. -/
theorem insert (h : Members slots a members) {k : Key} {name : String} (hk : k.name? = some name)
    (hunknown : ∀ s ∈ slots, s.name ≠ name) (d : Script) :
    Members slots a ((k, d) :: members) := by
  have other : ∀ s ∈ slots, k.name? ≠ some s.name := by
    intro s hs heq
    exact hunknown s hs (Option.some.inj (heq.symm.trans hk))
  constructor
  · intro hnone
    rcases List.mem_cons.mp hnone with heq | hmem
    · cases heq.trans hk
    · exact h.readable hmem
  · intro s hs m hm hname
    rcases List.mem_cons.mp hm with rfl | hm
    · exact absurd hname (other s hs)
    · exact h.spelled s hs m hm hname
  · intro s hs
    show (k.name? :: names members).count _ ≤ 1
    rw [List.count_cons_of_ne (other s hs)]
    exact h.once s hs
  · exact fun s hs hnot => h.omitted s hs fun hmem => hnot (List.mem_cons_of_mem _ hmem)

end Members

/-! ## The JSON form -/

section Pairs

variable {β γ : Type} {R : β → γ → Prop} {bs : List β} {cs : List γ} (h : List.Forall₂ R bs cs)
include h

theorem exists_left {c : γ} (hc : c ∈ cs) : ∃ b ∈ bs, R b c := by
  induction h with
  | nil => cases hc
  | cons hr _ ih =>
    rcases List.mem_cons.mp hc with rfl | hc
    · exact ⟨_, List.mem_cons_self, hr⟩
    · obtain ⟨b, hb, hr⟩ := ih hc
      exact ⟨b, List.mem_cons_of_mem _ hb, hr⟩

theorem exists_right {b : β} (hb : b ∈ bs) : ∃ c ∈ cs, R b c := by
  obtain ⟨c, hc, hr⟩ := exists_left h.flip hb
  exact ⟨c, hc, hr⟩

end Pairs

/-- **The JSON form of a record** stands for it, if each member is named for a slot and stands for
what the record holds there. -/
theorem exists_compact {slots : List (Slot α)} {a : α} {members : List (String × Value)}
    (hdistinct : (slots.map (·.name)).Nodup)
    (h : List.Forall₂ (fun s m => m.1 = s.name ∧ ∃ d : Script, d.chars = m.2.chars ∧ s.Spells a d)
      slots members) :
    ∃ d : Script, d.chars = (Value.object members).chars ∧ Spells slots a d := by
  obtain ⟨ms, hms, hspelled⟩ := Script.exists_object h
  refine ⟨_, hms, ?_⟩
  have hnames : names ms = (slots.map (·.name)).map some := by
    clear hms h hdistinct
    induction hspelled with
    | nil => rfl
    | cons h _ ih => exact congrArg₂ List.cons h.1 ih
  constructor
  · rw [hnames]
    simp
  · intro s hs m hm hname
    obtain ⟨t, ht, hnamed, hspells⟩ := exists_left hspelled hm
    have same : s = t :=
      List.inj_on_of_nodup_map hdistinct hs ht (Option.some.inj (hname.symm.trans hnamed))
    rw [same]
    exact hspells
  · intro s _
    rw [hnames]
    exact List.nodup_iff_count_le_one.mp (hdistinct.map fun _ _ => Option.some.inj) _
  · intro s hs hnot
    rw [hnames] at hnot
    exact absurd (List.mem_map_of_mem (List.mem_map_of_mem hs)) hnot

end Record

end LogShipper.Json
