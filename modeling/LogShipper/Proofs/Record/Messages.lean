import Mathlib.Data.List.Nodup
import LogShipper.Layout

/-!
# What a record tells of an event

The values of an event are taken in one after the other. Most of them are texts, or are shown as
texts, and such a value is the message of the record if its name says so. Numbers of at most 64
bits, truth values and errors go by their type alone: they become fields whatever their name is. A
message that is one of them is found among the fields, and the record has none.

Covers `from_event` and the visitor under it.

Results:
* `FieldValue.toJson?_eq_some_iff`: what a value becomes as a field.
* `Fields.mem_ofList`: fields with distinct names are kept, all of them.
* `foldl_addValue`: what values make of a record, one after the other.
* `message_of_some`, `mem_fields_iff`: the message and the fields of an event's record.
* `message_kept_iff`: what a record tells of an event, and which messages it keeps.
* `message_lost`: a message that is a number.
-/

namespace LogShipper

open Decimal (Binary64)

/-! ## Values as texts and as fields -/

namespace FieldValue

/-- Whether a value goes by its type, whatever its name is. -/
def isTyped : FieldValue → Bool
  | .error _ | .int _ | .float _ | .bool _ => true
  | _ => false

/-- What a value says that has no form of its own among fields. -/
inductive Says : FieldValue → String → Prop
  | text (s : String) : Says (.text s) s
  | quoted (s : String) : Says (.quoted s) (Text.quoted s)
  | bytes (bs : Bytes) : Says (.bytes bs) (bytesText bs)
  | wide (n : Int) : Says (.wide n) (String.ofList (Json.intChars n))
  | error (message : String) : Says (.error message) message
  | special {x : Binary64} (h : x.isFinite = false) : Says (.float x) (specialText x)

/-- What a value becomes as a field: a number or a truth value is itself, all else is a text. -/
inductive Shows : FieldValue → Json.Value → Prop
  | int (n : Int) : Shows (.int n) (.int n)
  | float {x : Binary64} (h : x.isFinite = true) : Shows (.float x) (.float x)
  | bool (b : Bool) : Shows (.bool b) (.bool b)
  | text {v : FieldValue} {s : String} (h : v.Says s) : Shows v (.text s)

variable {v : FieldValue} {s : String} {j : Json.Value}

theorem spoken?_eq_some_iff : v.spoken? = some s ↔ v.Says s ∧ v.isTyped = false := by
  constructor
  · intro h
    cases v <;> cases h <;> exact ⟨by constructor, rfl⟩
  · rintro ⟨h, htyped⟩
    cases h <;> first | rfl | cases htyped

theorem spoken?_eq_none_iff : v.spoken? = none ↔ v.isTyped = true ∨ v = .absent := by
  cases v <;> simp [spoken?, isTyped]

theorem toJson?_eq_some_iff : v.toJson? = some j ↔ v.Shows j := by
  constructor
  · intro h
    cases v with
    | float x =>
      rw [toJson?] at h
      cases hx : x.isFinite with
      | true =>
        rw [hx, if_pos rfl] at h
        cases h
        exact .float hx
      | false =>
        rw [hx, if_neg Bool.false_ne_true] at h
        cases h
        exact .text (.special hx)
    | int n => cases h; exact .int n
    | bool b => cases h; exact .bool b
    | absent => cases h
    | _ => cases h; exact .text (by constructor)
  · intro h
    cases h with
    | float hx => rw [toJson?, if_pos hx]
    | text htext =>
      cases htext with
      | special hx => rw [toJson?, hx, if_neg Bool.false_ne_true]
      | _ => rfl
    | _ => rfl

/-- Every value is shown, and in one way only, unless it is none at all. -/
theorem exists_shows_iff : (∃ j, v.Shows j ∧ ∀ j', v.Shows j' → j' = j) ↔ v ≠ .absent := by
  simp only [← toJson?_eq_some_iff]
  cases v with
  | absent => exact iff_of_false (fun ⟨j, h, _⟩ => nomatch h) (fun h => h rfl)
  | _ => exact iff_of_true ⟨_, rfl, fun j' h => (Option.some.inj h).symm⟩ nofun

end FieldValue

/-! ## Fields with distinct names -/

namespace Fields

variable {l : List (String × Json.Value)} {name : String} {j : Json.Value}

/-- Of the values of one name the last one counts. The induction is on the values without the last
one. -/
theorem lookup_ofList (l : List (String × Json.Value)) (name : String) :
    List.lookup name (ofList l) = List.lookup name l.reverse := by
  induction h : l.reverse generalizing l with
  | nil => rw [List.reverse_eq_nil_iff.mp h]; rfl
  | cons f rest ih =>
    obtain rfl : l = rest.reverse ++ [f] := by
      rw [← List.reverse_reverse l, h, List.reverse_cons]
    have hstep : ofList (rest.reverse ++ [f]) = (ofList rest.reverse).insert f.1 f.2 := by
      rw [ofList, List.foldl_append]
      rfl
    rw [hstep, lookup_insert, ih _ (List.reverse_reverse rest), lookup_cons]

/-- Where names are distinct, looking a name up is finding it. -/
theorem lookup_eq_some_iff (h : (l.map Prod.fst).Nodup) :
    List.lookup name l = some j ↔ (name, j) ∈ l := by
  induction l with
  | nil => simp
  | cons f rest ih =>
    obtain ⟨n, v⟩ := f
    obtain ⟨hn, hrest⟩ := List.nodup_cons.mp h
    rw [lookup_cons, List.mem_cons, Prod.mk.injEq]
    by_cases heq : name = n
    · have hnot : (name, j) ∉ rest := fun hmem => hn (List.mem_map.mpr ⟨_, hmem, heq⟩)
      simp [heq ▸ hnot, heq, eq_comm]
    · simp [heq, ih hrest]

theorem Sorted.nodup {fs : Fields} (h : fs.Sorted) : (fs.map Prod.fst).Nodup := by
  rw [List.Nodup, List.pairwise_map]
  refine h.imp fun hlt heq => ?_
  rw [heq] at hlt
  exact String.lt_irrefl _ hlt

/-- **Fields with distinct names are kept**, all of them, and no others come in. -/
theorem mem_ofList (h : (l.map Prod.fst).Nodup) : (name, j) ∈ ofList l ↔ (name, j) ∈ l := by
  have hreverse : (l.reverse.map Prod.fst).Nodup := by
    rw [List.map_reverse]
    exact List.nodup_reverse.mpr h
  rw [← lookup_eq_some_iff (sorted_ofList l).nodup, lookup_ofList, lookup_eq_some_iff hreverse,
    List.mem_reverse]

end Fields

/-! ## What values make of a record -/

namespace Record

/-- The message that a value is. -/
def message? (f : String × FieldValue) : Option String :=
  if f.1 = messageName then f.2.spoken? else none

/-- The field that a value becomes. -/
def fieldOf? (f : String × FieldValue) : Option (String × Json.Value) :=
  if (message? f).isSome then none else f.2.toJson?.map fun j => (f.1, j)

theorem addValue_eq (r : Record) (f : String × FieldValue) :
    r.addValue f.1 f.2 =
      { r with
        message := (message? f).getD r.message
        fields := (fieldOf? f).elim r.fields fun g => r.fields.insert g.1 g.2 } := by
  obtain ⟨name, v⟩ := f
  by_cases hname : name = messageName <;> cases v <;>
    simp [addValue, message?, fieldOf?, FieldValue.spoken?, FieldValue.toJson?, hname]

/-- **What values make of a record**, one after the other. The induction is on the values. -/
theorem foldl_addValue (fs : List (String × FieldValue)) (r : Record) :
    fs.foldl (fun r f => r.addValue f.1 f.2) r =
      { r with
        message := (fs.filterMap message?).getLast?.getD r.message
        fields := (fs.filterMap fieldOf?).foldl (fun fs f => fs.insert f.1 f.2) r.fields } := by
  induction fs generalizing r with
  | nil => rfl
  | cons f fs ih =>
    rw [List.foldl_cons, ih, addValue_eq]
    cases hmessage : message? f <;> cases hfield : fieldOf? f <;>
      simp [hmessage, hfield, List.getLast?_cons]

variable {time : Timestamp} {e : Event} {name : String} {v : FieldValue} {j : Json.Value}

theorem fields_ofEvent (time : Timestamp) (e : Event) :
    (ofEvent time e).fields = Fields.ofList (e.fields.filterMap fieldOf?) := by
  rw [ofEvent, foldl_addValue]
  rfl

theorem message_ofEvent (time : Timestamp) (e : Event) :
    (ofEvent time e).message = (e.fields.filterMap message?).getLast?.getD "" := by
  rw [ofEvent, foldl_addValue]

/-! ## The record of an event -/

theorem mem_messages {m : String} : m ∈ e.fields.filterMap message? ↔
    ∃ v, (messageName, v) ∈ e.fields ∧ v.spoken? = some m := by
  rw [List.mem_filterMap]
  constructor
  · rintro ⟨⟨name, v⟩, hmem, hm⟩
    unfold message? at hm
    split at hm
    · rename_i hname
      exact ⟨v, hname ▸ hmem, hm⟩
    · cases hm
  · rintro ⟨v, hmem, hm⟩
    exact ⟨_, hmem, by rw [message?, if_pos rfl, hm]⟩

/-- Without a value that can be one there is no message. -/
theorem message_of_none (h : ∀ v, (messageName, v) ∈ e.fields → v.spoken? = none) :
    (ofEvent time e).message = "" := by
  have hnil : e.fields.filterMap message? = [] := by
    rw [List.eq_nil_iff_forall_not_mem]
    intro m hm
    obtain ⟨v, hmem, hspoken⟩ := mem_messages.mp hm
    rw [h v hmem] at hspoken
    cases hspoken
  rw [message_ofEvent, hnil]
  rfl

/-- A value that can be the message is it, if no other one has its name. -/
theorem message_of_some (h : (e.fields.map Prod.fst).Nodup) (hmem : (messageName, v) ∈ e.fields)
    {m : String} (hspoken : v.spoken? = some m) : (ofEvent time e).message = m := by
  cases hlast : (e.fields.filterMap message?).getLast? with
  | none =>
    rw [List.getLast?_eq_none_iff] at hlast
    exact absurd hlast (List.ne_nil_of_mem (mem_messages.mpr ⟨v, hmem, hspoken⟩))
  | some last =>
    obtain ⟨w, hw, hlastw⟩ := mem_messages.mp (List.mem_of_getLast? hlast)
    have hsame : (messageName, w) = (messageName, v) := List.inj_on_of_nodup_map h hw hmem rfl
    cases hsame
    rw [message_ofEvent, hlast]
    exact Option.some.inj (hlastw.symm.trans hspoken)

theorem isSome_message?_iff : (message? (name, v)).isSome = true ↔
    name = messageName ∧ v.isTyped = false ∧ v ≠ .absent := by
  by_cases hname : name = messageName <;> cases v <;>
    simp [message?, FieldValue.spoken?, FieldValue.isTyped, hname]

theorem fieldOf?_eq_some_iff {f : String × FieldValue} : fieldOf? f = some (name, j) ↔
    f.1 = name ∧ f.2.Shows j ∧ (name = messageName → f.2.isTyped = true) := by
  obtain ⟨n, v⟩ := f
  rw [← FieldValue.toJson?_eq_some_iff, fieldOf?]
  constructor
  · intro hfield
    split at hfield
    · cases hfield
    · rename_i hnot
      obtain ⟨_, hj, heq⟩ := Option.map_eq_some_iff.mp hfield
      cases heq
      refine ⟨rfl, hj, fun hname => ?_⟩
      cases htyped : v.isTyped with
      | true => rfl
      | false =>
        have hvalue : v ≠ .absent := by
          rintro rfl
          cases hj
        exact absurd (isSome_message?_iff.mpr ⟨hname, htyped, hvalue⟩) hnot
  · rintro ⟨rfl, hj, htyped⟩
    rw [if_neg, hj, Option.map_some]
    intro hmessage
    obtain ⟨hname, huntyped, -⟩ := isSome_message?_iff.mp hmessage
    rw [htyped hname] at huntyped
    cases huntyped

theorem nodup_names (h : (e.fields.map Prod.fst).Nodup) :
    ((e.fields.filterMap fieldOf?).map Prod.fst).Nodup := by
  rw [List.Nodup, List.pairwise_map] at h ⊢
  rw [List.pairwise_filterMap]
  refine h.imp fun hne first hfirst second hsecond => ?_
  obtain ⟨hname, -⟩ := fieldOf?_eq_some_iff.mp hfirst
  obtain ⟨hname', -⟩ := fieldOf?_eq_some_iff.mp hsecond
  rwa [← hname, ← hname']

/-- **The fields of an event's record**: all values but the message, and that too if it goes by its
type. -/
theorem mem_fields_iff (h : (e.fields.map Prod.fst).Nodup) :
    (name, j) ∈ (ofEvent time e).fields ↔
      ∃ v, (name, v) ∈ e.fields ∧ v.Shows j ∧ (name = messageName → v.isTyped = true) := by
  rw [fields_ofEvent, Fields.mem_ofList (nodup_names h), List.mem_filterMap]
  constructor
  · rintro ⟨⟨n, v⟩, hmem, hfield⟩
    obtain ⟨rfl, hv⟩ := fieldOf?_eq_some_iff.mp hfield
    exact ⟨v, hmem, hv⟩
  · rintro ⟨v, hmem, hv⟩
    exact ⟨(name, v), hmem, fieldOf?_eq_some_iff.mpr ⟨rfl, hv⟩⟩

/-- What a record tells of an event. -/
structure Tells (r : Record) (e : Event) : Prop where
  level : r.level = e.level
  target : r.target = e.target
  /-- The message is what the value of its name says, unless that goes by its type. -/
  message : ∀ v s, (messageName, v) ∈ e.fields → v.isTyped = false → v.Says s → r.message = s
  /-- There is no message if there is no such value, or if it goes by its type. -/
  silent : (∀ v, (messageName, v) ∈ e.fields → v.isTyped = true ∨ v = .absent) → r.message = ""
  /-- All other values are fields, and so is that of the message's name if it goes by its type. -/
  fields : ∀ name j, (name, j) ∈ r.fields ↔
    ∃ v, (name, v) ∈ e.fields ∧ v.Shows j ∧ (name = messageName → v.isTyped = true)
  /-- Names rise, so that none comes twice. -/
  sorted : r.fields.Sorted

theorem tells_ofEvent (time : Timestamp) (h : (e.fields.map Prod.fst).Nodup) :
    Tells (ofEvent time e) e := by
  constructor
  case level => rw [ofEvent, foldl_addValue]
  case target => rw [ofEvent, foldl_addValue]
  case message =>
    intro v s hmem htyped htext
    exact message_of_some h hmem (FieldValue.spoken?_eq_some_iff.mpr ⟨htext, htyped⟩)
  case silent =>
    exact fun hnone => message_of_none fun v hmem =>
      FieldValue.spoken?_eq_none_iff.mpr (hnone v hmem)
  case fields => exact fun _ _ => mem_fields_iff h
  case sorted =>
    rw [fields_ofEvent]
    exact Fields.sorted_ofList _

/-- **Which messages a record keeps**, for every event whose names are distinct. A message that does
not go by its type is the record's, and no field has its name. One that does is not: it is a field
of that name, the record has an empty message, and the raw layout ships nothing. All other values
are fields, each once; and a value is shown as a field in one way only, unless it is none at all. -/
theorem message_kept_iff (time : Timestamp) {e : Event} (h : (e.fields.map Prod.fst).Nodup) :
    Tells (ofEvent time e) e ∧
      (∀ v : FieldValue, (∃ j, v.Shows j ∧ ∀ j', v.Shows j' → j' = j) ↔ v ≠ .absent) ∧
      ((∀ j, (messageName, j) ∉ (ofEvent time e).fields) ↔
        ∀ v, (messageName, v) ∈ e.fields → v.isTyped = false) ∧
      ∀ v, (messageName, v) ∈ e.fields → v.isTyped = true →
        (ofEvent time e).message = "" ∧ Layout.raw.payload (ofEvent time e) = [] := by
  refine ⟨tells_ofEvent time h, fun _ => FieldValue.exists_shows_iff, ⟨?_, ?_⟩, ?_⟩
  · intro hnone v hmem
    cases htyped : v.isTyped with
    | false => rfl
    | true =>
      have hvalue : v ≠ .absent := by
        rintro rfl
        cases htyped
      obtain ⟨j, hj, -⟩ := FieldValue.exists_shows_iff.mpr hvalue
      exact absurd ((mem_fields_iff h).mpr ⟨v, hmem, hj, fun _ => htyped⟩) (hnone j)
  · intro huntyped j hj
    obtain ⟨v, hmem, -, htyped⟩ := (mem_fields_iff h).mp hj
    rw [huntyped v hmem] at htyped
    cases htyped rfl
  · intro v hmem htyped
    have hsilent : (ofEvent time e).message = "" := by
      refine message_of_none fun w hw => FieldValue.spoken?_eq_none_iff.mpr (.inl ?_)
      have hsame : (messageName, w) = (messageName, v) := List.inj_on_of_nodup_map h hw hmem rfl
      cases hsame
      exact htyped
    rw [Layout.payload_raw, hsilent]
    exact ⟨rfl, rfl⟩

/-- A message between fields of several types, one of them without a value. -/
theorem message_kept_among_numbers :
    let e : Event := {
      level := .info, target := "app"
      fields := [("n", .int 5), ("message", .quoted "hi"), ("ok", .bool true), ("gone", .absent),
        ("cause", .error "late"), ("wide", .wide 18446744073709551616)] }
    (e.fields.map Prod.fst).Nodup ∧ (ofEvent ⟨0, 0⟩ e).message = "\"hi\"" ∧
      (∀ j, (messageName, j) ∉ (ofEvent ⟨0, 0⟩ e).fields) ∧
      ("cause", .text "late") ∈ (ofEvent ⟨0, 0⟩ e).fields := by
  intro e
  have h : (e.fields.map Prod.fst).Nodup := by decide
  obtain ⟨htells, -, hkept, -⟩ := message_kept_iff ⟨0, 0⟩ h
  refine ⟨h, ?_, hkept.mpr ?_, ?_⟩
  · exact htells.message (.quoted "hi") _ (by simp [e, messageName]) rfl (.quoted "hi")
  · simp [e, messageName, FieldValue.isTyped]
  · rw [htells.fields]
    exact ⟨.error "late", by simp [e], .text (.error "late"), by decide⟩

/-- A message that is a number is not the record's, which has none: the number is a field, and the
raw layout ships nothing. -/
theorem message_lost :
    let r := ofEvent ⟨0, 0⟩ { level := .info, target := "app", fields := [("message", .int 5)] }
    r.message = "" ∧ r.fields = [("message", .int 5)] ∧ Layout.raw.payload r = [] :=
  ⟨rfl, rfl, rfl⟩

end Record

end LogShipper
