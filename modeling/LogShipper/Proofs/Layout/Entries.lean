import LogShipper.Layout
import LogShipper.Proofs.Json.Values
import LogShipper.Proofs.Text.Lines

/-!
# Entries read back

A record that is laid out as JSON is one object on one line, whatever its target, its message and
its fields are. Read back, the object has the members of an entry and no others, each once. Fields
stand in an object of their own, so that no name of a field is taken for one of them.

Covers `JsonLayout`.

Results:
* `visible_body`: an entry stands on one line.
* `exists_isEntry`: an entry has its members.
* `body_json_reads`: the bytes of an entry read back as the entry.
-/

namespace LogShipper

namespace Text

/-- Bytes below the space stand for control characters only. -/
theorem le_of_mem_utf8 {s : String} (h : Json.Visible s.toList) {b : UInt8} (hb : b ∈ utf8 s) :
    0x20 ≤ b.toNat := by
  rw [utf8_eq_flatMap] at hb
  obtain ⟨c, hc, hb⟩ := List.mem_flatMap.mp hb
  by_cases hsmall : b.toNat < 128
  · have heq : c.toNat = b.toNat := eq_of_mem_utf8Char hsmall hb
    exact heq ▸ h c hc
  · omega

theorem utf8_injective {s t : String} (h : utf8 s = utf8 t) : s = t :=
  Option.some.inj ((ofUtf8?_utf8 s).symm.trans ((congrArg ofUtf8? h).trans (ofUtf8?_utf8 t)))

end Text

namespace Layout

open Json (Value)

/-- What the members of an entry are. -/
structure IsEntry (service : Option String) (pid : Nat) (r : Record)
    (members : List (String × Value)) : Prop where
  names : members.map Prod.fst = ["timestamp", "level"] ++ service.toList.map (fun _ => "service") ++
    ["pid", "target", "message"] ++ (if r.fields = [] then [] else ["fields"])
  distinct : (members.map Prod.fst).Nodup
  timestamp : members.lookup "timestamp" = some (.text (r.time.text 6))
  level : members.lookup "level" = some (.text r.level.name)
  service : members.lookup "service" = service.map .text
  pid : members.lookup "pid" = some (.int pid)
  target : members.lookup "target" = some (.text r.target)
  message : members.lookup "message" = some (.text r.message)
  fields : members.lookup "fields" = if r.fields = [] then none else some (.object r.fields)

variable {service : Option String} {pid : Nat} {r : Record}

/-- An entry has its members. -/
theorem exists_isEntry (service : Option String) (pid : Nat) (r : Record) :
    ∃ members, object service pid r = .object members ∧ IsEntry service pid r members := by
  refine ⟨_, rfl, ?_⟩
  cases service <;> cases hfields : r.fields <;>
    constructor <;> simp [Fields.lookup_cons, hfields]

theorem isPlain_object (hpid : pid < UInt32.size) (hplain : (Value.object r.fields).isPlain = true) :
    (object service pid r).isPlain = true := by
  have hfits : (Value.int pid).isPlain = true := by
    rw [Value.isPlain, Bool.and_eq_true, decide_eq_true_iff, decide_eq_true_iff]
    have : UInt32.size = 4294967296 := rfl
    have : UInt64.size = 18446744073709551616 := rfl
    omega
  have htext (s : String) : (Value.text s).isPlain = true := by rw [Value.isPlain]
  unfold object
  cases service <;> cases hfields : r.fields <;> rw [hfields] at hplain <;>
    simp [Value.isPlain.eq_7, Json.membersPlain, htext, hfits, hplain]

/-- An entry stands on one line. -/
theorem visible_body {b : UInt8} (hb : b ∈ (json service pid).body r) : 0x20 ≤ b.toNat := by
  refine Text.le_of_mem_utf8 ?_ hb
  rw [Value.render, String.toList_ofList]
  exact Json.visible_chars _

/-- An entry is more than its message. -/
theorem body_ne_message : (json service pid).body r ≠ Text.utf8 r.message := by
  intro h
  obtain ⟨members, hobject, hentry⟩ := exists_isEntry service pid r
  have htext : (object service pid r).chars = r.message.toList := by
    have hrender : (object service pid r).render = r.message := Text.utf8_injective h
    rw [← hrender, Value.render, String.toList_ofList]
  have hmem : ("message", Value.text r.message) ∈ members := by
    obtain ⟨before, after, rfl, -⟩ := List.lookup_eq_some_iff.mp hentry.message
    exact List.mem_append_right _ List.mem_cons_self
  have hlonger := Json.length_toList_lt_textChars r.message
  have hshorter := Json.length_chars_lt_of_mem hmem
  rw [← hobject, htext, Value.chars] at hshorter
  exact absurd hshorter (by omega)

/-- **The bytes of an entry read back as the entry**, if its fields hold no floating-point number.
They stand on one line, and they are not the bare message. -/
theorem body_json_reads (service : Option String) (hpid : pid < UInt32.size)
    (hplain : (Value.object r.fields).isPlain = true) :
    (∀ b ∈ (json service pid).body r, 0x20 ≤ b.toNat) ∧
      (∃ s members, Text.ofUtf8? ((json service pid).body r) = some s ∧
        Json.readText Json.Reader.value s = .ok (.object members) ∧
        IsEntry service pid r members) ∧
      (json service pid).body r ≠ Text.utf8 r.message := by
  obtain ⟨members, hobject, hentry⟩ := exists_isEntry service pid r
  refine ⟨fun b hb => visible_body hb, ⟨_, members, Text.ofUtf8?_utf8 _, ?_, hentry⟩,
    body_ne_message⟩
  rw [← hobject]
  exact Json.readText_render (isPlain_object hpid hplain)

/-- A message with a line feed, a quote and a character beyond sixteen bits, a field named like a
member, and a value in a list in an object. -/
theorem body_json_reads_quoted :
    let r : Record := {
      time := ⟨0, 0⟩, level := .warn, target := "a::b", message := "say \"hi\"\n\\ 🚢"
      fields := [("deep", .object [("list", .array [.int (-3), .null, .array []])]),
        ("message", .text "\x01")] }
    (8 : Nat) < UInt32.size ∧ (Value.object r.fields).isPlain = true ∧
      (∀ b ∈ (json (some "svc") 8).body r, 0x20 ≤ b.toNat) ∧
      ∃ s members, Text.ofUtf8? ((json (some "svc") 8).body r) = some s ∧
        Json.readText Json.Reader.value s = .ok (.object members) ∧
        members.lookup "message" = some (.text r.message) ∧
        members.lookup "fields" = some (.object r.fields) := by
  intro r
  have hpid : (8 : Nat) < UInt32.size := by decide
  have hplain : (Value.object r.fields).isPlain = true := by decide
  obtain ⟨hline, ⟨s, members, hs, hread, hentry⟩, -⟩ := body_json_reads (some "svc") hpid hplain
  exact ⟨hpid, hplain, hline, s, members, hs, hread, hentry.message, hentry.fields⟩

end Layout

end LogShipper
