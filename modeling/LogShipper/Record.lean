import LogShipper.Json.Value
import LogShipper.Log
import LogShipper.Text.Bytes
import LogShipper.Timestamp

/-!
# Records and events

An `Event` is raised somewhere in a program: a level, a target, and named values of several kinds.
A `Record` is what is shipped of it. The value of the name `message` becomes the record's message
if it is a text or something shown as one; all other values become fields. Fields are sorted by
name; where a name comes twice the later value counts.

Covers `from_event` with `record_str`, `record_debug`, `record_i64`, `record_u64`, `record_bool`,
`record_f64` and `record_error`.

Results:
* `lookup_insert`: a field that is added replaces the one of its name, and no other.
* `sorted_insert`: fields stay sorted.
-/

namespace LogShipper

open Decimal (Binary64)

/-! ## Fields -/

/-- Named values, sorted by name. -/
abbrev Fields := List (String × Json.Value)

namespace Fields

/-- Adds a field, or replaces the one of its name. -/
def insert (name : String) (value : Json.Value) : Fields → Fields
  | [] => [(name, value)]
  | (n, v) :: rest =>
    if name < n then (name, value) :: (n, v) :: rest
    else if name = n then (name, value) :: rest
    else (n, v) :: insert name value rest

/-- The fields of a list of names and values. -/
def ofList (l : List (String × Json.Value)) : Fields :=
  l.foldl (fun fs f => fs.insert f.1 f.2) []

/-- Whether names strictly rise. -/
def Sorted (fs : Fields) : Prop := fs.Pairwise fun a b => a.1 < b.1

end Fields

/-! ## Events -/

/-- A value of an event. -/
inductive FieldValue where
  | text (s : String)
  /-- A text in its quoted form. -/
  | quoted (s : String)
  | bytes (bs : Bytes)
  /-- An integer of more than 64 bits. -/
  | wide (n : Int)
  /-- An error, by what it says. -/
  | error (message : String)
  | int (n : Int)
  | float (x : Binary64)
  | bool (b : Bool)
  /-- No value at all. -/
  | absent

namespace FieldValue

/-- Bytes in base sixteen, between brackets. -/
def bytesText (bs : Bytes) : String :=
  "[" ++ " ".intercalate (bs.map fun b => String.ofList (Text.hexByte b)) ++ "]"

/-- The text of a value that can be a message. -/
def spoken? : FieldValue → Option String
  | text s => some s
  | quoted s => some (Text.quoted s)
  | bytes bs => some (bytesText bs)
  | wide n => some (String.ofList (Json.intChars n))
  | _ => none

/-- The text of a number that is not finite. -/
def specialText (x : Binary64) : String :=
  if x.isNaN then "NaN" else if x.isNegative then "-inf" else "inf"

/-- The value as a field. -/
def toJson? : FieldValue → Option Json.Value
  | error message => some (.text message)
  | int n => some (.int n)
  | float x => some (if x.isFinite then .float x else .text (specialText x))
  | bool b => some (.bool b)
  | v => v.spoken?.map .text

end FieldValue

/-- Something that a program reports. -/
structure Event where
  level : Level
  target : String
  fields : List (String × FieldValue)

/-! ## Records -/

/-- What is shipped of an event. -/
structure Record where
  time : Timestamp
  level : Level
  target : String
  message : String
  fields : Fields

namespace Record

/-- The name whose value is the message. -/
def messageName : String := "message"

/-- Takes in one value of an event. -/
def addValue (r : Record) (name : String) (value : FieldValue) : Record :=
  match value.spoken?, value.toJson? with
  | some s, some v =>
    if name = messageName then { r with message := s }
    else { r with fields := r.fields.insert name v }
  | none, some v => { r with fields := r.fields.insert name v }
  | _, none => r

/-- The record of an event. -/
def ofEvent (time : Timestamp) (e : Event) : Record :=
  e.fields.foldl (fun r f => r.addValue f.1 f.2)
    { time, level := e.level, target := e.target, message := "", fields := [] }

end Record

/-! ## What adding a field does -/

namespace Fields

theorem lookup_cons (n other : String) (v : Json.Value) (rest : Fields) :
    List.lookup other ((n, v) :: rest) = if other = n then some v else List.lookup other rest := by
  by_cases h : other = n
  · simp [h]
  · rw [List.lookup_cons, beq_eq_false_iff_ne.mpr h, if_neg h]

/-- A field that is added replaces the one of its name, and no other. -/
theorem lookup_insert (fs : Fields) (name other : String) (value : Json.Value) :
    List.lookup other (fs.insert name value) =
      if other = name then some value else List.lookup other fs := by
  induction fs with
  | nil => exact lookup_cons name other value []
  | cons f rest ih =>
    obtain ⟨n, v⟩ := f
    rw [insert]
    split
    · rw [lookup_cons]
    · split
      · rename_i h
        subst h
        rw [lookup_cons, lookup_cons]
        split <;> rfl
      · rename_i h
        rw [lookup_cons, lookup_cons, ih]
        grind

theorem mem_insert {fs : Fields} {name : String} {value : Json.Value} {f : String × Json.Value}
    (h : f ∈ fs.insert name value) : f = (name, value) ∨ f ∈ fs := by
  induction fs with
  | nil => simpa [insert] using h
  | cons g rest ih =>
    obtain ⟨n, v⟩ := g
    rw [insert] at h
    split at h
    · simpa using h
    · split at h
      · rcases List.mem_cons.mp h with h | h
        · exact .inl h
        · exact .inr (List.mem_cons_of_mem _ h)
      · rcases List.mem_cons.mp h with rfl | h
        · exact .inr List.mem_cons_self
        · exact (ih h).imp id (List.mem_cons_of_mem _)

/-- Fields stay sorted. -/
theorem sorted_insert {fs : Fields} (name : String) (value : Json.Value) (h : fs.Sorted) :
    (fs.insert name value).Sorted := by
  unfold Sorted at h ⊢
  induction fs with
  | nil => simp [insert]
  | cons g rest ih =>
    obtain ⟨n, v⟩ := g
    obtain ⟨hn, hrest⟩ := List.pairwise_cons.mp h
    rw [insert]
    split
    · rename_i hlt
      refine List.pairwise_cons.mpr ⟨fun f hf => ?_, h⟩
      rcases List.mem_cons.mp hf with rfl | hf
      · exact hlt
      · exact String.lt_trans hlt (hn f hf)
    · rename_i hge
      split
      · rename_i heq
        subst heq
        exact List.pairwise_cons.mpr ⟨hn, hrest⟩
      · rename_i hne
        refine List.pairwise_cons.mpr ⟨fun f hf => ?_, ih hrest⟩
        rcases mem_insert hf with rfl | hf
        · apply Classical.byContradiction
          intro hnot
          exact hne (String.le_antisymm (String.not_lt.mp hnot) (String.not_lt.mp hge))
        · exact hn f hf

theorem sorted_ofList (l : List (String × Json.Value)) : (ofList l).Sorted := by
  unfold ofList
  have h : ∀ fs : Fields, fs.Sorted → (l.foldl (fun fs f => fs.insert f.1 f.2) fs).Sorted := by
    induction l with
    | nil => exact fun fs h => h
    | cons f rest ih => exact fun fs h => ih _ (sorted_insert f.1 f.2 h)
  exact h [] List.Pairwise.nil

end Fields

end LogShipper
