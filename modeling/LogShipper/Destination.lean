import LogShipper.Failure
import LogShipper.Log
import LogShipper.Text.Blank

/-!
# Destinations

The lists that every record is appended to, in order. A key may stand twice, and is then written
twice; this is nearly always a mistake and is logged.

Covers `new`, `parse`, `keys` and `has_duplicates`, and the form in which a destination is shown.

Results:
* `parse_keys`: the keys of a parsed text are its trimmed pieces that are not blank.
* `isValid_of_ofKeys?`: a destination has at least one key, and no blank one.
* `hasDuplicates_iff`: whether two positions hold one key.
-/

namespace LogShipper

/-- Keys of lists, at least one and none of them blank. -/
structure Destination where
  keys : List String
  deriving DecidableEq, Repr

namespace Destination

/-- Whether a key stands at two positions. -/
def repeats : List String → Bool
  | [] => false
  | k :: ks => ks.contains k || repeats ks

/-- Whether a key stands at two positions. -/
def hasDuplicates (d : Destination) : Bool := repeats d.keys

/-- The keys with commas between them. -/
def display (d : Destination) : String := ",".intercalate d.keys

/-- What is logged about a destination: that its keys repeat, if they do. -/
def notices (d : Destination) : List LogEntry :=
  if d.hasDuplicates then
    [{ level := .warn, source := .destination
       message := "Destination keys contain duplicates; records will be written more than once"
       fields := [("keys", d.display)] }]
  else []

/-- The destination of some keys, or why there is none. -/
def ofKeys? (keys : List String) : Except ConfigError Destination :=
  if keys = [] then .error (.invalid "at least one destination key is required")
  else match keys.findIdx? Text.isBlankText with
    | some i => .error (.invalid ("destination key at position " ++ Text.decimal i ++ " is empty"))
    | none => .ok ⟨keys⟩

/-- The destination of some keys, with what is logged about it. -/
def ofKeys (keys : List String) : Logged (Except ConfigError Destination) :=
  match ofKeys? keys with
  | .error e => ⟨.error e, []⟩
  | .ok d => ⟨.ok d, d.notices⟩

/-- The pieces of a text between commas. -/
def splitCommas : List Char → List (List Char)
  | [] => [[]]
  | c :: cs =>
    if c = ',' then [] :: splitCommas cs
    else match splitCommas cs with
      | [] => [[c]]
      | p :: ps => (c :: p) :: ps

/-- The trimmed pieces of a text between commas, the blank ones left out. -/
def pieces (s : String) : List String :=
  (((splitCommas s.toList).map Text.trim).filter fun p => p != []).map String.ofList

/-- The destination that a list of keys between commas stands for. -/
def parse (s : String) : Logged (Except ConfigError Destination) := ofKeys (pieces s)

/-- The keys are those that a destination can be made with. -/
structure IsValid (d : Destination) : Prop where
  keys_ne_nil : d.keys ≠ []
  keys_not_blank : ∀ k ∈ d.keys, Text.isBlankText k = false

/-- Every destination that is made is valid. -/
theorem isValid_of_ofKeys? {keys : List String} {d : Destination} (h : ofKeys? keys = .ok d) :
    d.IsValid := by
  unfold ofKeys? at h
  split at h
  · cases h
  · rename_i hn
    split at h
    · cases h
    · rename_i hb
      cases h
      exact ⟨hn, List.findIdx?_eq_none_iff.mp hb⟩

theorem keys_of_ofKeys? {keys : List String} {d : Destination} (h : ofKeys? keys = .ok d) :
    d.keys = keys := by
  unfold ofKeys? at h
  split at h
  · cases h
  · split at h <;> cases h
    rfl

/-- The keys of a parsed text are its trimmed pieces that are not blank. -/
theorem parse_keys {s : String} {d : Destination} (h : (parse s).result = .ok d) :
    d.keys = pieces s := by
  apply keys_of_ofKeys?
  unfold parse ofKeys at h
  split at h
  · cases h
  · rename_i d' hd
    cases h
    exact hd

theorem repeats_iff {ks : List String} : repeats ks = true ↔ ¬ ks.Nodup := by
  induction ks with
  | nil => simp [repeats]
  | cons k ks ih => by_cases h : k ∈ ks <;> simp [repeats, h, ih]

/-- Whether two positions hold one key. -/
theorem hasDuplicates_iff {d : Destination} : d.hasDuplicates = true ↔ ¬ d.keys.Nodup :=
  repeats_iff

end Destination

end LogShipper
