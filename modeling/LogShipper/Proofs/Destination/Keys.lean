import Mathlib.Data.List.Nodup
import LogShipper.Destination
import LogShipper.Proofs.Text.Trimming

/-!
# Lists of keys, written and read

The keys of a destination are written with commas between them. A text with commas is read as the
pieces between them, each trimmed, and the blank ones left out. So what is read can be written and
read again, and nothing changes any more. Just those keys survive being written that a text can
list: there is one, none is blank, and none holds a comma or has a blank end.

Covers `parse`, `has_duplicates` and the form in which a destination is shown.

Results:
* `ListsKeys.eq_pieces`: a text lists one list of keys only.
* `isNeat_of_mem_pieces`: what the listed keys look like.
* `pieces_display`: keys that look so are listed by the text that they are written as.
* `parse_eq`: a text that lists keys is the destination of these, and no other text is one.
* `parse_reads_back`: how keys are read from any text, and which destinations read back.
-/

namespace LogShipper.Destination

variable {s : String} {keys : List String} {d : Destination}

/-! ## Destinations of keys -/

/-- Records can be sent to keys of which there is one, and none is blank. -/
theorem ofKeys?_eq_ok_iff {keys : List String} {d : Destination} :
    ofKeys? keys = .ok d ↔ d.keys = keys ∧ d.IsValid := by
  refine ⟨fun h => ⟨keys_of_ofKeys? h, isValid_of_ofKeys? h⟩, ?_⟩
  rintro ⟨rfl, hvalid⟩
  rw [ofKeys?, if_neg hvalid.keys_ne_nil,
    List.findIdx?_eq_none_iff.mpr hvalid.keys_not_blank]

theorem result_ofKeys (keys : List String) : (ofKeys keys).result = ofKeys? keys := by
  unfold ofKeys
  cases ofKeys? keys <;> rfl

/-- Two positions hold one key. -/
theorem hasDuplicates_iff_exists : d.hasDuplicates = true ↔
    ∃ i j, i < j ∧ j < d.keys.length ∧ d.keys[i]? = d.keys[j]? := by
  rw [hasDuplicates_iff, List.nodup_iff_getElem?_ne_getElem?]
  simp only [not_forall, ne_eq, not_not, exists_prop]

/-! ## The keys that a text lists -/

/-- The pieces between commas are trimmed, and those that were blank are left out. -/
def ListsKeys (s : String) (keys : List String) : Prop :=
  ∃ cores, List.Forall₂ Text.Trims (s.toList.splitOn ',') cores ∧
    keys = (cores.filter (· != [])).map String.ofList

theorem splitCommas_eq_splitOn (cs : List Char) : splitCommas cs = cs.splitOn ',' := by
  induction cs with
  | nil => rfl
  | cons c cs ih =>
    rw [List.splitOn, List.splitOnP_cons_eq_if_modifyHead, ← List.splitOn, ← ih, splitCommas]
    by_cases hc : c = ','
    · simp [hc]
    · cases hcs : splitCommas cs with
      | nil =>
        rw [hcs] at ih
        exact absurd ih.symm (List.splitOn_ne_nil _ _)
      | cons p ps => simp [hc]

theorem listsKeys_pieces (s : String) : ListsKeys s (pieces s) := by
  refine ⟨(s.toList.splitOn ',').map Text.trim, ?_, ?_⟩
  · rw [List.forall₂_map_right_iff, List.forall₂_same]
    exact fun piece _ => Text.trims_trim piece
  · rw [pieces, splitCommas_eq_splitOn]

/-- A text lists one list of keys only. -/
theorem ListsKeys.eq_pieces {s : String} {keys : List String} (h : ListsKeys s keys) :
    keys = pieces s := by
  obtain ⟨cores, htrims, rfl⟩ := h
  rw [pieces, splitCommas_eq_splitOn, Text.eq_map_trim htrims]

theorem mem_pieces {k : String} : k ∈ pieces s ↔
    ∃ piece ∈ s.toList.splitOn ',', Text.trim piece ≠ [] ∧ k = String.ofList (Text.trim piece) := by
  simp only [pieces, splitCommas_eq_splitOn, List.mem_map, List.mem_filter, bne_iff_ne]
  constructor
  · rintro ⟨_, ⟨⟨piece, hpiece, rfl⟩, hne⟩, rfl⟩
    exact ⟨piece, hpiece, hne, rfl⟩
  · rintro ⟨piece, hpiece, hne, rfl⟩
    exact ⟨_, ⟨⟨piece, hpiece, rfl⟩, hne⟩, rfl⟩

/-- A text lists keys if one of its pieces is not blank. -/
theorem pieces_ne_nil_iff : pieces s ≠ [] ↔
    ∃ piece ∈ s.toList.splitOn ',', ∃ c ∈ piece, Text.isBlank c = false := by
  constructor
  · intro hne
    obtain ⟨k, hk⟩ := List.exists_mem_of_ne_nil _ hne
    obtain ⟨piece, hpiece, hcore, -⟩ := mem_pieces.mp hk
    exact ⟨piece, hpiece, Text.trim_ne_nil_iff.mp hcore⟩
  · rintro ⟨piece, hpiece, hblank⟩
    exact List.ne_nil_of_mem (mem_pieces.mpr ⟨piece, hpiece, Text.trim_ne_nil_iff.mpr hblank, rfl⟩)

/-! ## Keys that can be listed -/

/-- A key that can stand between commas. -/
structure IsNeat (k : String) : Prop where
  not_blank : Text.isBlankText k = false
  no_comma : ',' ∉ k.toList
  starts_clean : ∀ c ∈ k.toList.head?, Text.isBlank c = false
  ends_clean : ∀ c ∈ k.toList.getLast?, Text.isBlank c = false

theorem IsNeat.trim_eq {k : String} (h : IsNeat k) : Text.trim k.toList = k.toList :=
  Text.trim_of_clean h.starts_clean h.ends_clean

theorem IsNeat.toList_ne_nil {k : String} (h : IsNeat k) : k.toList ≠ [] := by
  intro hnil
  have hblank := h.not_blank
  rw [Text.isBlankText, hnil] at hblank
  cases hblank

/-- No comma is left in a piece between commas. The induction is on the text. -/
theorem not_mem_of_mem_splitOn {cs piece : List Char} (h : piece ∈ cs.splitOn ',') :
    ',' ∉ piece := by
  induction cs generalizing piece with
  | nil => simp_all
  | cons c cs ih =>
    obtain ⟨first, rest, hsplit⟩ := List.exists_cons_of_ne_nil (List.splitOn_ne_nil ',' cs)
    rw [List.splitOn_cons_eq_if_modifyHead, hsplit] at h
    rw [hsplit] at ih
    by_cases hc : c = ','
    · rw [hc, beq_self_eq_true, if_pos rfl, List.mem_cons] at h
      rcases h with rfl | h
      · exact List.not_mem_nil
      · exact ih h
    · rw [beq_eq_false_iff_ne.mpr hc, if_neg Bool.false_ne_true, List.modifyHead_cons,
        List.mem_cons] at h
      rcases h with rfl | h
      · rw [List.mem_cons, not_or]
        exact ⟨Ne.symm hc, ih List.mem_cons_self⟩
      · exact ih (List.mem_cons_of_mem _ h)

/-- **What the listed keys look like.** -/
theorem isNeat_of_mem_pieces {k : String} (h : k ∈ pieces s) : IsNeat k := by
  obtain ⟨piece, hpiece, hne, rfl⟩ := mem_pieces.mp h
  have htrims := Text.trims_trim piece
  refine ⟨?_, ?_, ?_, ?_⟩
  · obtain ⟨c, rest, hcore⟩ := List.exists_cons_of_ne_nil hne
    have hstart : Text.isBlank c = false := htrims.starts_clean c (by rw [hcore]; rfl)
    rw [Text.isBlankText, String.toList_ofList, hcore, List.all_cons, hstart, Bool.false_and]
  · rw [String.toList_ofList]
    exact fun hcomma => not_mem_of_mem_splitOn hpiece (Text.mem_of_mem_trim hcomma)
  · rw [String.toList_ofList]
    exact htrims.starts_clean
  · rw [String.toList_ofList]
    exact htrims.ends_clean

/-- **Keys that look so are listed** by the text that they are written as. -/
theorem pieces_display (hneat : ∀ k ∈ keys, IsNeat k) (hne : keys ≠ []) :
    pieces (display ⟨keys⟩) = keys := by
  have hsplit : (display ⟨keys⟩).toList.splitOn ',' = keys.map String.toList := by
    rw [display, String.toList_intercalate]
    refine List.splitOn_intercalate ',' (fun piece hpiece => ?_) ?_
    · obtain ⟨k, hk, rfl⟩ := List.mem_map.mp hpiece
      exact (hneat k hk).no_comma
    · simpa using hne
  have htrim : (keys.map String.toList).map Text.trim = keys.map String.toList := by
    rw [List.map_map]
    exact List.map_congr_left fun k hk => (hneat k hk).trim_eq
  have hfilter : (keys.map String.toList).filter (· != []) = keys.map String.toList := by
    rw [List.filter_eq_self]
    intro piece hpiece
    obtain ⟨k, hk, rfl⟩ := List.mem_map.mp hpiece
    exact bne_iff_ne.mpr (hneat k hk).toList_ne_nil
  rw [pieces, splitCommas_eq_splitOn, hsplit, htrim, hfilter, List.map_map]
  exact List.map_id'' (fun k => String.ofList_toList) keys

/-! ## Texts that are read -/

/-- Keys of which there is one, and that all look as they should, are those of a destination. -/
theorem ofKeys_eq (hneat : ∀ k ∈ keys, IsNeat k) (hne : keys ≠ []) :
    ofKeys keys = ⟨.ok ⟨keys⟩, notices ⟨keys⟩⟩ := by
  have hmade : ofKeys? keys = .ok ⟨keys⟩ :=
    ofKeys?_eq_ok_iff.mpr ⟨rfl, hne, fun k hk => (hneat k hk).not_blank⟩
  rw [ofKeys, hmade]

/-- **A text that lists keys is the destination of these**, with what is logged about it. -/
theorem parse_eq (hne : pieces s ≠ []) :
    parse s = ⟨.ok ⟨pieces s⟩, notices ⟨pieces s⟩⟩ :=
  ofKeys_eq (fun _ => isNeat_of_mem_pieces) hne

/-- A text that lists none is refused for that, and nothing is logged. -/
theorem parse_eq_error (hnil : pieces s = []) :
    parse s = ⟨.error (.invalid "at least one destination key is required"), []⟩ := by
  rw [parse, hnil]
  rfl

theorem result_parse_iff : (parse s).result = .ok d ↔ d.keys = pieces s ∧ pieces s ≠ [] := by
  by_cases hnil : pieces s = []
  · rw [parse_eq_error hnil]
    exact iff_of_false nofun fun h => h.2 hnil
  · rw [parse_eq hnil]
    exact ⟨fun h => by cases h; exact ⟨rfl, hnil⟩, fun h => by rw [← h.1]⟩

/-- How keys are read from a text. -/
structure Reads (s : String) : Prop where
  /-- Keys are read if a piece between commas is not blank. -/
  succeeds : (∃ d, (parse s).result = .ok d) ↔
    ∃ piece ∈ s.toList.splitOn ',', ∃ c ∈ piece, Text.isBlank c = false
  /-- Else there is no key, which is the only thing that can be wrong. -/
  fails : (∀ d, (parse s).result ≠ .ok d) ↔
    parse s = ⟨.error (.invalid "at least one destination key is required"), []⟩
  /-- They are the trimmed pieces that are not blank, in order. -/
  keys : ∀ d, (parse s).result = .ok d → ListsKeys s d.keys
  neat : ∀ d, (parse s).result = .ok d → ∀ k ∈ d.keys, IsNeat k
  /-- What they are written as is read as they were, with the same notices. -/
  again : ∀ d, (parse s).result = .ok d → parse d.display = parse s

theorem reads (s : String) : Reads s := by
  have hread {d : Destination} (h : (parse s).result = .ok d) : d = ⟨pieces s⟩ ∧ pieces s ≠ [] := by
    obtain ⟨hkeys, hne⟩ := result_parse_iff.mp h
    exact ⟨by rw [← hkeys], hne⟩
  constructor
  case succeeds =>
    rw [← pieces_ne_nil_iff]
    exact ⟨fun ⟨_, h⟩ => (hread h).2, fun hne => ⟨_, result_parse_iff.mpr ⟨rfl, hne⟩⟩⟩
  case fails =>
    constructor
    · intro hnot
      refine parse_eq_error (Classical.not_not.mp fun hne => ?_)
      exact hnot ⟨pieces s⟩ (result_parse_iff.mpr ⟨rfl, hne⟩)
    · intro herror d h
      rw [herror] at h
      cases h
  case keys =>
    intro d h
    rw [(hread h).1]
    exact listsKeys_pieces s
  case neat =>
    intro d h
    rw [(hread h).1]
    exact fun _ => isNeat_of_mem_pieces
  case again =>
    intro d h
    obtain ⟨rfl, hne⟩ := hread h
    have hsame := pieces_display (fun _ => isNeat_of_mem_pieces) hne
    rw [parse, hsame]
    rfl

/-- **Keys are read as they were written**, whatever the text, and a destination reads back from
what it is written as if and only if there is a key and all of them can stand between commas. -/
theorem parse_reads_back (s : String) (d : Destination) :
    Reads s ∧
      ((parse d.display).result = .ok d ↔ d.keys ≠ [] ∧ ∀ k ∈ d.keys, IsNeat k) ∧
      (d.hasDuplicates = true ↔
        ∃ i j, i < j ∧ j < d.keys.length ∧ d.keys[i]? = d.keys[j]?) ∧
      ∀ c, Text.isBlank c = true ↔ c.toNat ∈ Text.whiteSpace := by
  refine ⟨reads s, ⟨fun h => ?_, fun ⟨hne, hneat⟩ => ?_⟩, hasDuplicates_iff_exists,
    fun _ => Text.isBlank_iff⟩
  · obtain ⟨hkeys, hne⟩ := result_parse_iff.mp h
    rw [hkeys]
    exact ⟨hne, fun _ => isNeat_of_mem_pieces⟩
  · rw [result_parse_iff, pieces_display hneat hne]
    exact ⟨rfl, hne⟩

/-- Blank pieces are left out, blanks inside a key and a key that comes again are not. -/
example : (parse "\u3000a b , ,b,,\ta b").result = .ok ⟨["a b", "b", "a b"]⟩ := by rfl

end LogShipper.Destination
