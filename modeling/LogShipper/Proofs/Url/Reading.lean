import LogShipper.Proofs.Url.Hosts

/-!
# What a URL reads as

A client is handed the text of a URL and takes it apart again: it cuts the text at certain
characters, whatever they were meant for when it was written. The password stands in the middle of
the text and may be anything at all. As it is written it holds none of the characters that a text
is cut at, so the cuts fall where they would without it, and all parts but the password read as they
do for the same endpoint without one.

How clients read URLs is taken from the standard (`Parts.split?`), and only for texts whose parts
need no more treatment once they are cut out (`Parts.IsSettled`).

Covers `to_url`.

Results:
* `Address.split?_chars`: where the text of an address is cut.
* `Address.IsWritten.read_text`: how any standard reader reads the text of an address.
* `Endpoint.password_moves_nothing`: all parts but the password are the same with any password.
-/

namespace LogShipper

namespace Url

/-! ## Cuts -/

/-- A text up to the first separator, and what stands behind that if there is one. -/
def cut (sep : Char) : List Char → List Char × Option (List Char)
  | [] => ([], none)
  | c :: cs =>
    if c = sep then ([], some cs)
    else
      let (before, after) := cut sep cs
      (c :: before, after)

/-- A text up to the last separator, and what stands behind that; all of it where there is none. -/
def cutLast (sep : Char) (cs : List Char) : List Char × List Char :=
  let (after, before) := cut sep cs.reverse
  ((before.getD []).reverse, after.reverse)

/-- A text up to the first colon outside brackets, and what stands behind that. -/
def cutPort : Bool → List Char → List Char × Option (List Char)
  | _, [] => ([], none)
  | inside, c :: cs =>
    if c = ':' ∧ inside = false then ([], some cs)
    else
      let (before, after) := cutPort (c == '[' || inside && c != ']') cs
      (c :: before, after)

section Cuts

variable {sep : Char} {cs : List Char}

theorem cut_append (h : sep ∉ cs) (rest : List Char) :
    cut sep (cs ++ sep :: rest) = (cs, some rest) := by
  induction cs with
  | nil => exact if_pos rfl
  | cons c cs ih =>
    rw [List.mem_cons, not_or] at h
    rw [List.cons_append, cut, if_neg (Ne.symm h.1), ih h.2]

theorem cut_of_not_mem (h : sep ∉ cs) : cut sep cs = (cs, none) := by
  induction cs with
  | nil => rfl
  | cons c cs ih =>
    rw [List.mem_cons, not_or] at h
    rw [cut, if_neg (Ne.symm h.1), ih h.2]

theorem cutLast_append (h : sep ∉ cs) (before : List Char) :
    cutLast sep (before ++ sep :: cs) = (before, cs) := by
  have hreverse : (before ++ sep :: cs).reverse = cs.reverse ++ sep :: before.reverse := by simp
  rw [cutLast, hreverse, cut_append (by rwa [List.mem_reverse])]
  simp

theorem cutLast_of_not_mem (h : sep ∉ cs) : cutLast sep cs = ([], cs) := by
  rw [cutLast, cut_of_not_mem (by rwa [List.mem_reverse])]
  simp

theorem cutPort_outside (h : ∀ c ∈ cs, c ≠ ':' ∧ c ≠ '[') (rest : List Char) :
    cutPort false (cs ++ ':' :: rest) = (cs, some rest) := by
  induction cs with
  | nil => exact if_pos ⟨rfl, rfl⟩
  | cons c cs ih =>
    rw [List.forall_mem_cons] at h
    have hopen : (c == '[' || false && c != ']') = false := by simp [h.1.2]
    rw [List.cons_append, cutPort, if_neg fun hc => h.1.1 hc.1, hopen, ih h.2]

theorem cutPort_inside (h : ']' ∉ cs) (rest : List Char) :
    cutPort true (cs ++ ']' :: ':' :: rest) = (cs ++ [']'], some rest) := by
  induction cs with
  | nil => rfl
  | cons c cs ih =>
    rw [List.mem_cons, not_or] at h
    have hopen : (c == '[' || true && c != ']') = true := by simp [Ne.symm h.1]
    rw [List.cons_append, cutPort, if_neg fun hc => Bool.noConfusion hc.2, hopen, ih h.2]
    rfl

theorem cutPort_bracketed (h : ']' ∉ cs) (rest : List Char) :
    cutPort false ('[' :: (cs ++ ']' :: ':' :: rest)) = ('[' :: (cs ++ [']']), some rest) := by
  have hopen : ('[' == '[' || false && '[' != ']') = true := rfl
  rw [cutPort, if_neg fun hc => absurd hc.1 (by decide), hopen, cutPort_inside h]

end Cuts

/-! ## Parts -/

/-- What a URL is read as. -/
structure Parts where
  scheme : List Char
  username : List Char
  /-- The password as it is written. -/
  password : Option (List Char)
  host : Host
  port : Option UInt16
  path : List Char
  query : Option (List Char)
  fragment : Option (List Char)
  deriving DecidableEq

namespace Parts

/-- User name and password. An empty password is none. -/
def credentials (cs : List Char) : List Char × Option (List Char) :=
  let (username, password) := cut ':' cs
  (username, password.filter (! ·.isEmpty))

/-- The number of a port, if one is given. -/
def port? : List Char → Option (Option UInt16)
  | [] => some none
  | cs => do
    let n ← Text.digits? cs
    if n < 65536 then return some (UInt16.ofNat n) else none

/-- Host and port. -/
def place? (cs : List Char) : Option (Host × Option UInt16) :=
  let (host, port) := cutPort false cs
  match Host.parseUsed host, port? (port.getD []) with
  | .ok host, some port => some (host, port)
  | _, _ => none

/-- The parts of a text behind its scheme. The fragment stands behind the first hash, the query
behind the first question mark before that, the path behind the first slash before that, the
credentials in front of the last at sign before that. -/
def splitBehind? (scheme cs : List Char) : Option Parts :=
  let (rest, fragment) := cut '#' cs
  let (rest, query) := cut '?' rest
  let (authority, path) := cut '/' rest
  let (login, place) := cutLast '@' authority
  let (username, password) := credentials login
  (place? place).map fun (host, port) => {
    scheme
    username
    password
    host
    port
    path := (path.map ('/' :: ·)).getD []
    query
    fragment }

/-- The parts of a text: the scheme stands before the first colon, and two slashes behind it. -/
def split? (cs : List Char) : Option Parts :=
  match cut ':' cs with
  | (scheme, some ('/' :: '/' :: rest)) => splitBehind? scheme rest
  | _ => none

/-- The schemes that the standard has rules of their own for. -/
def specialSchemes : List (List Char) :=
  ["http", "https", "ws", "wss", "ftp", "file"].map String.toList

/-- Whether parts stand for themselves: the scheme is in lower case and not a special one, the host
is not empty, the path is a single segment, and nothing holds characters that are encoded anywhere,
nor, in the path, escapes and dots. -/
structure IsSettled (p : Parts) : Prop where
  scheme : p.scheme ≠ [] ∧ p.scheme ∉ specialSchemes ∧ ∀ c ∈ p.scheme, 'a' ≤ c ∧ c ≤ 'z'
  username : ∀ c ∈ p.username, isCredentialReserved c = false
  password : ∀ text ∈ p.password, ∀ c ∈ text, isCredentialReserved c = false
  host : p.host ≠ .name []
  path : ∃ segment, p.path = '/' :: segment ∧
    ∀ c ∈ segment, isCredentialReserved c = false ∧ c ≠ '%' ∧ c ≠ '.'
  query : ∀ text ∈ p.query, ∀ c ∈ text, isCredentialReserved c = false
  fragment : ∀ text ∈ p.fragment, ∀ c ∈ text, isCredentialReserved c = false

end Parts

/-- A reader of URLs that goes by the standard, as far as that is relied on: of a text without
controls it reads the parts that the text is cut into, if they stand for themselves. -/
def IsStandard (read : String → Option Parts) : Prop :=
  ∀ s p, Parts.split? s.toList = some p → (∀ c ∈ s.toList, isControl c = false) → p.IsSettled →
    read s = some p

/-! ## The parts of an address -/

/-- Characters that a number is written with are reserved nowhere. -/
theorem not_reserved_of_mem_toDigits {n : Nat} {c : Char} (hc : c ∈ Nat.toDigits 10 n) :
    isCredentialReserved c = false := by
  obtain ⟨x, hx⟩ := Text.hexValue?_of_mem_toDigits (by omega) (by omega) hc
  exact sparesEscapes_credential.digit c x hx

theorem isControl_of_not_reserved {c : Char} (h : isCredentialReserved c = false) :
    isControl c = false :=
  Bool.eq_false_iff.mpr fun hc =>
    Bool.eq_false_iff.mp h (isCredentialReserved_of_isControl hc)

theorem isForbidden_of_not_reserved {c : Char} (h : isCredentialReserved c = false) :
    Host.isForbidden c = false :=
  Bool.eq_false_iff.mpr fun hc =>
    Bool.eq_false_iff.mp h (isCredentialReserved_of_isForbidden hc)

/-- A host is written without controls, and of what is forbidden only an address holds any, its
colons and brackets. -/
theorem Host.Denotes.of_mem_chars {cs : List Char} {h : Host} (hd : Denotes cs h) {c : Char}
    (hc : c ∈ h.chars) :
    isControl c = false ∧ (isForbidden c = false ∨ c ∈ [':', '[', ']']) := by
  cases h with
  | name encoded =>
    refine ⟨?_, .inl (hd.plain c hc)⟩
    obtain ⟨-, -, -, rfl⟩ := hd
    exact sparesEscapes_control.of_mem_encode hc
  | address ip =>
    rw [chars, List.mem_cons, List.mem_append, List.mem_singleton] at hc
    rcases hc with rfl | hc | rfl
    · decide
    · rcases Ipv6.of_mem_chars hc with rfl | ⟨x, hx⟩
      · decide
      · exact ⟨sparesEscapes_control.digit c x hx, .inl (sparesEscapes_forbidden.digit c x hx)⟩
    · decide

namespace Address

/-- An address whose password needs no encoding and whose host is one that a text denotes. -/
structure IsWritten (a : Address) : Prop where
  password : ∀ text ∈ a.password, text ≠ [] ∧ ∀ c ∈ text, isCredentialReserved c = false
  host : ∃ cs, Host.Denotes cs a.host

/-- What is written in front of the host. -/
def login (a : Address) : List Char :=
  match a.password with
  | none => []
  | some p => ':' :: (p ++ ['@'])

/-- Host and port as they are written. -/
def place (a : Address) : List Char := a.host.chars ++ ':' :: Nat.toDigits 10 a.port.toNat

/-- The database as it is written. -/
def index (a : Address) : List Char :=
  (if a.database < 0 then ['-'] else []) ++ Nat.toDigits 10 a.database.toInt.natAbs

/-- The parts of an address. -/
def parts (a : Address) : Parts where
  scheme := a.scheme
  username := []
  password := a.password
  host := a.host
  port := some a.port
  path := '/' :: a.index
  query := none
  fragment := if a.unverified then some "insecure".toList else none

theorem chars_eq (a : Address) :
    a.chars = a.scheme ++ ':' :: '/' :: '/' :: (a.login ++ a.place ++ '/' :: (a.index ++
      if a.unverified then '#' :: "insecure".toList else [])) := by
  have hfragment : "#insecure".toList = '#' :: "insecure".toList := by decide
  unfold chars login place index
  rw [hfragment]
  cases a.password with
  | none => simp only [List.append_assoc, List.cons_append, List.nil_append]
  | some p => simp only [List.append_assoc, List.cons_append, List.nil_append]

theorem scheme_ordinary (a : Address) : a.scheme ≠ [] ∧ a.scheme ∉ Parts.specialSchemes := by
  unfold scheme
  split <;> decide

theorem of_mem_scheme {a : Address} {c : Char} (hc : c ∈ a.scheme) :
    ('a' ≤ c ∧ c ≤ 'z') ∧ isCredentialReserved c = false := by
  have all : a.scheme.all fun c => ('a' ≤ c ∧ c ≤ 'z') ∧ isCredentialReserved c = false := by
    unfold scheme
    split <;> decide
  exact of_decide_eq_true (List.all_eq_true.mp all c hc)

theorem of_mem_insecure {c : Char} (hc : c ∈ "insecure".toList) :
    isCredentialReserved c = false := by
  have all : "insecure".toList.all fun c => isCredentialReserved c = false := by decide
  exact of_decide_eq_true (List.all_eq_true.mp all c hc)

theorem of_mem_index {a : Address} {c : Char} (hc : c ∈ a.index) :
    c = '-' ∨ ∃ x, Text.hexValue? c = some x := by
  rw [index, List.mem_append] at hc
  rcases hc with hc | hc
  · split at hc
    · exact .inl (List.mem_singleton.mp hc)
    · exact absurd hc List.not_mem_nil
  · exact .inr (Text.hexValue?_of_mem_toDigits (by omega) (by omega) hc)

theorem not_reserved_of_mem_index {a : Address} {c : Char} (hc : c ∈ a.index) :
    isCredentialReserved c = false := by
  rcases of_mem_index hc with rfl | ⟨x, hx⟩
  · decide
  · exact sparesEscapes_credential.digit c x hx

section Written

variable {a : Address} (ha : a.IsWritten)
include ha

/-! ### Where the text is cut -/

theorem not_mem_place {sep : Char} (hsep : Host.isForbidden sep = true)
    (hne : sep ∉ [':', '[', ']']) : sep ∉ a.place := by
  intro hmem
  rw [place, List.mem_append, List.mem_cons] at hmem
  rcases hmem with hmem | rfl | hmem
  · obtain ⟨cs, hd⟩ := ha.host
    rcases (hd.of_mem_chars hmem).2 with hplain | hbracket
    · exact absurd hsep (Bool.eq_false_iff.mp hplain)
    · exact hne hbracket
  · exact hne List.mem_cons_self
  · exact Bool.eq_false_iff.mp
      (isForbidden_of_not_reserved (not_reserved_of_mem_toDigits hmem)) hsep

theorem not_mem_login {sep : Char} (hsep : isCredentialReserved sep = true)
    (hne : sep ≠ ':' ∧ sep ≠ '@') : sep ∉ a.login := by
  intro hmem
  unfold login at hmem
  split at hmem
  · exact List.not_mem_nil hmem
  · rename_i p hp
    rw [List.mem_cons, List.mem_append, List.mem_singleton] at hmem
    rcases hmem with hmem | hmem | hmem
    · exact hne.1 hmem
    · exact Bool.eq_false_iff.mp ((ha.password p hp).2 sep hmem) hsep
    · exact hne.2 hmem

/-- No character that is forbidden in a host is in what stands before the path, apart from those
between its parts. -/
theorem not_mem_authority {sep : Char} (hsep : Host.isForbidden sep = true)
    (hne : sep ∉ [':', '[', ']', '@']) : sep ∉ a.login ++ a.place := by
  have hbracket : sep ∉ [':', '[', ']'] := by
    intro hmem
    exact hne (List.mem_append_left ['@'] hmem)
  intro hmem
  rcases List.mem_append.mp hmem with hmem | hmem
  · refine not_mem_login ha (isCredentialReserved_of_isForbidden hsep) ⟨?_, ?_⟩ hmem
    · rintro rfl
      exact hne (by decide)
    · rintro rfl
      exact hne (by decide)
  · exact not_mem_place ha hsep hbracket hmem

/-- Nor is it in what stands before the fragment, if it is not the slash. -/
theorem not_mem_front {sep : Char} (hsep : Host.isForbidden sep = true)
    (hne : sep ∉ [':', '[', ']', '@']) (hslash : sep ≠ '/') :
    sep ∉ a.login ++ a.place ++ '/' :: a.index := by
  rw [List.mem_append, List.mem_cons]
  rintro (hmem | hmem | hmem)
  · exact not_mem_authority ha hsep hne hmem
  · exact hslash hmem
  · exact Bool.eq_false_iff.mp (isForbidden_of_not_reserved (not_reserved_of_mem_index hmem)) hsep

theorem cut_fragment :
    cut '#' (a.login ++ a.place ++ '/' :: (a.index ++
      if a.unverified then '#' :: "insecure".toList else [])) =
        (a.login ++ a.place ++ '/' :: a.index, a.parts.fragment) := by
  have hmem : '#' ∉ a.login ++ a.place ++ '/' :: a.index :=
    not_mem_front ha (by decide) (by decide) (by decide)
  rw [← List.cons_append, ← List.append_assoc]
  show _ = (_, if a.unverified then _ else _)
  split
  · exact cut_append hmem _
  · rw [List.append_nil]
    exact cut_of_not_mem hmem

theorem cutLast_login :
    ∃ login, cutLast '@' (a.login ++ a.place) = (login, a.place) ∧
      Parts.credentials login = ([], a.password) := by
  have hplace : '@' ∉ a.place := not_mem_place ha (by decide) (by decide)
  unfold login
  split
  · rename_i hp
    exact ⟨[], cutLast_of_not_mem hplace, by rw [hp]; rfl⟩
  · rename_i p hp
    obtain ⟨c, cs, hcs⟩ := List.exists_cons_of_ne_nil (ha.password p hp).1
    refine ⟨':' :: p, ?_, ?_⟩
    · rw [List.cons_append, List.append_assoc, List.singleton_append, ← List.cons_append]
      exact cutLast_append hplace _
    · rw [hp, hcs]
      rfl

theorem place?_place : Parts.place? a.place = some (a.host, some a.port) := by
  obtain ⟨cs, hd⟩ := ha.host
  have hport : Parts.port? (Nat.toDigits 10 a.port.toNat) = some (some a.port) := by
    have hne : Nat.toDigits 10 a.port.toNat ≠ [] := List.length_pos_iff.mp Nat.length_toDigits_pos
    rw [Parts.port?.eq_2 _ hne, Text.digits?_toDigits]
    show (if _ then _ else _) = _
    rw [if_pos a.port.toNat_lt, UInt16.ofNat_toNat]
    rfl
  have hcut : cutPort false a.place = (a.host.chars, some (Nat.toDigits 10 a.port.toNat)) := by
    rw [place]
    cases hhost : a.host with
    | name encoded =>
      rw [hhost] at hd
      refine cutPort_outside (fun c hc => ⟨?_, ?_⟩) _
      · rintro rfl
        exact absurd (hd.plain ':' hc) (by decide)
      · rintro rfl
        exact absurd (hd.plain '[' hc) (by decide)
    | address ip =>
      have hclose : ']' ∉ ip.chars := by
        intro hmem
        rcases Ipv6.of_mem_chars hmem with h | ⟨x, hx⟩
        · exact absurd h (by decide)
        · cases hx
      rw [Host.chars, List.cons_append, List.append_assoc, List.singleton_append]
      exact cutPort_bracketed hclose _
  rw [Parts.place?, hcut]
  dsimp only
  rw [Option.getD_some, hport, Host.parseUsed_chars hd]

/-- **Where the text of an address is cut**: it falls into the parts that it was written from. -/
theorem split?_chars : Parts.split? a.chars = some a.parts := by
  have hscheme : ':' ∉ a.scheme := fun hmem =>
    absurd (of_mem_scheme hmem).2 (by decide)
  have hquestion : '?' ∉ a.login ++ a.place ++ '/' :: a.index :=
    not_mem_front ha (by decide) (by decide) (by decide)
  have hslash : '/' ∉ a.login ++ a.place := not_mem_authority ha (by decide) (by decide)
  obtain ⟨login, hlogin, hcredentials⟩ := cutLast_login ha
  rw [chars_eq, Parts.split?, cut_append hscheme]
  show Parts.splitBehind? a.scheme _ = _
  rw [Parts.splitBehind?, cut_fragment ha]
  dsimp only
  rw [cut_of_not_mem hquestion]
  dsimp only
  rw [cut_append hslash]
  dsimp only
  rw [hlogin]
  dsimp only
  rw [place?_place ha, hcredentials]
  rfl

/-! ### Why the parts stand for themselves -/

/-- Nothing but the host holds characters that are reserved, apart from those between the parts. -/
theorem isControl_of_mem_chars {c : Char} (hc : c ∈ a.chars) : isControl c = false := by
  rw [chars_eq, List.mem_append, List.mem_cons, List.mem_cons, List.mem_cons, List.mem_append,
    List.mem_append, List.mem_cons, List.mem_append] at hc
  rcases hc with hc | rfl | rfl | rfl | (hc | hc) | rfl | hc | hc
  · exact isControl_of_not_reserved (of_mem_scheme hc).2
  · decide
  · decide
  · decide
  · unfold login at hc
    split at hc
    · exact absurd hc List.not_mem_nil
    · rename_i p hp
      rw [List.mem_cons, List.mem_append, List.mem_singleton] at hc
      rcases hc with rfl | hc | rfl
      · decide
      · exact isControl_of_not_reserved ((ha.password p hp).2 c hc)
      · decide
  · rw [place, List.mem_append, List.mem_cons] at hc
    rcases hc with hc | rfl | hc
    · obtain ⟨cs, hd⟩ := ha.host
      exact (hd.of_mem_chars hc).1
    · decide
    · exact isControl_of_not_reserved (not_reserved_of_mem_toDigits hc)
  · decide
  · exact isControl_of_not_reserved (not_reserved_of_mem_index hc)
  · split at hc
    · rcases List.mem_cons.mp hc with rfl | hc
      · decide
      · exact isControl_of_not_reserved (of_mem_insecure hc)
    · exact absurd hc List.not_mem_nil

theorem isSettled_parts : a.parts.IsSettled where
  scheme := ⟨a.scheme_ordinary.1, a.scheme_ordinary.2, fun _ hc => (of_mem_scheme hc).1⟩
  username := by
    intro c hc
    exact absurd hc List.not_mem_nil
  password := fun text htext => (ha.password text htext).2
  host := by
    obtain ⟨cs, hd⟩ := ha.host
    exact (Host.parse_eq_ok_iff.mpr hd).2
  path := by
    refine ⟨a.index, rfl, fun c hc => ⟨not_reserved_of_mem_index hc, ?_, ?_⟩⟩
    · rintro rfl
      rcases of_mem_index hc with h | ⟨x, hx⟩
      · exact absurd h (by decide)
      · cases hx
    · rintro rfl
      rcases of_mem_index hc with h | ⟨x, hx⟩
      · exact absurd h (by decide)
      · cases hx
  query := by
    intro text htext
    cases htext
  fragment := by
    intro text htext
    unfold parts at htext
    dsimp only at htext
    split at htext
    · cases htext
      exact fun c hc => of_mem_insecure hc
    · cases htext

/-- **Any standard reader reads the text of an address as the parts that it was written from.** -/
theorem IsWritten.read_text {read : String → Option Parts} (hread : IsStandard read) :
    read a.text = some a.parts := by
  refine hread a.text a.parts ?_ ?_ (isSettled_parts ha)
  · rw [text, String.toList_ofList]
    exact split?_chars ha
  · rw [text, String.toList_ofList]
    exact fun c hc => isControl_of_mem_chars ha hc

end Written

theorem index_eq (a : Address) : a.index = Json.intChars a.database.toInt := by
  have hnegative : a.database < 0 ↔ a.database.toInt < 0 := Int64.lt_iff_toInt_lt
  rw [index, Json.intChars]
  by_cases h : a.database.toInt < 0
  · rw [if_pos h, if_pos (hnegative.mpr h)]
    rfl
  · rw [if_neg h, if_neg fun h' => h (hnegative.mp h')]
    rfl

end Address

end Url

/-! ## Endpoints -/

namespace Endpoint

theorem of_urlPassword {e : Endpoint} {text : List Char} (h : e.urlPassword = some text) :
    text ≠ [] ∧ ∀ c ∈ text, Url.isCredentialReserved c = false := by
  unfold urlPassword at h
  split at h
  · cases h
  · rename_i p hp
    split at h
    · cases h
    · rename_i hne
      cases h
      refine ⟨?_, fun c hc => Url.sparesEscapes_credential.of_mem_encode hc⟩
      rw [Ne, Url.encode_eq_nil_iff]
      simpa using hne

theorem isWritten_of_address {e : Endpoint} {a : Url.Address} (h : e.address = .ok a) :
    a.IsWritten where
  password := by
    intro text htext
    rw [password_of_address h] at htext
    exact of_urlPassword htext
  host := ⟨e.host.toList, (address_eq_ok_iff.mp h).1⟩

theorem exists_address_iff {e : Endpoint} :
    (∃ a, e.address = .ok a) ↔ ∃ h, Url.Host.Denotes e.host.toList h := by
  constructor
  · rintro ⟨a, ha⟩
    exact ⟨a.host, (address_eq_ok_iff.mp ha).1⟩
  · rintro ⟨h, hd⟩
    exact ⟨{ host := h, .. }, address_eq_ok_iff.mpr ⟨hd, rfl⟩⟩

/-- Two addresses of an endpoint with different passwords differ in the password only. -/
theorem address_of_password {e : Endpoint} {p q : Option String} {a b : Url.Address}
    (ha : address { e with password := p } = .ok a)
    (hb : address { e with password := q } = .ok b) : a = { b with password := a.password } := by
  obtain ⟨hda, ha⟩ := address_eq_ok_iff.mp ha
  obtain ⟨hdb, hb⟩ := address_eq_ok_iff.mp hb
  have hhost : a.host = b.host := Except.ok.inj
    ((Url.Host.parse_eq_ok_iff.mpr hda).1.symm.trans (Url.Host.parse_eq_ok_iff.mpr hdb).1)
  rw [ha, hb, hhost]
  rfl

/-- **All parts but the password are the same with any password.** Whether there is a URL does not
depend on the password either. -/
theorem password_moves_nothing {read : String → Option Url.Parts} (hread : Url.IsStandard read)
    (e : Endpoint) :
    (∀ p q : Option String, (∃ a, address { e with password := p } = .ok a) ↔
      ∃ a, address { e with password := q } = .ok a) ∧
    ∀ (p : String) (a b : Url.Address), address { e with password := some p } = .ok a →
      address { e with password := none } = .ok b →
        ∃ parts, read b.text = some parts ∧
          read a.text = some { parts with password := a.password } ∧
          parts.scheme = (if e.isTls then "rediss" else "redis").toList ∧
          parts.username = [] ∧ parts.password = none ∧
          Url.Host.Denotes e.host.toList parts.host ∧ parts.port = some e.port ∧
          parts.path = '/' :: (intText e.database.toInt).toList ∧ parts.query = none ∧
          parts.fragment = if e.tls.any (·.insecure) then some "insecure".toList else none := by
  refine ⟨fun p q => by rw [exists_address_iff, exists_address_iff], fun p a b ha hb => ?_⟩
  have hparts : a.parts = { b.parts with password := a.password } := by
    rw [address_of_password ha hb]
    rfl
  refine ⟨b.parts, (isWritten_of_address hb).read_text hread, ?_, ?_⟩
  · rw [← hparts]
    exact (isWritten_of_address ha).read_text hread
  · obtain ⟨hd, hb⟩ := address_eq_ok_iff.mp hb
    have hscheme : b.parts.scheme = (if e.isTls then "rediss" else "redis").toList := by
      show b.scheme = _
      rw [hb, Url.Address.scheme]
      show (if e.isTls then _ else _) = _
      split <;> decide
    have hpath : b.parts.path = '/' :: (intText e.database.toInt).toList := by
      show '/' :: b.index = _
      rw [Url.Address.index_eq, intText, String.toList_ofList, hb]
    have hpassword : b.parts.password = none := congrArg Url.Address.password hb
    have hport : b.port = e.port := congrArg Url.Address.port hb
    have hfragment : b.unverified = e.tls.any (·.insecure) :=
      congrArg Url.Address.unverified hb
    refine ⟨hscheme, rfl, hpassword, hd, congrArg some hport, hpath, rfl, ?_⟩
    rw [← hfragment]
    rfl

/-- Endpoints with a secure connection that goes unverified, to an address in brackets. -/
def guarded (password : Option String) : Endpoint where
  host := "[2001:db8::1]"
  password
  tls := some { insecure := true }

/-- A password that looks like the rest of a URL stays a password. -/
theorem password_moves_nothing_evil :
    Url.IsStandard (fun s => Url.Parts.split? s.toList) ∧
      ∃ a b, (guarded (some "x@evil:1/2#?")).address = .ok a ∧ (guarded none).address = .ok b ∧
        ∃ parts, Url.Parts.split? b.text.toList = some parts ∧
          Url.Parts.split? a.text.toList =
            some { parts with password := some "x%40evil%3A1%2F2%23%3F".toList } ∧
          parts.scheme = "rediss".toList ∧ parts.port = some 6379 ∧
          parts.path = "/0".toList ∧ parts.fragment = some "insecure".toList := by
  have hstandard : Url.IsStandard fun s => Url.Parts.split? s.toList := fun _ _ h _ _ => h
  obtain ⟨a, ha⟩ : ∃ a, (guarded (some "x@evil:1/2#?")).address = .ok a := ⟨_, rfl⟩
  obtain ⟨b, hb⟩ : ∃ b, (guarded none).address = .ok b := ⟨_, rfl⟩
  obtain ⟨-, hreads⟩ := password_moves_nothing hstandard (guarded none)
  obtain ⟨parts, hread, hwith, hscheme, -, -, -, hport, hpath, -, hfragment⟩ :=
    hreads "x@evil:1/2#?" a b ha hb
  have hwritten : a.password = some "x%40evil%3A1%2F2%23%3F".toList :=
    (password_of_address ha).trans (by decide +kernel)
  rw [hwritten] at hwith
  exact ⟨hstandard, a, b, ha, hb, parts, hread, hwith, hscheme, hport, hpath, hfragment⟩

end Endpoint

end LogShipper
