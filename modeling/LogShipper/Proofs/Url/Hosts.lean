import LogShipper.Proofs.Url.Escapes
import LogShipper.Proofs.Url.Ipv6Text

/-!
# Which host a URL names

An endpoint is configured with the text of a host. A text in brackets is read as an IPv6 address,
and the URL names that address. Of any other text the URL names what stands before the first colon:
`2001:db8::1` without brackets is no address, nor is it refused, but the host `2001`. So a name is
carried over whole exactly where it holds no colon.

Covers `to_url`, and the host that a client connects to.

Results:
* `Host.parse_eq_ok_iff`: what a text denotes as a host.
* `Host.parseUsed_chars`: a host reads back as itself.
* `Endpoint.host_of_address_iff`: which hosts have a URL, and which host that names.
* `Endpoint.host_cut_short`: a host that is not carried over.
-/

namespace LogShipper

namespace Url

/-! ## Texts without colons are no addresses -/

namespace Ipv6

theorem cutDouble_of_not_mem {cs : List Char} (h : ':' ∉ cs) : cutDouble cs = none := by
  have := cutDouble_append h []
  rwa [List.append_nil] at this

theorem length_dotted? {cs : List Char} {gs : List UInt16} (h : dotted? cs = some gs) :
    gs.length = 2 := by
  unfold dotted? at h
  split at h
  · cases h
    rfl
  · cases h

/-- Without a colon there are two groups at most, which is no address. -/
theorem parse?_of_not_mem {cs : List Char} (h : ':' ∉ cs) : parse? cs = none := by
  rw [parse?, cutDouble_of_not_mem h]
  dsimp only
  rw [pieces_of_not_mem h, Option.bind_eq_none_iff]
  intro gs hgs
  have hlength : gs.length ≤ 2 := by
    rw [groups?] at hgs
    split at hgs
    · exact Nat.le_of_eq (length_dotted? hgs)
    · obtain ⟨g, -, rfl⟩ := Option.map_eq_some_iff.mp hgs
      exact Nat.le_succ 1
  exact dif_neg (by omega)

end Ipv6

/-! ## Sets of characters -/

/-- What a host must not hold is encoded in a password. -/
theorem isCredentialReserved_of_isForbidden {c : Char} (h : Host.isForbidden c = true) :
    isCredentialReserved c = true := by
  have all : ['\x00', '\t', '\n', '\r', ' ', '#', '/', ':', '<', '>', '?', '@', '[', '\\', ']', '^',
      '|'].all isCredentialReserved = true := by decide
  rw [Host.isForbidden, List.contains_eq_mem, decide_eq_true_iff] at h
  exact List.all_eq_true.mp all c h

theorem isCredentialReserved_of_isControl {c : Char} (h : isControl c = true) :
    isCredentialReserved c = true := by
  rw [isCredentialReserved, h, Bool.true_or]

theorem sparesEscapes_forbidden : SparesEscapes Host.isForbidden :=
  sparesEscapes_credential.of_subset fun _ => isCredentialReserved_of_isForbidden

theorem sparesEscapes_control : SparesEscapes isControl :=
  sparesEscapes_credential.of_subset fun _ => isCredentialReserved_of_isControl

/-! ## What a text denotes -/

namespace Host

variable {cs : List Char} {h : Host}

/-- What a text denotes as the host of a URL: the address in its brackets, or else what stands
before its first colon, which must be something and hold no character that is forbidden. -/
def Denotes (cs : List Char) : Host → Prop
  | .address ip => isBracketed cs = true ∧ Ipv6.parse? cs.tail.dropLast = some ip
  | .name encoded => isBracketed cs = false ∧ cs.takeWhile (· != ':') ≠ [] ∧
      (∀ c ∈ cs.takeWhile (· != ':'), isForbidden c = false) ∧
      encoded = encode isControl (cs.takeWhile (· != ':'))

theorem exists_of_isBracketed (hb : isBracketed cs = true) :
    ∃ rest, cs = '[' :: rest ∧ rest.getLast? = some ']' := by
  unfold isBracketed at hb
  rw [Bool.and_eq_true, decide_eq_true_iff, decide_eq_true_iff] at hb
  obtain ⟨hhead, hlast⟩ := hb
  match cs with
  | [] => cases hhead
  | [c] =>
    cases hhead
    exact absurd hlast (by decide)
  | c :: d :: rest =>
    cases hhead
    exact ⟨d :: rest, rfl, by rwa [List.getLast?_cons_cons] at hlast⟩

theorem parse_of_isBracketed (hb : isBracketed cs = true) :
    parse cs = .ok h ↔ ∃ ip, Ipv6.parse? cs.tail.dropLast = some ip ∧ h = .address ip := by
  have hused : parse cs = parseUsed cs := by
    rw [parse, used, if_pos hb]
    rfl
  obtain ⟨rest, rfl, hlast⟩ := exists_of_isBracketed hb
  rw [hused, parseUsed, if_pos hlast, List.tail_cons]
  cases Ipv6.parse? rest.dropLast with
  | none => simp
  | some ip => simp [eq_comm]

/-- Without a colon in it, what is used of a host is a name or nothing: in brackets it would be an
address, which needs one. -/
theorem parseUsed_of_not_mem (hcolon : ':' ∉ cs) :
    parseUsed cs = .ok h ↔
      (∀ c ∈ cs, isForbidden c = false) ∧ h = .name (encode isControl cs) := by
  by_cases hopen : ∃ rest, cs = '[' :: rest
  · obtain ⟨rest, rfl⟩ := hopen
    refine iff_of_false ?_ fun hall => absurd (hall.1 '[' List.mem_cons_self) (by decide)
    have hnone : Ipv6.parse? rest.dropLast = none :=
      Ipv6.parse?_of_not_mem fun hmem =>
        hcolon (List.mem_cons_of_mem _ ((List.dropLast_sublist rest).subset hmem))
    rw [parseUsed, hnone]
    split <;> simp
  · rw [parseUsed.eq_2 cs fun rest hrest => hopen ⟨rest, hrest⟩]
    split
    · rename_i hany
      refine iff_of_false (by simp) fun hall => ?_
      obtain ⟨c, hc, hforbidden⟩ := List.any_eq_true.mp hany
      exact absurd hforbidden (Bool.eq_false_iff.mp (hall.1 c hc))
    · rename_i hany
      have hall : ∀ c ∈ cs, isForbidden c = false := by
        simpa using hany
      rw [and_iff_right hall, Except.ok.injEq]
      exact eq_comm

theorem colon_not_mem_takeWhile (cs : List Char) : ':' ∉ cs.takeWhile (· != ':') := by
  intro hmem
  have := List.all_takeWhile (p := (· != ':')) (l := cs)
  rw [List.all_eq_true] at this
  exact absurd (this ':' hmem) (by decide)

theorem parse_of_not_isBracketed (hb : isBracketed cs = false) :
    parse cs = .ok h ↔ cs.head? ≠ some ':' ∧
      (∀ c ∈ cs.takeWhile (· != ':'), isForbidden c = false) ∧
      h = .name (encode isControl (cs.takeWhile (· != ':'))) := by
  rw [parse, used, hb, if_neg Bool.false_ne_true]
  by_cases hhead : cs.head? = some ':'
  · rw [if_pos hhead]
    exact iff_of_false (by simp [bind, Except.bind]) fun hall => hall.1 hhead
  · rw [if_neg hhead]
    show parseUsed _ = _ ↔ _
    rw [parseUsed_of_not_mem (colon_not_mem_takeWhile cs)]
    exact (and_iff_right hhead).symm

/-- **What a text denotes is what is read of it**, if it is not the empty name. -/
theorem parse_eq_ok_iff : (parse cs = .ok h ∧ h ≠ .name []) ↔ Denotes cs h := by
  cases hb : isBracketed cs with
  | true =>
    rw [parse_of_isBracketed hb]
    cases h with
    | name encoded => simp [Denotes, hb]
    | address ip => simp [Denotes, hb]
  | false =>
    rw [parse_of_not_isBracketed hb]
    cases h with
    | address ip => simp [Denotes, hb]
    | name encoded =>
      have hhead : cs.takeWhile (· != ':') ≠ [] → cs.head? ≠ some ':' := by
        rintro hne hhead
        obtain ⟨rest, rfl⟩ := List.head?_eq_some_iff.mp hhead
        exact hne rfl
      unfold Denotes
      constructor
      · rintro ⟨⟨-, hall, hname⟩, hne⟩
        obtain rfl := Host.name.inj hname
        refine ⟨hb, fun hnil => hne ?_, hall, rfl⟩
        rw [hnil]
        rfl
      · rintro ⟨-, hne, hall, rfl⟩
        exact ⟨⟨hhead hne, hall, rfl⟩, fun hnil => hne (encode_eq_nil_iff.mp (Host.name.inj hnil))⟩

/-- A name holds no character that is forbidden, since no escape does. -/
theorem Denotes.plain {encoded : List Char} (hd : Denotes cs (.name encoded)) :
    ∀ c ∈ encoded, isForbidden c = false := by
  obtain ⟨-, -, hall, rfl⟩ := hd
  intro c hc
  rcases of_mem_encode hc with ⟨hmem, -⟩ | rfl | ⟨x, hx⟩
  · exact hall c hmem
  · exact sparesEscapes_forbidden.percent
  · exact sparesEscapes_forbidden.digit c x hx

theorem Denotes.colon_not_mem {encoded : List Char} (hd : Denotes cs (.name encoded)) :
    ':' ∉ encoded := fun hmem =>
  absurd (hd.plain ':' hmem) (by decide)

/-- **A host reads back as itself.** A name has nothing left in it to encode. -/
theorem parseUsed_chars (hd : Denotes cs h) : parseUsed h.chars = .ok h := by
  cases h with
  | address ip =>
    rw [chars, parseUsed, List.getLast?_concat, if_pos rfl, List.dropLast_concat,
      Ipv6.parse?_chars]
  | name encoded =>
    refine (parseUsed_of_not_mem hd.colon_not_mem).mpr ⟨hd.plain, ?_⟩
    obtain ⟨-, -, -, rfl⟩ := hd
    rw [encode_of_not fun c hc => sparesEscapes_control.of_mem_encode hc]

end Host

end Url

/-! ## The host of an endpoint -/

namespace Endpoint

open Url (Host)

/-- An endpoint has a URL where its host denotes one. -/
theorem address_eq_ok_iff {e : Endpoint} {a : Url.Address} :
    e.address = .ok a ↔ Host.Denotes e.host.toList a.host ∧
      a = {
        secure := e.isTls
        password := e.urlPassword
        host := a.host
        port := e.port
        database := e.database
        unverified := e.tls.any (·.insecure) } := by
  rw [← Host.parse_eq_ok_iff, address]
  cases hparse : Host.parse e.host.toList with
  | error err => simp
  | ok host =>
    dsimp only
    split
    · rename_i hnil
      refine iff_of_false (by simp) ?_
      rintro ⟨⟨hhost, hne⟩, -⟩
      exact hne (by rw [← Except.ok.inj hhost, hnil])
    · rename_i hne
      constructor
      · rintro ⟨⟩
        exact ⟨⟨rfl, hne⟩, rfl⟩
      · rintro ⟨⟨hhost, -⟩, ha⟩
        rw [ha, ← Except.ok.inj hhost]

/-- **Which hosts have a URL, and which host it names.** What the URL names reads back as itself;
without brackets it is the whole host exactly where that holds no colon. -/
theorem host_of_address_iff (e : Endpoint) :
    (∀ h, (∃ a, e.address = .ok a ∧ a.host = h) ↔ Host.Denotes e.host.toList h) ∧
      ∀ a, e.address = .ok a → Host.parseUsed a.host.chars = .ok a.host ∧
        (Host.isBracketed e.host.toList = false →
          (a.host = .name (Url.encode Url.isControl e.host.toList) ↔ ':' ∉ e.host.toList)) := by
  refine ⟨fun h => ⟨?_, fun hd => ?_⟩, fun a ha => ?_⟩
  · rintro ⟨a, ha, rfl⟩
    exact (address_eq_ok_iff.mp ha).1
  · exact ⟨{ host := h, .. }, address_eq_ok_iff.mpr ⟨hd, rfl⟩, rfl⟩
  · obtain ⟨hd, -⟩ := address_eq_ok_iff.mp ha
    refine ⟨Host.parseUsed_chars hd, fun hb => ?_⟩
    cases hhost : a.host with
    | address ip =>
      rw [hhost] at hd
      exact absurd hd.1 (by simp [hb])
    | name encoded =>
      rw [hhost] at hd
      constructor
      · intro hname hcolon
        refine hd.colon_not_mem ?_
        rw [Host.name.inj hname]
        exact Url.mem_encode_of_not (by decide) hcolon
      · intro hcolon
        obtain ⟨-, -, -, rfl⟩ := hd
        rw [Host.takeWhile_of_all]
        rintro c hc
        rw [bne_iff_ne]
        rintro rfl
        exact hcolon hc

/-- An endpoint whose host is an address without brackets. -/
def bareIpv6 : Endpoint where
  host := "2001:db8::1"

/-- Its URL names the host `2001`. -/
theorem host_of_address_bare :
    Host.isBracketed bareIpv6.host.toList = false ∧ ∃ a, bareIpv6.address = .ok a ∧
      a.host = .name ['2', '0', '0', '1'] ∧ Host.parseUsed a.host.chars = .ok a.host ∧
      a.host ≠ .name (Url.encode Url.isControl bareIpv6.host.toList) := by
  obtain ⟨hnames, hreads⟩ := host_of_address_iff bareIpv6
  obtain ⟨a, ha, hhost⟩ := (hnames (.name ['2', '0', '0', '1'])).mpr
    (Host.parse_eq_ok_iff.mp ⟨rfl, by decide⟩)
  obtain ⟨hback, hwhole⟩ := hreads a ha
  exact ⟨by decide, a, ha, hhost, hback, fun h => (hwhole (by decide)).mp h (by decide)⟩

/-- **A URL does not always name the configured host**: of one that holds a colon it names a part,
where it should be refused. -/
theorem host_cut_short :
    ¬ ∀ (e : Endpoint) (a : Url.Address), e.address = .ok a →
      Host.isBracketed e.host.toList = false →
        a.host = .name (Url.encode Url.isControl e.host.toList) := by
  intro h
  exact absurd (h bareIpv6 _ rfl (by decide)) (by decide)

end Endpoint

end LogShipper
