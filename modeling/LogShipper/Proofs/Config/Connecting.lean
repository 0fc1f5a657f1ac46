import LogShipper.Proofs.Config.Rules
import LogShipper.Proofs.Url.Hosts
import LogShipper.Resp.Link

/-!
# Whether a shipper can connect with an accepted configuration

The rules that a configuration must keep are written down in one place, and what a client needs to
connect is put together in another. They agree on the port, which is never the reason why there is
no URL, and on certificates, which come with their keys. They do not agree on the host: the rules
ask for one that is not blank, a URL for one without spaces, slashes and the like.

Covers `validate` beside `connect`.

Results:
* `succeeds_certificatesFor_iff`: certificates are there if their files can be read.
* `succeeds_ofEndpoint_iff`: what an endpoint must have to connect to it.
* `Config.connectable_iff`: what an accepted configuration must have besides its rules.
* `Config.accepted_without_address`: an accepted configuration that has no URL.
-/

namespace LogShipper

/-! ## Steps of which each may fail -/

/-- Something comes out. -/
def Succeeds {α ε : Type} (x : Except ε α) : Prop := ∃ a, x = .ok a

section

variable {α β ε : Type} {x : Except ε α}

theorem exists_eq_ok_iff : (∃ a, x = .ok a) ↔ Succeeds x := Iff.rfl

@[simp] theorem succeeds_ok (a : α) : Succeeds (.ok a : Except ε α) := ⟨a, rfl⟩

@[simp] theorem succeeds_pure (a : α) : Succeeds (pure a : Except ε α) := ⟨a, rfl⟩

@[simp] theorem not_succeeds_error (e : ε) : ¬ Succeeds (.error e : Except ε α) := by
  rintro ⟨a, h⟩
  cases h

@[simp] theorem succeeds_bind_iff {f : α → Except ε β} :
    Succeeds (x >>= f) ↔ ∃ a, x = .ok a ∧ Succeeds (f a) := by
  cases x with
  | error e => exact iff_of_false (not_succeeds_error e) (fun ⟨a, h, _⟩ => by cases h)
  | ok a => exact ⟨fun h => ⟨a, rfl, h⟩, fun ⟨_, h, hf⟩ => by cases h; exact hf⟩

@[simp] theorem succeeds_map_iff {f : α → β} : Succeeds (f <$> x) ↔ Succeeds x := by
  cases x with
  | error e => exact iff_of_false (not_succeeds_error e) (not_succeeds_error e)
  | ok a => exact iff_of_true (succeeds_ok _) (succeeds_ok a)

@[simp] theorem succeeds_mapError_iff {δ : Type} {f : ε → δ} :
    Succeeds (x.mapError f) ↔ Succeeds x :=
  exists_congr fun _ => mapError_eq_ok_iff

end

/-! ## Certificates -/

/-- The files that a secure connection is made with. -/
def Tls.files (t : Tls) : List String :=
  t.caCert.toList ++ t.clientCert.toList ++ t.clientKey.toList

namespace Resp

open Url (Host)

variable {files : Files} {e : Endpoint}

theorem succeeds_readMaterial_iff {path : String} :
    Succeeds (readMaterial files path) ↔ Succeeds (files path) :=
  succeeds_mapError_iff

theorem readMaterial_eq_ok_iff {path : String} {bs : Bytes} :
    readMaterial files path = .ok bs ↔ files path = .ok bs :=
  mapError_eq_ok_iff

/-- Certificates that come with their keys are there if all files can be read. -/
theorem succeeds_readCertificates_iff {t : Tls}
    (hpaired : t.clientCert.isSome = t.clientKey.isSome) :
    Succeeds (readCertificates files t) ↔ ∀ path ∈ t.files, Succeeds (files path) := by
  obtain ⟨caCert, clientCert, clientKey, insecure⟩ := t
  cases caCert <;> cases clientCert <;> cases clientKey <;>
    simp [readCertificates, Tls.files, readMaterial_eq_ok_iff, succeeds_readMaterial_iff,
      exists_eq_ok_iff] at hpaired ⊢

/-- Nothing is read where no file is named. -/
theorem succeeds_certificatesFor_iff
    (hpaired : ∀ t ∈ e.tls, t.clientCert.isSome = t.clientKey.isSome) :
    Succeeds (certificatesFor files e) ↔
      ∀ t ∈ e.tls, ∀ path ∈ t.files, Succeeds (files path) := by
  unfold certificatesFor
  cases htls : e.tls with
  | none => exact iff_of_true (succeeds_ok _) (fun _ h => by cases h)
  | some t =>
    have hpaired := hpaired t htls
    dsimp only
    split
    · rw [succeeds_map_iff, succeeds_readCertificates_iff hpaired]
      simp
    · rename_i hnone
      have hfiles : t.files = [] := by
        obtain ⟨caCert, clientCert, clientKey, insecure⟩ := t
        cases caCert <;> cases clientCert <;> cases clientKey <;>
          simp [Tls.files] at hnone hpaired ⊢
      simp [hfiles]

/-! ## Logins -/

theorem succeeds_address_iff : Succeeds e.address ↔ ∃ host, Host.Denotes e.host.toList host :=
  ⟨fun ⟨a, ha⟩ => ⟨a.host, (Endpoint.address_eq_ok_iff.mp ha).1⟩,
    fun ⟨host, hd⟩ => ⟨{ host, .. }, Endpoint.address_eq_ok_iff.mpr ⟨hd, rfl⟩⟩⟩

/-- What an endpoint must have to be connected to: a host that a URL can name, files that can be
read, and a password that is still text when what looks like an escape in it is undone. -/
theorem succeeds_ofEndpoint_iff
    (hpaired : ∀ t ∈ e.tls, t.clientCert.isSome = t.clientKey.isSome) :
    Succeeds (Login.ofEndpoint files e) ↔
      (∃ host, Host.Denotes e.host.toList host) ∧
      (∀ t ∈ e.tls, ∀ path ∈ t.files, Succeeds (files path)) ∧
      ∀ p ∈ e.urlPassword, (Url.decode? p).isSome = true := by
  rw [← succeeds_address_iff, ← succeeds_certificatesFor_iff hpaired, Login.ofEndpoint]
  cases haddress : e.address with
  | error err => exact iff_of_false (not_succeeds_error _) fun h => not_succeeds_error _ h.1
  | ok a =>
    rw [← Endpoint.password_of_address haddress, and_iff_right (succeeds_ok a)]
    show Succeeds (certificatesFor files e >>= _) ↔ _
    cases hcertificates : certificatesFor files e with
    | error err => exact iff_of_false (not_succeeds_error _) fun h => not_succeeds_error _ h.1
    | ok certificates =>
      rw [and_iff_right (succeeds_ok certificates)]
      cases hpassword : a.password with
      | none => exact iff_of_true (succeeds_ok _) (fun _ h => by cases h)
      | some p =>
        cases hdecoded : Url.decode? p with
        | none =>
          simp only [hdecoded]
          exact iff_of_false (not_succeeds_error _) fun h => by simpa [hdecoded] using h p rfl
        | some s =>
          simp only [hdecoded]
          exact iff_of_true (succeeds_ok _) fun _ h => by cases h; simp [hdecoded]

end Resp

/-! ## Accepted configurations -/

namespace Config

open Resp (Files Login)
open Url (Host)

variable {c : Config}

/-- A host that is not blank is not the empty one. -/
theorem ne_empty_of_parse {e : Endpoint} (h : Text.isBlankText e.host = false) :
    Host.parse e.host.toList ≠ .ok (.name []) := by
  intro hparse
  cases hb : Host.isBracketed e.host.toList with
  | true =>
    obtain ⟨ip, -, hname⟩ := (Host.parse_of_isBracketed hb).mp hparse
    cases hname
  | false =>
    obtain ⟨hhead, -, hname⟩ := (Host.parse_of_not_isBracketed hb).mp hparse
    have hused : e.host.toList.takeWhile (· != ':') = [] :=
      Url.encode_eq_nil_iff.mp (Host.name.inj hname).symm
    cases hchars : e.host.toList with
    | nil => simp [Text.isBlankText, hchars] at h
    | cons c rest =>
      rw [hchars] at hused hhead
      have hcolon : c ≠ ':' := fun hc => hhead (congrArg some hc)
      simp [hcolon] at hused

/-- An accepted configuration has a URL exactly where its host denotes one, and where it has none
the host is to blame. To connect, its files must be readable besides, and its password text. -/
theorem connectable_iff (h : c.validate.result = .ok ()) :
    (Succeeds c.endpoint.address ↔ ∃ host, Host.Denotes c.endpoint.host.toList host) ∧
      (∀ e, c.endpoint.address = .error e → ∃ err, e = .host c.endpoint.host err) ∧
      ∀ files, Succeeds (Login.ofEndpoint files c.endpoint) ↔
        Succeeds c.endpoint.address ∧
        (∀ t ∈ c.endpoint.tls, ∀ path ∈ t.files, Succeeds (files path)) ∧
        ∀ p ∈ c.endpoint.urlPassword, (Url.decode? p).isSome = true := by
  have hrules := validate_eq_ok_iff.mp h
  refine ⟨Resp.succeeds_address_iff, fun e he => ?_, fun files => ?_⟩
  · unfold Endpoint.address at he
    cases hparse : Host.parse c.endpoint.host.toList with
    | error err =>
      rw [hparse] at he
      exact ⟨err, (Except.error.inj he).symm⟩
    | ok host =>
      have hname : host ≠ .name [] := fun hname => ne_empty_of_parse hrules.host (hname ▸ hparse)
      simp only [hparse, if_neg hname] at he
      cases he
  · rw [Resp.succeeds_address_iff]
    exact Resp.succeeds_ofEndpoint_iff hrules.paired

/-- A name, with a password in which an escape is undone, and no files. -/
theorem connectable_iff_named :
    let c : Config := { endpoint := { host := "store.example", password := some "p%20q" } }
    c.validate.result = .ok () ∧
      Succeeds (Login.ofEndpoint (fun _ => .error "No such file") c.endpoint) := by
  intro c
  have hkeys : (⟨["logs"]⟩ : Destination).IsValid := ⟨by decide, by decide⟩
  have h : c.validate.result = .ok () :=
    validate_eq_ok_iff.mpr ⟨by decide, by decide, hkeys, by decide, by decide, by decide, nofun⟩
  obtain ⟨haddress, -, hlogin⟩ := connectable_iff h
  have hall : ("store.example".toList.takeWhile (· != ':')).all (!Host.isForbidden ·) = true := by
    decide
  have hhost : Host.Denotes c.endpoint.host.toList (.name "store.example".toList) :=
    ⟨by decide, by decide, fun x hx => Bool.not_eq_true' _ ▸ List.all_eq_true.mp hall x hx,
      by decide⟩
  have hpassword : ∀ p ∈ c.endpoint.urlPassword, (Url.decode? p).isSome = true := by
    decide +kernel
  exact ⟨h, (hlogin _).mpr ⟨haddress.mpr ⟨_, hhost⟩, nofun, hpassword⟩⟩

/-- **Not every accepted configuration has a URL**: a host is asked not to be blank, which one with
a space in it is not. -/
theorem accepted_without_address :
    let c : Config := { endpoint := { host := "a b" }, keys := ["k"] }
    c.validate.result = .ok () ∧ c.endpoint.address = .error (.host "a b" .invalidCharacter) :=
  ⟨rfl, rfl⟩

end Config

end LogShipper
