import LogShipper.Proofs.Config.Layers
import LogShipper.Proofs.Config.Rules

/-!
# What a higher layer overrides

A variable is put in before anything is checked, so it overrides what a file says whatever that
is. A flag is put in afterwards: what the layers below the flags make by themselves is checked
first, and must keep the rules although the flags replace parts of it.

Covers `load_config`, with `load` before the flags.

Results:
* `IsLayered.eq`: the law of the layers leaves one configuration.
* `load_eq_ok_iff`: variables override a file.
* `Options.configuration_of_isLayered`: when flags override what is below them.
-/

namespace LogShipper

/-! ## Layers that are put in -/

namespace Config

variable {env : Environment} {flags : Flags} {base c c' : Config} {file : Option File}

/-- Where a text is read in one way, one setting prevails. -/
theorem Prevails.eq {α β : Type} {Reads : β → α → Prop}
    (hreads : ∀ told a a', Reads told a → Reads told a' → a = a') {flag : Option α}
    {told : Option β} {beneath chosen chosen' : α} (h : Prevails Reads flag told beneath chosen)
    (h' : Prevails Reads flag told beneath chosen') : chosen = chosen' := by
  cases flag with
  | some a => exact h.trans h'.symm
  | none =>
    cases told with
    | some b => exact hreads b _ _ h h'
    | none => exact h.trans h'.symm

theorem eq_of_standsFor (s : String) (port port' : UInt16) (h : Text.StandsFor s port.toNat)
    (h' : Text.StandsFor s port'.toNat) : port = port' := by
  have hread (p : UInt16) (hp : Text.StandsFor s p.toNat) :
      Text.unsigned? 65535 s = some p.toNat :=
    Text.unsigned?_eq_some_iff.mpr ⟨Nat.le_of_lt_succ p.toNat_lt, hp⟩
  exact UInt16.toNat_inj.mp (Option.some.inj ((hread port h).symm.trans (hread port' h')))

/-- The law of the layers leaves one configuration. -/
theorem IsLayered.eq (h : IsLayered base env flags c) (h' : IsLayered base env flags c') :
    c = c' := by
  have hhost := h.host.eq (fun _ _ _ ha ha' => ha.trans ha'.symm) h'.host
  have hport := h.port.eq eq_of_standsFor h'.port
  have hkeys := h.keys.eq (fun _ _ _ ha ha' => ha.eq_pieces.trans ha'.eq_pieces.symm) h'.keys
  have hpassword := h.password.eq (fun _ _ _ ha ha' => ha.trans ha'.symm) h'.password
  rw [h.rest, h'.rest, hhost, hport, hkeys, hpassword]

/-- A port that the variable stands for is put in. -/
theorem overridePort_of_prevails (base : Config) (port : UInt16)
    (h : Prevails (fun s port => Text.StandsFor s port.toNat) none (env portVariable)
      base.endpoint.port port) :
    overridePort env base = .ok { base with endpoint := { base.endpoint with port } } := by
  unfold overridePort
  cases hs : env portVariable with
  | none =>
    rw [hs] at h
    cases h
    rfl
  | some s =>
    rw [hs] at h
    have hread : Text.unsigned? 65535 s = some port.toNat :=
      Text.unsigned?_eq_some_iff.mpr ⟨Nat.le_of_lt_succ port.toNat_lt, h⟩
    simp only [hread, UInt16.ofNat_toNat]

/-- Keys that the variable lists are put in, if records can be sent to them. -/
theorem overrideKeys_of_prevails (base : Config) (keys : List String)
    (h : Prevails Destination.ListsKeys none (env keysVariable) base.keys keys)
    (hmade : Destination.ofKeys? keys = .ok ⟨keys⟩) :
    (overrideKeys env base).result = .ok { base with keys } := by
  unfold overrideKeys
  cases hs : env keysVariable with
  | none =>
    rw [hs] at h
    cases h
    rfl
  | some s =>
    rw [hs] at h
    have hparsed : (Destination.parse s).result = .ok ⟨keys⟩ := by
      rw [Destination.parse, Destination.result_ofKeys, ← h.eq_pieces]
      exact hmade
    exact Logged.result_andThen hparsed _

/-- A configuration that keeps the rules names lists that records can be sent to. -/
theorem ofKeys?_of_validate (h : c.validate.result = .ok ()) :
    Destination.ofKeys? c.keys = .ok ⟨c.keys⟩ :=
  Destination.ofKeys?_eq_ok_iff.mpr ⟨rfl, (validate_eq_ok_iff.mp h).keys⟩

/-- What the law without flags says is what the variables make, if it keeps the rules. -/
theorem override_of_isLayered (h : IsLayered base env {} c) (hvalid : c.validate.result = .ok ()) :
    (override env base).result = .ok c := by
  have hhost : (env hostVariable).getD base.endpoint.host = c.endpoint.host := by
    have hprevails := h.host
    cases hs : env hostVariable <;> rw [hs] at hprevails <;> exact hprevails.symm
  have hpassword : (env passwordVariable).or base.endpoint.password = c.endpoint.password := by
    have hprevails := h.password
    cases hs : env passwordVariable <;> rw [hs] at hprevails <;> exact hprevails.symm
  have hport := overridePort_of_prevails (overrideHost env base) c.endpoint.port
    (by rw [overrideHost_eq]; exact h.port)
  have hkeys := overrideKeys_of_prevails
    { overrideHost env base with
      endpoint := { (overrideHost env base).endpoint with port := c.endpoint.port } } c.keys
    (by rw [overrideHost_eq]; exact h.keys) (ofKeys?_of_validate hvalid)
  unfold override
  rw [Logged.result_andThen hport, Logged.result_andThen hkeys, overridePassword_eq,
    overrideHost_eq, hhost, hpassword]
  exact congrArg Except.ok h.rest.symm

/-- What is loaded once the file is read. -/
theorem load_of_isBase (hbase : IsBase base file) : (load file env).result =
    ((override env base).andThen fun c => c.validate.andThen fun _ => .silent (.ok c)).result := by
  cases file with
  | none =>
    cases hbase
    rfl
  | some f => exact Logged.result_andThen (x := .silent (ofFile f)) hbase _

/-- Variables override a file: what is loaded is what the law without flags says, whatever it
replaces, and it is loaded if it keeps the rules. -/
theorem load_eq_ok_iff (hbase : IsBase base file) :
    (load file env).result = .ok c ↔ IsLayered base env {} c ∧ c.validate.result = .ok () := by
  rw [load_of_isBase hbase]
  constructor
  · intro h
    obtain ⟨c', hoverride, h⟩ := Logged.exists_of_andThen h
    obtain ⟨⟨⟩, hvalid, h⟩ := Logged.exists_of_andThen h
    cases h
    exact ⟨isLayered_of_override hoverride, hvalid⟩
  · rintro ⟨hlayered, hvalid⟩
    rw [Logged.result_andThen (override_of_isLayered hlayered hvalid),
      Logged.result_andThen hvalid]
    rfl

/-- What is loaded is what all layers make of a base if the layers below the flags make something
of it that keeps the rules. -/
theorem layer_of_isLayered {below : Config} (hbase : IsBase base file)
    (hbelow : IsLayered base env {} below) (hkept : below.validate.result = .ok ())
    (hlayered : IsLayered base env flags c) (hvalid : c.validate.result = .ok ()) :
    (layer file env flags).result = .ok c := by
  cases hlayered.eq (hbelow.applyFlags flags)
  have hload : (load file env).result = .ok below := (load_eq_ok_iff hbase).mpr ⟨hbelow, hkept⟩
  unfold layer
  rw [Logged.result_andThen (a := below) (congrArg (Except.mapError LayerError.loading) hload)]
  exact congrArg (fun r => (Except.mapError LayerError.invalid r).map fun _ =>
    below.applyFlags flags) hvalid

/-- Else the flags are not looked at. -/
theorem layer_of_not_isLayered (hbase : IsBase base file)
    (hnone : ¬ ∃ below, IsLayered base env {} below ∧ below.validate.result = .ok ()) :
    ∃ e, (load file env).result = .error e ∧
      (layer file env flags).result = .error (.loading e) := by
  cases hload : (load file env).result with
  | ok below => exact absurd ⟨below, (load_eq_ok_iff hbase).mp hload⟩ hnone
  | error e =>
    exact ⟨e, rfl, Logged.result_andThen_error
      (congrArg (Except.mapError LayerError.loading) hload) _⟩

end Config

namespace CommandLine

open Config (Environment File IsBase IsLayered)

/-- A configuration of all layers that keeps the rules is what a command gets if, and only if,
there is one of the layers below the flags that keeps them too; else the command fails over a value
that is overridden. Variables override a file in any case: without flags there is nothing more to
ask for. -/
theorem Options.configuration_of_isLayered {o : Options} {files : String → File}
    {env : Environment} {base c : Config} (hbase : IsBase base (o.config.map files))
    (hlayered : IsLayered base env o.flags c) (hvalid : c.validate.result = .ok ()) :
    ((o.configuration files env).result = .ok c ↔
        ∃ below, IsLayered base env {} below ∧ below.validate.result = .ok ()) ∧
      ((o.configuration files env).result = .ok c ∨
        ∃ e, (Config.load (o.config.map files) env).result = .error e ∧
          (o.configuration files env).result = .error (.loading e)) ∧
      (o.flags = {} → (o.configuration files env).result = .ok c) := by
  by_cases hbelow : ∃ below, IsLayered base env {} below ∧ below.validate.result = .ok ()
  · have hmade : (o.configuration files env).result = .ok c := by
      obtain ⟨below, hlayered', hkept⟩ := hbelow
      exact Config.layer_of_isLayered hbase hlayered' hkept hlayered hvalid
    exact ⟨iff_of_true hmade hbelow, .inl hmade, fun _ => hmade⟩
  · obtain ⟨e, hload, hfailed⟩ :
        ∃ e, (Config.load (o.config.map files) env).result = .error e ∧
          (o.configuration files env).result = .error (.loading e) :=
      Config.layer_of_not_isLayered hbase hbelow
    refine ⟨iff_of_false (fun hmade => ?_) hbelow, .inr ⟨e, hload, hfailed⟩, fun hflags => ?_⟩
    · cases hmade.symm.trans hfailed
    · exact absurd ⟨c, hflags ▸ hlayered, hvalid⟩ hbelow

/-- A file without keys and with a port of zero, both repaired by variables; host and keys are then
overridden by flags. -/
theorem Options.configuration_of_isLayered_repaired :
    let o : Options := {
      config := some "shipper.json", flags := { host := some "flagged", keys := ["k"] } }
    let file : File := .bytes (Text.utf8
      "\x7b\"endpoint\":\x7b\"host\":\"filed\",\"port\":0\x7d,\"keys\":[]\x7d")
    let env : Environment := fun name =>
      if name = Config.portVariable then some "+0800"
      else if name = Config.keysVariable then some " a ,,b"
      else none
    let base : Config := { endpoint := { host := "filed", port := 0 }, keys := [] }
    let c : Config := { endpoint := { host := "flagged", port := 800 }, keys := ["k"] }
    IsBase base (o.config.map fun _ => file) ∧ IsLayered base env o.flags c ∧
      c.validate.result = .ok () ∧ (o.configuration (fun _ => file) env).result = .ok c := by
  intro o file env base c
  have hbase : IsBase base (some file) :=
    show Config.ofFile file = .ok base by decide +kernel
  have hbelow : IsLayered base env {}
      { endpoint := { host := "filed", port := 800 }, keys := ["a", "b"] } :=
    Config.isLayered_of_override (by decide +kernel)
  have hlayered : IsLayered base env o.flags c := hbelow.applyFlags o.flags
  have hvalid : c.validate.result = .ok () := by decide +kernel
  exact ⟨hbase, hlayered, hvalid,
    (Options.configuration_of_isLayered hbase hlayered hvalid).1.mpr
      ⟨_, hbelow, by decide +kernel⟩⟩

/-- A key on the command line does not make up for a file without keys. -/
theorem Options.key_flag_unheeded :
    let o : Options := { config := some "shipper.json", flags := { keys := ["a"] } }
    let file : File := .bytes (Text.utf8
      "\x7b\"endpoint\":\x7b\"host\":\"127.0.0.1\"\x7d,\"keys\":[]\x7d")
    let base : Config := { keys := [] }
    let c : Config := { keys := ["a"] }
    IsBase base (o.config.map fun _ => file) ∧ IsLayered base (fun _ => none) o.flags c ∧
      c.validate.result = .ok () ∧
      (o.configuration (fun _ => file) fun _ => none).result =
        .error (.loading (.invalid "at least one destination key is required")) := by
  intro o file base c
  have hbase : IsBase base (some file) :=
    show Config.ofFile file = .ok base by decide +kernel
  have hbelow : IsLayered base (fun _ => none) {} base := Config.isLayered_of_override rfl
  exact ⟨hbase, hbelow.applyFlags o.flags, by decide +kernel, by decide +kernel⟩

end CommandLine

end LogShipper
