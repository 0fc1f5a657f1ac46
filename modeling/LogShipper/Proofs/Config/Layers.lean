import LogShipper.CommandLine.Session
import LogShipper.Proofs.Config.Rules
import LogShipper.Proofs.Destination.Keys
import LogShipper.Proofs.Text.Digits
import LogShipper.World.State

/-!
# What the layers of a configuration amount to

A configuration is a base with two layers above it: the variables of the environment, and above
them the flags of the command line. Host, port and keys come from the uppermost layer that has
them; for the password there is no flag. Nothing else is touched: all other fields are the base's.

The rules are checked twice, below the flags and above them. A configuration that passes is one
that an engine can be made with.

Covers `load_config`, with `load_from_file`, `load_from_env` and the flags.

Results:
* `isLayered_of_layer`: a configuration of several layers is what the law of the layers says.
* `Options.configuration_layers`: so is the configuration of a command, and an engine is made.
-/

namespace LogShipper

/-! ## Results with a log -/

namespace Logged

variable {α β ε : Type}

theorem exists_of_andThen {x : Logged (Except ε α)} {f : α → Logged (Except ε β)} {b : β}
    (h : (x.andThen f).result = .ok b) :
    ∃ a, x.result = .ok a ∧ (f a).result = .ok b := by
  unfold andThen at h
  cases hx : x.result with
  | error e =>
    rw [hx] at h
    cases h
  | ok a =>
    rw [hx] at h
    exact ⟨a, rfl, h⟩

theorem result_andThen {x : Logged (Except ε α)} {a : α} (h : x.result = .ok a)
    (f : α → Logged (Except ε β)) : (x.andThen f).result = (f a).result := by
  simp only [andThen, h]

theorem result_andThen_error {x : Logged (Except ε α)} {e : ε} (h : x.result = .error e)
    (f : α → Logged (Except ε β)) : (x.andThen f).result = .error e := by
  simp only [andThen, h]

end Logged

/-! ## The law of the layers -/

namespace Config

variable {env : Environment} {flags : Flags} {base c : Config}

/-- A setting is what the flag says; without a flag, what is read from the variable; without both,
what the base says. -/
def Prevails {α β : Type} (Reads : β → α → Prop) (flag : Option α) (told : Option β)
    (beneath chosen : α) : Prop :=
  match flag with
  | some a => chosen = a
  | none =>
    match told with
    | some b => Reads b chosen
    | none => chosen = beneath

/-- The keys of the flags, where there are any. -/
def Flags.keys? (flags : Flags) : Option (List String) :=
  if flags.keys = [] then none else some flags.keys

/-- What variables and flags make of a base. -/
structure IsLayered (base : Config) (env : Environment) (flags : Flags) (c : Config) : Prop where
  host : Prevails (fun s host => host = s) flags.host (env hostVariable)
    base.endpoint.host c.endpoint.host
  port : Prevails (fun s port => Text.StandsFor s port.toNat) flags.port (env portVariable)
    base.endpoint.port c.endpoint.port
  keys : Prevails Destination.ListsKeys flags.keys? (env keysVariable) base.keys c.keys
  password : Prevails (fun s password => password = some s) none (env passwordVariable)
    base.endpoint.password c.endpoint.password
  rest : c = { base with
    keys := c.keys
    endpoint := { base.endpoint with
      host := c.endpoint.host, port := c.endpoint.port, password := c.endpoint.password } }

/-- What the layers lie on: the configuration in a file, or the default one where there is no
file. -/
def IsBase (base : Config) : Option File → Prop
  | none => base = {}
  | some f => ofFile f = .ok base

/-- A flag put above what prevails without it. -/
theorem Prevails.getD {α β : Type} {Reads : β → α → Prop} {told : Option β} {beneath chosen : α}
    (h : Prevails Reads none told beneath chosen) (flag : Option α) :
    Prevails Reads flag told beneath (flag.getD chosen) := by
  cases flag with
  | none => exact h
  | some a => rfl

theorem overrideHost_eq (env : Environment) (c : Config) : overrideHost env c =
    { c with endpoint := { c.endpoint with
      host := (env hostVariable).getD c.endpoint.host } } := by
  unfold overrideHost
  cases env hostVariable <;> rfl

theorem overridePassword_eq (env : Environment) (c : Config) : overridePassword env c =
    { c with endpoint := { c.endpoint with
      password := (env passwordVariable).or c.endpoint.password } } := by
  unfold overridePassword
  cases env passwordVariable <;> rfl

theorem applyFlags_eq (flags : Flags) (c : Config) : c.applyFlags flags =
    { c with
      keys := flags.keys?.getD c.keys
      endpoint := { c.endpoint with
        host := flags.host.getD c.endpoint.host, port := flags.port.getD c.endpoint.port } } := by
  unfold applyFlags Flags.keys?
  split <;> rfl

/-- The variable for the port changes the port and nothing else. -/
theorem overridePort_ok (h : overridePort env base = .ok c) :
    ∃ port, c = { base with endpoint := { base.endpoint with port } } ∧
      Prevails (fun s port => Text.StandsFor s port.toNat) none (env portVariable)
        base.endpoint.port port := by
  cases hs : env portVariable with
  | none =>
    simp only [overridePort, hs] at h
    cases h
    exact ⟨base.endpoint.port, rfl, rfl⟩
  | some s =>
    simp only [overridePort, hs] at h
    cases hn : Text.unsigned? 65535 s with
    | none =>
      rw [hn] at h
      cases h
    | some n =>
      rw [hn] at h
      cases h
      obtain ⟨hle, hs⟩ := Text.unsigned?_eq_some_iff.mp hn
      refine ⟨_, rfl, ?_⟩
      simpa only [Prevails, UInt16.toNat_ofNat_of_lt' (Nat.lt_succ_of_le hle)] using hs

/-- The variable for the keys changes the keys and nothing else. -/
theorem overrideKeys_ok (h : (overrideKeys env base).result = .ok c) :
    ∃ keys, c = { base with keys } ∧
      Prevails Destination.ListsKeys none (env keysVariable) base.keys keys := by
  cases hs : env keysVariable with
  | none =>
    simp only [overrideKeys, hs] at h
    cases h
    exact ⟨base.keys, rfl, rfl⟩
  | some s =>
    simp only [overrideKeys, hs] at h
    obtain ⟨d, hd, h⟩ := Logged.exists_of_andThen h
    cases h
    exact ⟨_, rfl, Destination.parse_keys hd ▸ Destination.listsKeys_pieces s⟩

/-- What variables make of a base is the law without flags. -/
theorem isLayered_of_override (h : (override env base).result = .ok c) :
    IsLayered base env {} c := by
  obtain ⟨withPort, hwithPort, h⟩ := Logged.exists_of_andThen h
  obtain ⟨withKeys, hwithKeys, h⟩ := Logged.exists_of_andThen h
  rw [overrideHost_eq] at hwithPort
  obtain ⟨port, rfl, hport⟩ := overridePort_ok hwithPort
  obtain ⟨keys, rfl, hkeys⟩ := overrideKeys_ok hwithKeys
  rw [overridePassword_eq] at h
  cases h
  refine ⟨?_, hport, hkeys, ?_, rfl⟩
  · cases hhost : env hostVariable <;> rfl
  · cases hpassword : env passwordVariable <;> rfl

/-- Flags are put above variables. -/
theorem IsLayered.applyFlags (h : IsLayered base env {} c) (flags : Flags) :
    IsLayered base env flags (c.applyFlags flags) := by
  rw [applyFlags_eq]
  refine ⟨h.host.getD _, h.port.getD _, h.keys.getD _, h.password, ?_⟩
  rw [h.rest]

/-- What a command is configured with after its first check, below the flags. -/
theorem exists_base_of_load {file : Option File} (h : (load file env).result = .ok c) :
    ∃ base, IsBase base file ∧ IsLayered base env {} c := by
  obtain ⟨base, hbase, h⟩ := Logged.exists_of_andThen h
  obtain ⟨c', hlayered, h⟩ := Logged.exists_of_andThen h
  obtain ⟨⟨⟩, -, h⟩ := Logged.exists_of_andThen h
  cases h
  refine ⟨base, ?_, isLayered_of_override hlayered⟩
  cases file with
  | none => exact (Except.ok.inj hbase).symm
  | some f => exact hbase

/-- A configuration of several layers is what the law says, and keeps the rules. -/
theorem isLayered_of_layer {file : Option File} (h : (layer file env flags).result = .ok c) :
    ∃ base, IsBase base file ∧ IsLayered base env flags c ∧ c.validate.result = .ok () := by
  obtain ⟨loaded, hloaded, h⟩ := Logged.exists_of_andThen h
  obtain ⟨base, hbase, hlayered⟩ := exists_base_of_load (mapError_eq_ok_iff.mp hloaded)
  cases hchecked : ((loaded.applyFlags flags).validate).result with
  | error e =>
    simp only [hchecked] at h
    cases h
  | ok u =>
    simp only [hchecked] at h
    cases h
    exact ⟨base, hbase, hlayered.applyFlags flags, hchecked⟩

theorem destination_result (c : Config) : c.destination.result = Destination.ofKeys? c.keys := by
  unfold destination Destination.ofKeys
  cases Destination.ofKeys? c.keys <;> rfl

/-- An engine works with what a configuration says. -/
structure Equips (c : Config) (e : Delivery.Engine) : Prop where
  name : e.name = c.name
  keys : e.destination.keys = c.keys
  retry : e.retry = c.retry
  pool : e.pool = { endpoint := c.endpoint, config := c.pool }

/-- An engine is made with every configuration that keeps the rules. -/
theorem exists_engine_of_validate {σ : Type} (h : c.validate.result = .ok ()) (batchName : String)
    (remote : σ) : ∃ e w, World.ofConfig batchName remote c = .ok (e, w) ∧ c.Equips e := by
  obtain ⟨⟨⟩, -, hrest⟩ := Logged.exists_of_andThen h
  obtain ⟨d, hd, -⟩ := Logged.exists_of_andThen hrest
  have hkeys : d.keys = c.keys := Destination.keys_of_ofKeys? (destination_result c ▸ hd)
  have made (token : Cancel.TokenId) : (Delivery.Engine.ofConfig c token).result = .ok {
      name := c.name, destination := d, retry := c.retry
      pool := { endpoint := c.endpoint, config := c.pool }, token } := by
    rw [Delivery.Engine.ofConfig, Logged.result_andThen h, Logged.result_andThen hd]
    rfl
  exact ⟨_, _, congrArg (Except.map _) (made _), rfl, hkeys, rfl, rfl⟩

end Config

namespace CommandLine

open Config (Environment File IsBase IsLayered)

/-- Where a command gets a configuration, all of it is what the layers say, it keeps the rules, and
an engine is made with it. -/
theorem Options.configuration_layers {o : Options} {files : String → File} {env : Environment}
    {c : Config} (h : (o.configuration files env).result = .ok c) :
    ∃ base, IsBase base (o.config.map files) ∧ IsLayered base env o.flags c ∧
      c.validate.result = .ok () ∧
      ∀ {σ : Type} (batchName : String) (remote : σ),
        ∃ e w, World.ofConfig batchName remote c = .ok (e, w) ∧ c.Equips e := by
  obtain ⟨base, hbase, hlayered, hvalid⟩ := Config.isLayered_of_layer h
  exact ⟨base, hbase, hlayered, hvalid, fun batchName remote =>
    Config.exists_engine_of_validate hvalid batchName remote⟩

/-- A file, three variables and a flag: the host is the flag's though both others have one, the
port and the keys are the environment's, the name and the password are the file's. -/
theorem Options.configuration_layers_mixed :
    let o : Options := { config := some "shipper.json", flags := { host := some "flagged" } }
    let file : File := .bytes (Text.utf8 ("\x7b\"name\":\"n\",\"endpoint\":" ++
      "\x7b\"host\":\"filed\",\"password\":\"p\"\x7d,\"keys\":[\"k\"]\x7d"))
    let env : Environment := fun name =>
      if name = Config.hostVariable then some "told"
      else if name = Config.portVariable then some "+0800"
      else if name = Config.keysVariable then some " a ,,b"
      else none
    let c : Config := {
      name := "n", endpoint := { host := "flagged", port := 800, password := some "p" }
      keys := ["a", "b"] }
    (o.configuration (fun _ => file) env).result = .ok c ∧
      ∃ base, IsBase base (some file) ∧ IsLayered base env o.flags c ∧
        c.validate.result = .ok () := by
  intro o file env c
  have h : (o.configuration (fun _ => file) env).result = .ok c := by decide +kernel
  obtain ⟨base, hbase, hlayered, hvalid, -⟩ := Options.configuration_layers h
  exact ⟨h, base, hbase, hlayered, hvalid⟩

end CommandLine

end LogShipper
