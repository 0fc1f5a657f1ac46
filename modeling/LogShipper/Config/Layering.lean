import LogShipper.Config.Basic
import LogShipper.Text.Bytes

/-!
# Layers of configuration

A configuration is taken from a file, or is the default one; variables of the environment then
replace parts of it, and flags of the command line replace parts of that.

Covers `load`, `load_from_file`, `load_from_env` with `apply_overrides`, and what `load_config` does
with the flags.

Out of scope: why a file cannot be read; the reason is a text that comes with it.
-/

namespace LogShipper.Config

/-- The values of environment variables. -/
abbrev Environment := String → Option String

/-- The variable that replaces the host. -/
def hostVariable : String := "LIST_SINK_HOST"

/-- The variable that replaces the port. -/
def portVariable : String := "LIST_SINK_PORT"

/-- The variable that replaces the keys. -/
def keysVariable : String := "LIST_SINK_KEYS"

/-- The variable that replaces the password. -/
def passwordVariable : String := "LIST_SINK_PASSWORD"

/-- What a path leads to. -/
inductive File where
  /-- The file cannot be read, and why. -/
  | unreadable (reason : String)
  | bytes (content : Bytes)

/-- The configuration in a file. -/
def ofFile : File → Except ConfigError Config
  | .unreadable reason => .error (.unreadable reason)
  | .bytes bs =>
    match Text.ofUtf8? bs with
    | none => .error (.unreadable "stream did not contain valid UTF-8")
    | some s => ofJson s

/-- Replaces the port. -/
def overridePort (env : Environment) (c : Config) : Except ConfigError Config :=
  match env portVariable with
  | none => .ok c
  | some s =>
    match Text.unsigned? 65535 s with
    | some n => .ok { c with endpoint := { c.endpoint with port := UInt16.ofNat n } }
    | none => .error (.invalid (portVariable ++ " is not a port: " ++ Text.quoted s))

/-- Replaces the keys. -/
def overrideKeys (env : Environment) (c : Config) : Logged (Except ConfigError Config) :=
  match env keysVariable with
  | none => .silent (.ok c)
  | some s => (Destination.parse s).andThen fun d => .silent (.ok { c with keys := d.keys })

/-- Replaces the host. -/
def overrideHost (env : Environment) (c : Config) : Config :=
  match env hostVariable with
  | none => c
  | some h => { c with endpoint := { c.endpoint with host := h } }

/-- Replaces the password. -/
def overridePassword (env : Environment) (c : Config) : Config :=
  match env passwordVariable with
  | none => c
  | some p => { c with endpoint := { c.endpoint with password := some p } }

/-- Replaces what the environment says: host, port, keys, password, in this order. -/
def override (env : Environment) (c : Config) : Logged (Except ConfigError Config) :=
  (Logged.silent (overridePort env (overrideHost env c))).andThen fun c =>
    (overrideKeys env c).andThen fun c => .silent (.ok (overridePassword env c))

/-- The configuration of a file, or the default one, with what the environment replaces; it must
keep the rules. -/
def load (file : Option File) (env : Environment) : Logged (Except ConfigError Config) :=
  let start := match file with
    | none => .ok {}
    | some f => ofFile f
  (Logged.silent start).andThen fun c =>
    (override env c).andThen fun c =>
      c.validate.andThen fun _ => .silent (.ok c)

/-- What the command line replaces. -/
structure Flags where
  host : Option String := none
  port : Option UInt16 := none
  keys : List String := []

/-- Replaces what the command line says. -/
def applyFlags (flags : Flags) (c : Config) : Config :=
  let host := flags.host.getD c.endpoint.host
  let port := flags.port.getD c.endpoint.port
  let keys := if flags.keys = [] then c.keys else flags.keys
  { c with endpoint := { c.endpoint with host, port }, keys }

/-- Why a command does not get its configuration. -/
inductive LayerError where
  /-- File and environment do not give one. -/
  | loading (error : ConfigError)
  /-- With the flags it breaks a rule. -/
  | invalid (error : ConfigError)
  deriving DecidableEq

/-- The configuration of a command: file, environment, flags. -/
def layer (file : Option File) (env : Environment) (flags : Flags) :
    Logged (Except LayerError Config) :=
  let loaded := load file env
  (⟨loaded.result.mapError .loading, loaded.log⟩ : Logged (Except LayerError Config)).andThen
    fun c =>
      let c := applyFlags flags c
      let checked := c.validate
      ⟨(checked.result.mapError .invalid).map fun _ => c, checked.log⟩

end LogShipper.Config
