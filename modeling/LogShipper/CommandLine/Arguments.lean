import LogShipper.Config.Layering
import LogShipper.Layout

/-!
# The arguments of the command

A setting is given as `--name value` or `--name=value`. Only the setting for keys may be given more
than once. A value on its own does not begin with a dash, unless it is nothing but a dash. Arguments
are read from left to right; the first one that is wrong, or asks for the version or for help, ends
the reading.

Covers the settings of `Args` with their defaults and the variable that stands for `--config`.

Out of scope: the wording of complaints, and arguments that are no text.
-/

namespace LogShipper.CommandLine

/-- What the command can be told. -/
inductive Setting where
  | config
  | host
  | port
  | key
  | layout
  | batchSize
  | shutdownTimeout
  | logLevel
  deriving DecidableEq, Repr

namespace Setting

/-- The name of a setting, without the dashes before it. -/
def name : Setting → String
  | config => "config"
  | host => "host"
  | port => "port"
  | key => "key"
  | layout => "layout"
  | batchSize => "batch-size"
  | shutdownTimeout => "shutdown-timeout-secs"
  | logLevel => "log-level"

/-- All settings. -/
def all : List Setting :=
  [config, host, port, key, layout, batchSize, shutdownTimeout, logLevel]

/-- The setting of a name. -/
def ofName? (s : String) : Option Setting := all.find? fun n => n.name == s

/-- Whether a setting may be given more than once. -/
def repeats (s : Setting) : Bool := s == key

end Setting

/-- What the command is told. -/
structure Options where
  /-- The path of the configuration file. -/
  config : Option String := none
  flags : Config.Flags := {}
  layout : LayoutKind := .raw
  /-- How many records are sent at a time. -/
  batchSize : Nat := 1
  /-- How many seconds to wait for lent links at the end. -/
  shutdownSecs : Nat := 5
  /-- Up to which level the command logs. -/
  logLevel : String := "info"

/-- What is wrong with arguments. -/
inductive UsageError where
  | unexpected (argument : String)
  | missingValue (setting : Setting)
  | invalidValue (setting : Setting) (value : String)
  | repeated (setting : Setting)
  deriving DecidableEq, Repr

/-- How the error is reported. -/
def UsageError.message : UsageError → String
  | unexpected argument => "unexpected argument '" ++ argument ++ "' found"
  | missingValue s => "a value is required for '--" ++ s.name ++ "' but none was supplied"
  | invalidValue s value => "invalid value '" ++ value ++ "' for '--" ++ s.name ++ "'"
  | repeated s => "the argument '--" ++ s.name ++ "' cannot be used multiple times"

/-- Why reading arguments ends early. -/
inductive Stop where
  | version
  | help
  | misuse (error : UsageError)
  deriving DecidableEq, Repr

/-! ## Values -/

/-- The largest number of 64 bits. -/
def maxCount : Nat := UInt64.size - 1

/-- A port, with or without a sign before it. -/
def port? (value : String) : Option UInt16 :=
  match value.toList with
  | '-' :: digits => if Text.digits? digits = some 0 then some 0 else none
  | _ => (Text.unsigned? 65535 value).map UInt16.ofNat

/-- Takes in the value of a setting. -/
def Options.set (o : Options) (value : String) : Setting → Option Options
  | .config => if value.isEmpty then none else some { o with config := some value }
  | .host => some { o with flags := { o.flags with host := some value } }
  | .port => (port? value).map fun port => { o with flags := { o.flags with port := some port } }
  | .key => some { o with flags := { o.flags with keys := o.flags.keys ++ [value] } }
  | .layout =>
    match LayoutKind.parse value with
    | .ok layout => some { o with layout }
    | .error _ => none
  | .batchSize => (Text.unsigned? maxCount value).map fun batchSize => { o with batchSize }
  | .shutdownTimeout =>
    (Text.unsigned? maxCount value).map fun shutdownSecs => { o with shutdownSecs }
  | .logLevel => some { o with logLevel := value }

/-! ## Reading -/

/-- What an argument is by itself. -/
inductive Word where
  | setting (s : Setting) (value : Option String)
  | version
  | help
  /-- The end of all settings. -/
  | ending
  | other
  deriving DecidableEq, Repr

/-- What the name of a long argument and its value stand for. -/
def Word.ofName (name : String) (value : Option String) : Word :=
  match Setting.ofName? name with
  | some s => .setting s value
  | none =>
    match name, value with
    | "version", none => .version
    | "help", none => .help
    | _, _ => .other

/-- What an argument is by itself. -/
def Word.ofArgument (argument : String) : Word :=
  match argument.toList with
  | ['-', '-'] => .ending
  | '-' :: '-' :: cs =>
    .ofName (String.ofList (cs.takeWhile (· != '=')))
      (match cs.dropWhile (· != '=') with
      | [] => none
      | _ :: value => some (String.ofList value))
  | '-' :: 'V' :: _ => .version
  | '-' :: 'h' :: _ => .help
  | _ => .other

/-- Whether an argument can be a value on its own. -/
def isValue (argument : String) : Bool :=
  match argument.toList with
  | '-' :: _ :: _ => false
  | _ => true

/-- Options, and the settings that were given so far. -/
structure Reading where
  options : Options := {}
  given : List Setting := []

/-- Takes in a setting. -/
def Reading.give (r : Reading) (s : Setting) (value : String) : Except Stop Reading :=
  if r.given.contains s && !s.repeats then .error (.misuse (.repeated s))
  else match r.options.set value s with
    | some options => .ok { options, given := s :: r.given }
    | none => .error (.misuse (.invalidValue s value))

/-- Reads arguments; the first one is the value of a setting if that waits for one. -/
def Reading.read (r : Reading) : (waiting : Option Setting) → List String → Except Stop Reading
  | none, [] => .ok r
  | some s, [] => .error (.misuse (.missingValue s))
  | some s, argument :: rest =>
    if isValue argument then (r.give s argument).bind fun r => read r none rest
    else .error (.misuse (.missingValue s))
  | none, argument :: rest =>
    match Word.ofArgument argument with
    | .setting s (some value) => (r.give s value).bind fun r => read r none rest
    | .setting s none => read r (some s) rest
    | .version => .error .version
    | .help => .error .help
    | .ending =>
      match rest with
      | [] => .ok r
      | next :: _ => .error (.misuse (.unexpected next))
    | .other => .error (.misuse (.unexpected argument))

/-- The variable that names the configuration file where no argument does. -/
def configVariable : String := "LIST_SINK_CONFIG"

/-- The options of arguments and the environment. -/
def Options.parse (env : Config.Environment) (arguments : List String) : Except Stop Options := do
  let r ← Reading.read {} none arguments
  if r.given.contains .config then return r.options
  match env configVariable with
  | none => return r.options
  | some value => return (← r.give .config value).options

end LogShipper.CommandLine
