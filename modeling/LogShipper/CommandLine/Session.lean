import LogShipper.CommandLine.Arguments
import LogShipper.LogFilter.Basic
import LogShipper.Pump

/-!
# A session of the command

The command takes its configuration from a file, the environment and its arguments, starts an
appender, pumps the lines that it reads, stops the appender and logs how many records were
delivered and how many were not. Records that are not delivered are no failure of the command.

Covers `init_logging`, `load_config`, `main` and what it reports and returns in the end.

Out of scope: signals (`spawn_signal_handler`), which would end a session before its lines do; the
wording of the help text.
-/

namespace LogShipper.CommandLine

open Delivery (Dialogue Engine)

/-! ## How a run ends -/

/-- Why the command gives up. -/
inductive Failure where
  | configuration (error : Config.LayerError)
  | starting (error : LifecycleError)
  | reading (reason : String)
  deriving DecidableEq

namespace Failure

/-- What the command was about to do. -/
def context : Failure → String
  | configuration (.loading _) => "loading configuration"
  | configuration (.invalid _) => "invalid configuration"
  | starting _ => "starting appender"
  | reading _ => "reading stdin"

/-- The reasons of a configuration error, each the reason of the one before it. -/
def configCauses : ConfigError → List String
  | .unreadable r => [ConfigError.message (.unreadable r), r]
  | .document (.data m) => [ConfigError.message (.document (.data m)), m]
  | .document p => [ConfigError.message (.document p), ConfigError.message (.document p)]
  | .invalid r => [ConfigError.message (.invalid r)]

/-- The reasons, each the reason of the one before it. -/
def causes : Failure → List String
  | configuration (.loading e) => configCauses e
  | configuration (.invalid e) => configCauses e
  | starting e => [e.message]
  | reading r => [r]

/-- Reasons as they are listed: numbered if there are several. -/
def listed : List String → List String
  | [cause] => [cause]
  | causes => causes.mapIdx fun i cause => Text.decimal i ++ ": " ++ cause

/-- What is reported, line by line. -/
def report (f : Failure) : List String :=
  ["Error: " ++ f.context, "", "Caused by:"] ++ (listed f.causes).map ("    " ++ ·)

end Failure

/-- How a run of the command ends. -/
inductive Outcome where
  /-- A text was asked for. -/
  | told (text : String)
  | misused (error : UsageError)
  | failed (failure : Failure)
  /-- The command breaks down. -/
  | crashed (reason : String)
  | finished (totals : Totals)
  deriving DecidableEq

/-- The code that a run is left with. -/
def Outcome.exitCode : Outcome → Nat
  | told _ => 0
  | misused _ => 2
  | failed _ => 1
  | crashed _ => 101
  | finished _ => 0

/-- The name of the command and its version. -/
def versionText : String := "list-sink 0.1.0\n"

/-- How the command is used. -/
def helpText : String :=
  "Ship newline-separated log records from stdin to lists\n\nUsage: list-sink [OPTIONS]\n\n" ++
    "Options:\n" ++ String.join (Setting.all.map fun s => "  --" ++ s.name ++ " <VALUE>\n") ++
    "  -h, --help\n  -V, --version\n"

/-- How a run ends whose arguments were not read to the end. -/
def Stop.outcome : Stop → Outcome
  | .version => .told versionText
  | .help => .told helpText
  | .misuse error => .misused error

/-! ## Sessions -/

/-- What is shown of the log of a session. A torn directive breaks the command down before it looks
at its configuration. -/
def Options.filter (o : Options) (env : Config.Environment) : Except Outcome LogFilter :=
  match LogFilter.choose? (env LogFilter.variableName) o.logLevel with
  | some f => .ok f
  | none => .error (.crashed "a part of a log directive begins or ends inside a character")

/-- The configuration of a session; `files` tells what a path leads to. -/
def Options.configuration (o : Options) (files : String → Config.File)
    (env : Config.Environment) : Logged (Except Config.LayerError Config) :=
  Config.layer (o.config.map files) env o.flags

/-- The appender of a session. -/
def Options.appender (o : Options) (c : Config) (e : Engine) (pid : Nat) : Appender :=
  ⟨e, o.layout.build c.name pid⟩

/-- A log entry of the command. -/
def log (level : Level) (message : String) (fields : List (String × String)) : Dialogue Unit :=
  .log level .command message fields

/-- The largest batch that there is room for: records of 96 bytes in half of all addresses. -/
def maxBatch : Nat := (UInt64.size / 2 - 1) / 96

/-- What the last entry of a session says. -/
def stoppedMessage : String := "list-sink stopped"

section

variable (o : Options) (a : Appender)

/-- Starts the appender. -/
def launch : Dialogue (Except Outcome Unit) := do
  match ← a.engine.startup with
  | .error e => return .error (.failed (.starting e))
  | .ok () =>
    log .info "list-sink started" [("appender", a.display), ("layout", o.layout.name),
      ("batch_size", Text.decimal o.batchSize)]
    if maxBatch < o.batchSize then return .error (.crashed "capacity overflow")
    else return .ok ()

/-- Sends what waits and stops the appender. -/
def wrapUp (p : Pump) : Dialogue Outcome := do
  let p ← p.flush a
  let drained ← a.engine.shutdown (some (o.shutdownSecs * 1000))
  if !drained then log .warn "Connections still in use at shutdown" []
  log .info stoppedMessage [("delivered", Text.decimal p.totals.delivered),
    ("failed", Text.decimal p.totals.failed)]
  return .finished p.totals

/-- Pumps the lines of a session. -/
def session (lines : List Line) : Dialogue Outcome := do
  match ← launch o a with
  | .error outcome => return outcome
  | .ok () =>
    match ← Pump.runLines a o.batchSize {} lines with
    | .error reason => return .failed (.reading reason)
    | .ok p => wrapUp o a p

end

end LogShipper.CommandLine
