import LogShipper.CommandLine.Session
import LogShipper.Live.Performance

/-!
# The command

Reads lines from the standard input and ships each one. What it logs goes to the standard error.

Out of scope: signals, as in a session.
-/

namespace LogShipper.Live

open CommandLine (Failure Options Outcome)

/-- The variables that the command looks at. -/
def variableNames : List String :=
  [Config.hostVariable, Config.portVariable, Config.keysVariable, Config.passwordVariable,
    CommandLine.configVariable, LogFilter.variableName]

/-- The environment, as far as the command looks at it. -/
def environment : IO Config.Environment := do
  let found ← variableNames.filterMapM fun name => do
    return (← IO.getEnv name).map fun value => (name, value)
  return fun name => found.lookup name

/-- What a path leads to. -/
def readFile (path : String) : IO (Except String Bytes) := do
  try
    let content ← IO.FS.readBinFile path
    return .ok content.toList
  catch e => return .error (toString e)

/-- The configuration file that is asked for. -/
def readConfig (o : Options) : IO (String → Config.File) := do
  match o.config with
  | none => return fun _ => .unreadable ""
  | some path =>
    match ← readFile path with
    | .ok content => return fun _ => .bytes content
    | .error e => return fun _ => .unreadable e

/-- The files of secure connections. -/
def readMaterials (e : Endpoint) : IO Resp.Files := do
  let paths := match e.tls with
    | some t => [t.caCert, t.clientCert, t.clientKey].filterMap id
    | none => []
  let contents ← paths.mapM fun path => return (path, ← readFile path)
  return fun path => (contents.lookup path).getD (.error "not read")

/-- Reads a line with its end; nothing at the end of the input. -/
partial def readLine (input : IO.FS.Stream) (line : ByteArray) : IO ByteArray := do
  let b ← input.read 1
  if b.isEmpty then return line
  let line := line ++ b
  if b.toList = [Text.lineFeed] then return line else readLine input line

/-- Pumps the standard input. -/
partial def pump (p : Performance) (o : Options) (a : Appender) (input : IO.FS.Stream)
    (state : Pump) : IO Outcome := do
  let raw ← readLine input .empty
  if raw.isEmpty then p.hold (CommandLine.wrapUp o a state)
  else
    let line : Line := ⟨← now, raw.toList⟩
    match line.record? with
    | .error reason => return .failed (.reading reason)
    | .ok none => pump p o a input state
    | .ok (some r) => pump p o a input (← p.hold (state.take a o.batchSize r))

/-- Runs the command with a configuration. -/
def run (o : Options) (filter : LogFilter) (config : Config) : IO Outcome := do
  let pid ← Std.Internal.UV.System.osGetPid
  match World.ofConfig "" {} config with
  | .error e => return .failed (.configuration (.invalid e))
  | .ok (engine, world) =>
    let a := o.appender config engine pid.toNat
    let network : Network := ⟨config.ioMillis, ← IO.mkRef []⟩
    let login := Resp.Login.ofEndpoint (← readMaterials config.endpoint) config.endpoint
    let p : Performance :=
      ⟨engine.pool, network, login, filter, ← IO.mkRef { world with clock := ← clock }⟩
    match ← p.hold (CommandLine.launch o a) with
    | .error outcome => return outcome
    | .ok () => pump p o a (← IO.getStdin) {}

/-- Runs the command with its options. -/
def start (o : Options) (env : Config.Environment) : IO Outcome := do
  match o.filter env with
  | .error outcome => return outcome
  | .ok filter =>
    let made := o.configuration (← readConfig o) env
    made.log.forM (printEntry filter)
    match made.result with
    | .error e => return .failed (.configuration e)
    | .ok config => run o filter config

/-- Tells how a run ended. -/
def tell : Outcome → IO Unit
  | .told text => IO.print text
  | .misused error => IO.eprintln ("error: " ++ error.message)
  | .failed failure => failure.report.forM IO.eprintln
  | .crashed reason => IO.eprintln reason
  | .finished _ => return

end LogShipper.Live

/-- Runs the command. -/
def main (arguments : List String) : IO UInt32 := do
  let env ← LogShipper.Live.environment
  let outcome ← match LogShipper.CommandLine.Options.parse env arguments with
    | .error stop => pure stop.outcome
    | .ok o => LogShipper.Live.start o env
  LogShipper.Live.tell outcome
  return UInt32.ofNat outcome.exitCode
