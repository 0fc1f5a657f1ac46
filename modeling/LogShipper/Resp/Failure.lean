import LogShipper.Failure

/-!
# What can go wrong between a client and a server

A `ClientFailure` is what a command comes back with when it fails: something is wrong with the
connection, the server answered with an error, or the answer is not what was asked for.
`ClientFailure.toLinkError` decides whether the link can go on being used.

Covers `classify`, over all kinds of failures that a client tells apart.

Out of scope: which failures of the system a client calls dropped, refused or timed out; all of them
are failures of the connection.

Results:
* `isConnection_iff`: the link is lost exactly when its connection failed.
-/

namespace LogShipper.Resp

/-- The kinds of failures. -/
inductive FailureKind where
  | response
  | parse
  | authentication
  | type
  | execAbort
  | busyLoading
  | noScript
  | clientConfig
  | moved
  | ask
  | tryAgain
  | clusterDown
  | crossSlot
  | masterDown
  | io
  | client
  | extension
  | readOnly
  | masterNameNotFound
  | noValidReplicas
  | noSentinels
  | notBusy
  | clusterConnectionNotFound
  | noSub
  | protocolNotSupported
  deriving DecidableEq, Repr

namespace FailureKind

/-- The name of a kind. -/
def name : FailureKind → String
  | response => "ResponseError"
  | parse => "ParseError"
  | authentication => "AuthenticationFailed"
  | type => "TypeError"
  | execAbort => "ExecAbortError"
  | busyLoading => "BusyLoadingError"
  | noScript => "NoScriptError"
  | clientConfig => "InvalidClientConfig"
  | moved => "Moved"
  | ask => "Ask"
  | tryAgain => "TryAgain"
  | clusterDown => "ClusterDown"
  | crossSlot => "CrossSlot"
  | masterDown => "MasterDown"
  | io => "IoError"
  | client => "ClientError"
  | extension => "ExtensionError"
  | readOnly => "ReadOnly"
  | masterNameNotFound => "MasterNameNotFoundBySentinel"
  | noValidReplicas => "NoValidReplicasFoundBySentinel"
  | noSentinels => "EmptySentinelList"
  | notBusy => "NotBusy"
  | clusterConnectionNotFound => "ClusterConnectionNotFound"
  | noSub => "NoSub"
  | protocolNotSupported => "RESP3NotSupported"

/-- All kinds. -/
def all : List FailureKind :=
  [response, parse, authentication, type, execAbort, busyLoading, noScript, clientConfig, moved,
    ask, tryAgain, clusterDown, crossSlot, masterDown, io, client, extension, readOnly,
    masterNameNotFound, noValidReplicas, noSentinels, notBusy, clusterConnectionNotFound, noSub,
    protocolNotSupported]

/-- The kind of a name. -/
def ofName? (s : String) : Option FailureKind := all.find? fun k => k.name == s

/-- The kind of an error that a server signals by a code of its own. -/
def ofCode? : String → Option FailureKind
  | "ERR" => some response
  | "EXECABORT" => some execAbort
  | "LOADING" => some busyLoading
  | "NOSCRIPT" => some noScript
  | "MOVED" => some moved
  | "ASK" => some ask
  | "TRYAGAIN" => some tryAgain
  | "CLUSTERDOWN" => some clusterDown
  | "CROSSSLOT" => some crossSlot
  | "MASTERDOWN" => some masterDown
  | "READONLY" => some readOnly
  | "NOTBUSY" => some notBusy
  | "NOSUB" => some noSub
  | _ => none

end FailureKind

/-- Why a command failed. -/
inductive ClientFailure where
  /-- A failure of some kind, with a description and perhaps a detail. -/
  | described (kind : FailureKind) (description : String) (detail : Option String)
  /-- An error of a server by a code that is not one of the known ones. -/
  | extension (code detail : String)
  /-- A failure of the connection itself, by what the system says. -/
  | system (message : String)
  deriving DecidableEq, Repr

namespace ClientFailure

/-- The kind of a failure. -/
def kind : ClientFailure → FailureKind
  | described k _ _ => k
  | extension _ _ => .extension
  | system _ => .io

/-- How the failure is reported. -/
def message : ClientFailure → String
  | described k description none => description ++ "- " ++ k.name
  | described k description (some detail) => description ++ " - " ++ k.name ++ ": " ++ detail
  | extension code detail => code ++ ": " ++ detail
  | system message => message

/-- The text before the first blank, and the text after it if there is one. -/
def splitBlank : List Char → List Char × Option (List Char)
  | [] => ([], none)
  | ' ' :: cs => ([], some cs)
  | c :: cs => (c :: (splitBlank cs).1, (splitBlank cs).2)

/-- The failure that a server's error line stands for: a code, and a detail after a blank. -/
def ofErrorLine (line : String) : ClientFailure :=
  let (code, rest) := splitBlank line.toList
  let code := String.ofList code
  let detail := rest.map String.ofList
  match FailureKind.ofCode? code with
  | some k => .described k "An error was signalled by the server" detail
  | none => .extension code (detail.getD "Unknown extension error encountered")

/-- What becomes of the link: it is lost when its connection failed, and good otherwise. -/
def toLinkError (f : ClientFailure) : LinkError :=
  if f.kind = .io then .connection f.message else .command f.message

theorem isConnection_iff (f : ClientFailure) :
    f.toLinkError.isConnection = true ↔ f.kind = .io := by
  unfold toLinkError
  split <;> simp_all [LinkError.isConnection]

end ClientFailure

end LogShipper.Resp
