import LogShipper.Resp.Failure
import LogShipper.Resp.Reply
import LogShipper.Store.Transport

/-!
# Links to a server

A link to a server is a connection over which commands are exchanged for replies. `Login` is what
a client needs to know to connect; it is taken from an endpoint and the files that this names.
After dialing, a client gives its password, picks its database and says what it is.

A `Peer m` is whoever is on the other side. One with a state of its own makes a transport
(`Peer.transport`).

Covers `connect` with `client` and `load_certificates`, `push`, `ping`, `close`, and what is logged
of links that are opened and closed.

Out of scope: what is inside certificates, and how long an exchange takes (`io_timeout_ms`).
-/

namespace LogShipper.Resp

/-! ## What replies mean -/

/-- What came back for a command. -/
inductive Received where
  | reply (reply : Reply)
  /-- Something arrived that is no reply. -/
  | garbled (detail : String)
  /-- The connection failed, by what the system says. -/
  | failed (message : String)

/-- A reply that is not what was asked for. -/
def wrongType (detail : String) : ClientFailure :=
  .described .type "Response was of incompatible type" (some (Text.quoted detail))

/-- A text that is not UTF-8. -/
def notText : ClientFailure := .described .type "Invalid UTF-8" none

/-- The reply to a command that did not fail. -/
def Received.reply? : Received → Except ClientFailure Reply
  | .failed message => .error (.system message)
  | .garbled detail => .error (.described .parse "parse error" (some detail))
  | .reply (.error line) =>
    match Text.ofUtf8? line with
    | some s => .error (.ofErrorLine s)
    | none => .error (.described .parse "parse error" none)
  | .reply r => .ok r

/-- The number that a text stands for, within 64 bits. -/
def int64Text? (line : Bytes) : Option Int :=
  (number? line).bind fun n =>
    if Int64.minValue.toInt ≤ n ∧ n ≤ Int64.maxValue.toInt then some n else none

/-- The number in a reply. -/
def Reply.number : Reply → Except ClientFailure Int
  | .int n => .ok n
  | .text line | .bytes line =>
    if (Text.ofUtf8? line).isNone then .error notText
    else match int64Text? line with
      | some n => .ok n
      | none => .error (wrongType "Could not convert from string.")
  | _ => .error (wrongType "Response type not convertible to numeric.")

/-- The text in a reply. -/
def Reply.string : Reply → Except ClientFailure String
  | .int n => .ok (String.ofList (Json.intChars n))
  | .text line | .bytes line =>
    match Text.ofUtf8? line with
    | some s => .ok s
    | none => .error notText
  | _ => .error (wrongType "Response type not string compatible.")

/-- Whether a push was accepted: it is answered with the length of the list. -/
def pushed (r : Received) : Except LinkError Unit :=
  match r.reply? with
  | .error f => .error f.toLinkError
  | .ok reply =>
    match reply.number with
    | .error f => .error f.toLinkError
    | .ok _ => .ok ()

/-- Whether a ping came back: it is answered with a text. -/
def ponged (r : Received) : Except LinkError Unit :=
  match r.reply? with
  | .error f => .error f.toLinkError
  | .ok reply =>
    match reply.string with
    | .error f => .error f.toLinkError
    | .ok _ => .ok ()

/-! ## Connecting -/

/-- The contents of files by path, or what the system says. -/
abbrev Files := String → Except String Bytes

/-- The certificates of a secure connection. -/
structure Certificates where
  root : Option Bytes
  /-- The client's own certificate and its key. -/
  client : Option (Bytes × Bytes)

/-- What a client needs to know to connect. -/
structure Login where
  host : String
  port : UInt16
  password : Option String
  database : Int64
  secure : Bool
  /-- Whether the server of a secure connection goes unverified. -/
  unverified : Bool
  certificates : Option Certificates

/-- A file of a secure connection. -/
def readMaterial (files : Files) (path : String) : Except LinkError Bytes :=
  (files path).mapError fun e =>
    .connection ("Failed to read TLS material " ++ path ++ ": " ++ e)

/-- The certificates that an endpoint names. -/
def readCertificates (files : Files) (t : Tls) : Except LinkError Certificates := do
  let root ← match t.caCert with
    | some path => some <$> readMaterial files path
    | none => pure none
  match t.clientCert, t.clientKey with
  | some cert, some key =>
    let cert ← readMaterial files cert
    let key ← readMaterial files key
    return ⟨root, some (cert, key)⟩
  | none, none => return ⟨root, none⟩
  | _, _ => .error (.connection "client_cert and client_key must be configured together")

/-- The certificates for an endpoint, if it names any but a lone key. -/
def certificatesFor (files : Files) (e : Endpoint) : Except LinkError (Option Certificates) :=
  match e.tls with
  | some t =>
    if t.caCert.isSome || t.clientCert.isSome then some <$> readCertificates files t else .ok none
  | none => .ok none

/-- The host of an address as it is dialed. -/
def hostText : Url.Host → String
  | .name cs => String.ofList cs
  | .address ip => String.ofList ip.chars

/-- A login that a client cannot use. -/
def clientConfig (description : String) : LinkError :=
  .connection (ClientFailure.described .clientConfig description none).message

/-- The login for an endpoint: the one that its URL stands for. -/
def Login.ofEndpoint (files : Files) (e : Endpoint) : Except LinkError Login := do
  let address ← e.address.mapError fun err => .connection (ConfigError.invalid err.message).message
  let certificates ← certificatesFor files e
  let password ← match address.password with
    | none => pure none
    | some p =>
      match Url.decode? p with
      | some s => pure (some s)
      | none => .error (clientConfig "Password is not valid UTF-8 string")
  return {
    host := hostText address.host
    port := address.port
    password
    database := address.database
    secure := address.secure
    unverified := address.unverified
    certificates }

/-! ## Peers -/

/-- Whoever is on the other side of links. What it does, it does in `m`: a state of its own, or
the world outside. -/
structure Peer (m : Type → Type) where
  /-- Opens a connection for a link. -/
  dial : LinkId → Login → m (Except String Unit)
  /-- Sends a command and takes what comes back. -/
  exchange : LinkId → Command → m Received
  hangUp : LinkId → m Unit

/-- A peer that cannot be reached, and why. -/
def Peer.unreachable (reason : String) : Peer (StateM Unit) where
  dial _ _ := pure (.error reason)
  exchange _ _ := pure (.failed reason)
  hangUp _ := pure ()

/-- One command of a greeting, and the failure that an error in answer to it is. -/
structure Greeting where
  command : Command
  refusal : Option ClientFailure

/-- What a client says after dialing. -/
def greetings (login : Login) : List Greeting :=
  (match login.password with
    | none => []
    | some p => [⟨.ofTexts ["AUTH", p],
        some (.described .authentication "Password authentication failed" none)⟩]) ++
  (if login.database = 0 then [] else
    [⟨.ofTexts ["SELECT", intText login.database.toInt],
      some (.described .response "Redis server refused to switch database" none)⟩]) ++
  [⟨.ofTexts ["CLIENT", "SETINFO", "LIB-NAME", "log-shipper"], none⟩,
    ⟨.ofTexts ["CLIENT", "SETINFO", "LIB-VER", "0.1.0"], none⟩]

/-- A push of a payload to a list. -/
def pushCommand (key : String) (payload : Bytes) : Command :=
  [Text.utf8 "RPUSH", Text.utf8 key, payload]

namespace Peer

variable {m : Type → Type} [Monad m] (peer : Peer m)

/-- Exchanges greetings; the first failure among the answers counts. -/
def greet (link : LinkId) : List Greeting → m (Except ClientFailure Unit)
  | [] => pure (.ok ())
  | g :: rest => do
    match ← peer.exchange link g.command with
    | .failed message => pure (.error (.system message))
    | received =>
      let others ← greet link rest
      match received.reply?, g.refusal with
      | .error _, some refusal => pure (.error refusal)
      | _, _ => pure others

/-- Opens a link for a login. -/
def enter (link : LinkId) (login : Login) : m (Except LinkError Unit) := do
  match ← peer.dial link login with
  | .error message => pure (.error (.connection message))
  | .ok () =>
    match ← peer.greet link (greetings login) with
    | .error f =>
      peer.hangUp link
      pure (.error (.connection f.message))
    | .ok () => pure (.ok ())

/-- Opens a link. -/
def connect (files : Files) (link : LinkId) (e : Endpoint) : m (Except LinkError Unit) :=
  match Login.ofEndpoint files e with
  | .error err => pure (.error err)
  | .ok login => peer.enter link login

/-- Pushes a payload to a list. -/
def push (link : LinkId) (key : String) (payload : Bytes) : m (Except LinkError Unit) := do
  pure (pushed (← peer.exchange link (pushCommand key payload)))

/-- Makes a round trip. -/
def ping (link : LinkId) : m (Except LinkError Unit) := do
  pure (ponged (← peer.exchange link (.ofTexts ["PING"])))

/-- Closes a link, in good manners if the other side still listens; what it answers if it does
not. -/
def close (link : LinkId) : m (Option ClientFailure) := do
  let received ← peer.exchange link (.ofTexts ["QUIT"])
  peer.hangUp link
  match received.reply? with
  | .error f => pure (some f)
  | .ok _ => pure none

end Peer

/-- What a client logs of a link that it has opened. -/
def openedEntry (e : Endpoint) : LogEntry :=
  { level := .debug, source := .client, message := "Opened Redis connection"
    fields := [("endpoint", e.display), ("tls", Text.truth e.isTls)] }

/-- What a client logs of a link that could not be closed in good manners. -/
def quitFailed (f : ClientFailure) : LogEntry :=
  { level := .debug, source := .client, message := "QUIT failed while closing Redis connection"
    fields := [("error", f.message)] }

/-- Links to a peer with a state of its own, which take so long to be opened. -/
def Peer.transport {σ : Type} (peer : Peer (StateM σ)) (files : Files) (connectTime : Nat → Nat) :
    Transport σ where
  connectTime
  connect link e := peer.connect files link e
  beginPush _ _ _ s := ([], s)
  endPush link key payload := peer.push link key payload
  ping link := peer.ping link
  reset _ s := (.ok (), s)
  close link s := (peer.close link s).2

end LogShipper.Resp
