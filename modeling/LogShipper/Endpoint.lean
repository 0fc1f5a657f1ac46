import LogShipper.Failure
import LogShipper.Url.Address

/-!
# Endpoints

The store that records are shipped to: host, port, database and the credentials for it. An
endpoint is shown as `host:port`, in quoted form with its password hidden, as JSON with its
password, and as the URL that a client connects to.

Covers `Endpoint` and `TlsConfig` with their defaults, `is_tls` and `to_url`.

Results:
* `password_of_address`: the password in the URL is the one that is written for it.
-/

namespace LogShipper

/-- What a secure connection is made with. -/
structure Tls where
  /-- File of trusted roots; those of the system where there is none. -/
  caCert : Option String := none
  /-- File of the certificate that the client presents. -/
  clientCert : Option String := none
  /-- File of the key that goes with the certificate. -/
  clientKey : Option String := none
  /-- Whether the peer goes unverified. -/
  insecure : Bool := false
  deriving DecidableEq

/-- A store to ship records to. -/
structure Endpoint where
  host : String
  port : UInt16 := 6379
  password : Option String := none
  database : Int64 := 0
  tls : Option Tls := none
  deriving DecidableEq

/-- An integer as text. -/
def intText (n : Int) : String := String.ofList (Json.intChars n)

namespace Tls

/-- The quoted form. -/
def quoted (t : Tls) : String :=
  Text.record "TlsConfig" [
    ("ca_cert", Text.optional (t.caCert.map Text.quotedPath)),
    ("client_cert", Text.optional (t.clientCert.map Text.quotedPath)),
    ("client_key", Text.optional (t.clientKey.map Text.quotedPath)),
    ("insecure", Text.truth t.insecure)]

/-- The JSON form. -/
def toJson (t : Tls) : Json.Value :=
  .object [("ca_cert", .ofText? t.caCert), ("client_cert", .ofText? t.clientCert),
    ("client_key", .ofText? t.clientKey), ("insecure", .bool t.insecure)]

/-- How the JSON form is read. -/
def shape : Json.Shape Tls where
  name := "TlsConfig"
  start := {}
  fields := [
    .setting "ca_cert" false (.option .path) fun v t => { t with caCert := v },
    .setting "client_cert" false (.option .path) fun v t => { t with clientCert := v },
    .setting "client_key" false (.option .path) fun v t => { t with clientKey := v },
    .setting "insecure" false .bool fun v t => { t with insecure := v }]

end Tls

/-- Why an endpoint has no URL. -/
inductive UrlError where
  | host (text : String) (error : Url.HostError)
  | port (number : UInt16)
  deriving DecidableEq

/-- How the error is reported. -/
def UrlError.message : UrlError → String
  | .host s e => "host " ++ Text.quoted s ++ ": " ++ e.message
  | .port n => "port " ++ Text.decimal n.toNat ++ " rejected"

namespace Endpoint

/-- Whether connections to the endpoint are secure. -/
def isTls (e : Endpoint) : Bool := e.tls.isSome

/-- The endpoint as `host:port`. -/
def display (e : Endpoint) : String := e.host ++ ":" ++ Text.decimal e.port.toNat

/-- The quoted form, which hides the password. -/
def quoted (e : Endpoint) : String :=
  Text.record "Endpoint" [
    ("host", Text.quoted e.host),
    ("port", Text.decimal e.port.toNat),
    ("password", Text.optional (e.password.map fun _ => Text.quoted "***")),
    ("database", intText e.database.toInt),
    ("tls", Text.optional (e.tls.map Tls.quoted))]

/-- The JSON form. -/
def toJson (e : Endpoint) : Json.Value :=
  .object [("host", .text e.host), ("port", .int e.port.toNat),
    ("password", .ofText? e.password), ("database", .int e.database.toInt),
    ("tls", match e.tls with
      | none => .null
      | some t => t.toJson)]

/-- How the JSON form is read. -/
def shape : Json.Shape Endpoint where
  name := "Endpoint"
  start := { host := "" }
  fields := [
    .setting "host" true .text fun v e => { e with host := v },
    .setting "port" false .uint16 fun v e => { e with port := v },
    .setting "password" false (.option .text) fun v e => { e with password := v },
    .setting "database" false .int64 fun v e => { e with database := v },
    .setting "tls" false (.option Tls.shape.read) fun v e => { e with tls := v }]

/-- The password as it stands in a URL: an empty one is left out. -/
def urlPassword (e : Endpoint) : Option (List Char) :=
  match e.password with
  | none => none
  | some p => if p.isEmpty then none else some (Url.encode Url.isCredentialReserved p.toList)

/-- The URL that a client connects to. An empty host takes no port. -/
def address (e : Endpoint) : Except UrlError Url.Address :=
  match Url.Host.parse e.host.toList with
  | .error err => .error (.host e.host err)
  | .ok host =>
    if host = .name [] then .error (.port e.port)
    else .ok {
      secure := e.isTls
      password := e.urlPassword
      host
      port := e.port
      database := e.database
      unverified := e.tls.any (·.insecure) }

theorem password_of_address {e : Endpoint} {a : Url.Address} (h : e.address = .ok a) :
    a.password = e.urlPassword := by
  unfold address at h
  split at h
  · cases h
  · split at h <;> cases h
    rfl

end Endpoint

end LogShipper
