import LogShipper.Resp.Link
import Std.Async.DNS
import Std.Async.TCP
import Std.Async.Timer

/-!
# Connections over a network

The peer that is reached over TCP. Every operation takes at most as long as the connections are
given.

Out of scope: secure connections; a login that asks for one is refused.
-/

namespace LogShipper.Live

open Std.Async (Async)
open Std.Net (IPAddr SocketAddress)

/-- A connection, and the bytes that have arrived on it and not been read. -/
structure Connection where
  client : Std.Async.TCP.Socket.Client
  arrived : IO.Ref Bytes

/-- The connections of all links. -/
structure Network where
  /-- Milliseconds that an operation may take. -/
  limitMs : Nat
  connections : IO.Ref (List (LinkId × Connection))

namespace Network

/-- What an operation comes to, or why it failed. -/
def attempt {α : Type} (n : Network) (x : Async α) : IO (Except String α) := do
  let timed : Async (Except String α) :=
    Async.race (Except.ok <$> x) do
      Std.Async.sleep (Std.Time.Millisecond.Offset.ofNat n.limitMs)
      return Except.error "timed out"
  try timed.block
  catch e => return .error (toString e)

/-- Where to connect to. -/
def socketAddress (port : UInt16) : IPAddr → SocketAddress
  | .v4 addr => .v4 { addr, port }
  | .v6 addr => .v6 { addr, port }

/-- Connects to the first address that a host has. -/
def dial (n : Network) (link : LinkId) (login : Resp.Login) : IO (Except String Unit) := do
  if login.secure then return .error "secure connections are not available"
  match ← n.attempt (Std.Async.DNS.getAddrInfo login.host (Text.decimal login.port.toNat)) with
  | .error e => return .error e
  | .ok addresses =>
    match addresses.toList with
    | [] => return .error ("no address for " ++ login.host)
    | address :: _ =>
      let client ← Std.Async.TCP.Socket.Client.mk
      match ← n.attempt (client.connect (socketAddress login.port address)) with
      | .error e => return .error e
      | .ok () =>
        let arrived ← IO.mkRef []
        n.connections.modify fun l => (link, ⟨client, arrived⟩) :: l
        return .ok ()

/-- Waits for a reply. -/
partial def receive (n : Network) (c : Connection) : IO Resp.Received := do
  match Resp.Reply.read (← c.arrived.get) with
  | .complete reply rest =>
    c.arrived.set rest
    return .reply reply
  | .malformed => return .garbled "not a reply"
  | .partly =>
    match ← n.attempt (c.client.recv? 65536) with
    | .error e => return .failed e
    | .ok none => return .failed "connection closed"
    | .ok (some bs) =>
      c.arrived.modify (· ++ bs.toList)
      receive n c

/-- Sends a command and waits for what comes back. -/
def exchange (n : Network) (link : LinkId) (command : Resp.Command) : IO Resp.Received := do
  match (← n.connections.get).lookup link with
  | none => return .failed "not connected"
  | some c =>
    match ← n.attempt (c.client.send ⟨command.encode.toArray⟩) with
    | .error e => return .failed e
    | .ok () => n.receive c

/-- Ends a connection. -/
def hangUp (n : Network) (link : LinkId) : IO Unit := do
  match (← n.connections.get).lookup link with
  | none => return
  | some c =>
    let _ ← n.attempt c.client.shutdown
    n.connections.modify fun l => l.filter fun (other, _) => other != link

/-- The peer behind the network. -/
def peer (n : Network) : Resp.Peer IO where
  dial := n.dial
  exchange := n.exchange
  hangUp := n.hangUp

end Network

end LogShipper.Live
