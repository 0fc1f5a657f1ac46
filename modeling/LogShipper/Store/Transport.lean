import LogShipper.Delivery.Engine

/-!
# Transports

What a store looks like from here: links can be opened to it, and each link takes pushes, pings
and resets until it is closed. A `Transport σ` gives the answers of a store whose state is `σ`.

A push takes place in two steps. When it begins, the store may make calls of its own on the
engine that is pushing, and these are over before the push is answered. Opening a link takes time,
and nothing limits how much.

Covers `Transport` and `ListLink`: `connect`, `push`, `ping`, `reset` and `close`.

Out of scope: the time that anything but opening a link takes; it is answered at once.
-/

namespace LogShipper

open Delivery (Call)

/-- The answers of a store with states `σ`. -/
structure Transport (σ : Type) where
  /-- Opens a link of a number. -/
  connect : LinkId → Endpoint → σ → Except LinkError Unit × σ
  /-- A push begins: the calls that are made from inside it. -/
  beginPush : LinkId → String → Bytes → σ → List Call × σ
  /-- A push ends: its answer. -/
  endPush : LinkId → String → Bytes → σ → Except LinkError Unit × σ
  ping : LinkId → σ → Except LinkError Unit × σ
  reset : LinkId → σ → Except LinkError Unit × σ
  close : LinkId → σ → σ
  /-- How many microseconds it takes to open a link, by the time at which that is begun. -/
  connectTime : Nat → Nat

end LogShipper
