import LogShipper.Json.Reading

/-!
# How a pool of links is sized and checked

Covers `PoolConfig` with its defaults, its JSON form and its quoted form, and what is made of its
numbers: room for at least one link, a wait of at least a millisecond.

Results:
* `one_le_capacity`: a pool has room for a link.
-/

namespace LogShipper

/-- How a pool of links is sized and checked. -/
structure PoolConfig where
  /-- Most links at a time, idle and lent ones together. -/
  maxTotal : UInt32 := 8
  /-- A link that is given back while this many are idle is closed. -/
  maxIdle : UInt32 := 8
  /-- Idle links that are kept open unasked. -/
  minIdle : UInt32 := 0
  /-- Whether a link is pinged before it is lent. -/
  testOnBorrow : Bool := true
  /-- Whether a link is pinged when it is given back in good health. -/
  testOnReturn : Bool := false
  /-- Whether idle links are pinged in the background. -/
  testWhileIdle : Bool := true
  /-- Idle links that one background check looks at. -/
  evictionBatchSize : UInt32 := 3
  /-- Milliseconds between two background checks. -/
  evictionIntervalMs : UInt64 := 30000
  /-- Milliseconds after which an idle link is closed. -/
  minEvictableIdleMs : UInt64 := 60000
  /-- Milliseconds that a borrower waits for a link. -/
  maxWaitMs : UInt64 := 2000
  deriving DecidableEq

namespace PoolConfig

/-- Most links at a time: never less than one. -/
def capacity (c : PoolConfig) : Nat := max 1 c.maxTotal.toNat

/-- The idle links that are kept open unasked, within the capacity. -/
def floor (c : PoolConfig) : Nat := min c.minIdle.toNat c.capacity

/-- The milliseconds that a borrower waits: never less than one. -/
def waitMs (c : PoolConfig) : Nat := max 1 c.maxWaitMs.toNat

/-- Whether idle links are checked in the background. -/
def evicts (c : PoolConfig) : Bool :=
  c.testWhileIdle && 0 < c.evictionIntervalMs && 0 < c.evictionBatchSize

theorem one_le_capacity (c : PoolConfig) : 1 ≤ c.capacity := Nat.le_max_left _ _

/-- The JSON form. -/
def toJson (c : PoolConfig) : Json.Value :=
  .object [("max_total", .int c.maxTotal.toNat), ("max_idle", .int c.maxIdle.toNat),
    ("min_idle", .int c.minIdle.toNat), ("test_on_borrow", .bool c.testOnBorrow),
    ("test_on_return", .bool c.testOnReturn), ("test_while_idle", .bool c.testWhileIdle),
    ("eviction_batch_size", .int c.evictionBatchSize.toNat),
    ("eviction_interval_ms", .int c.evictionIntervalMs.toNat),
    ("min_evictable_idle_ms", .int c.minEvictableIdleMs.toNat),
    ("max_wait_ms", .int c.maxWaitMs.toNat)]

/-- The quoted form. -/
def quoted (c : PoolConfig) : String :=
  Text.record "PoolConfig" [
    ("max_total", Text.decimal c.maxTotal.toNat),
    ("max_idle", Text.decimal c.maxIdle.toNat),
    ("min_idle", Text.decimal c.minIdle.toNat),
    ("test_on_borrow", Text.truth c.testOnBorrow),
    ("test_on_return", Text.truth c.testOnReturn),
    ("test_while_idle", Text.truth c.testWhileIdle),
    ("eviction_batch_size", Text.decimal c.evictionBatchSize.toNat),
    ("eviction_interval_ms", Text.decimal c.evictionIntervalMs.toNat),
    ("min_evictable_idle_ms", Text.decimal c.minEvictableIdleMs.toNat),
    ("max_wait_ms", Text.decimal c.maxWaitMs.toNat)]

/-- How the JSON form is read. -/
def shape : Json.Shape PoolConfig where
  name := "PoolConfig"
  start := {}
  fields := [
    .setting "max_total" false .uint32 fun v c => { c with maxTotal := v },
    .setting "max_idle" false .uint32 fun v c => { c with maxIdle := v },
    .setting "min_idle" false .uint32 fun v c => { c with minIdle := v },
    .setting "test_on_borrow" false .bool fun v c => { c with testOnBorrow := v },
    .setting "test_on_return" false .bool fun v c => { c with testOnReturn := v },
    .setting "test_while_idle" false .bool fun v c => { c with testWhileIdle := v },
    .setting "eviction_batch_size" false .uint32 fun v c => { c with evictionBatchSize := v },
    .setting "eviction_interval_ms" false .uint64 fun v c => { c with evictionIntervalMs := v },
    .setting "min_evictable_idle_ms" false .uint64 fun v c => { c with minEvictableIdleMs := v },
    .setting "max_wait_ms" false .uint64 fun v c => { c with maxWaitMs := v }]

end PoolConfig

end LogShipper
