import LogShipper.Config.Basic
import LogShipper.Proofs.Destination.Keys

/-!
# What a configuration must keep

Rules are looked at one after the other, and the first broken one is reported. A configuration is
accepted where all of them are kept.

Covers `validate`.

Results:
* `validate_eq_ok_iff`: which configurations are accepted.
-/

namespace LogShipper

/-! ## Checks in a row -/

theorem bind_eq_ok_iff {α β ε : Type} {x : Except ε α} {f : α → Except ε β} {b : β} :
    (x >>= f) = .ok b ↔ ∃ a, x = .ok a ∧ f a = .ok b := by
  cases x <;> simp [bind, Except.bind]

theorem guard_eq_ok_iff {α ε : Type} {p : Prop} [Decidable p] {e : ε} {x : Except ε α} {a : α} :
    (if p then .error e else x) = .ok a ↔ ¬ p ∧ x = .ok a := by
  by_cases hp : p <;> simp [hp]

theorem mapError_eq_ok_iff {α ε δ : Type} {x : Except ε α} {f : ε → δ} {a : α} :
    x.mapError f = .ok a ↔ x = .ok a := by
  cases x with
  | error e => exact iff_of_false nofun nofun
  | ok b => exact ⟨fun h => by cases h; rfl, fun h => by cases h; rfl⟩

/-! ## The rules -/

namespace Config

/-- The rules that a configuration must keep. -/
structure KeepsRules (c : Config) : Prop where
  host : Text.isBlankText c.endpoint.host = false
  port : c.endpoint.port ≠ 0
  keys : (⟨c.keys⟩ : Destination).IsValid
  attempts : c.retry.maxAttempts ≠ 0
  links : c.pool.maxTotal ≠ 0
  idle : c.pool.minIdle ≤ c.pool.maxIdle
  /-- A certificate comes with its key, and a key with its certificate. -/
  paired : ∀ t ∈ c.endpoint.tls, t.clientCert.isSome = t.clientKey.isSome

variable {c : Config} {u : Unit}

theorem checkEndpoint_eq_ok_iff : c.checkEndpoint = .ok u ↔
    Text.isBlankText c.endpoint.host = false ∧ c.endpoint.port ≠ 0 := by
  rw [checkEndpoint, guard_eq_ok_iff, guard_eq_ok_iff, Bool.not_eq_true]
  exact and_congr_right fun _ => and_iff_left rfl

theorem checkLimits_eq_ok_iff : c.checkLimits = .ok u ↔
    c.retry.maxAttempts ≠ 0 ∧ c.pool.maxTotal ≠ 0 ∧ c.pool.minIdle ≤ c.pool.maxIdle ∧
      ∀ t ∈ c.endpoint.tls, t.clientCert.isSome = t.clientKey.isSome := by
  have hpaired : ¬ (c.endpoint.tls.any fun t => t.clientCert.isSome != t.clientKey.isSome) = true ↔
      ∀ t ∈ c.endpoint.tls, t.clientCert.isSome = t.clientKey.isSome := by
    cases c.endpoint.tls <;> simp
  rw [checkLimits, guard_eq_ok_iff, guard_eq_ok_iff, guard_eq_ok_iff, guard_eq_ok_iff, hpaired,
    UInt32.not_lt]
  exact and_congr_right fun _ => and_congr_right fun _ => and_congr_right fun _ => and_iff_left rfl

/-- Whether a configuration is accepted is whether it keeps the rules. -/
theorem validate_eq_ok_iff : c.validate.result = .ok () ↔ c.KeepsRules := by
  rw [validate_result, check]
  simp only [bind_eq_ok_iff, checkEndpoint_eq_ok_iff, Destination.ofKeys?_eq_ok_iff,
    checkLimits_eq_ok_iff]
  constructor
  · rintro ⟨⟨⟩, ⟨hhost, hport⟩, ⟨keys⟩, ⟨rfl, hkeys⟩, hattempts, hlinks, hidle, hpaired⟩
    exact ⟨hhost, hport, hkeys, hattempts, hlinks, hidle, hpaired⟩
  · intro h
    exact ⟨(), ⟨h.host, h.port⟩, ⟨c.keys⟩, ⟨rfl, h.keys⟩, h.attempts, h.links, h.idle, h.paired⟩

end Config

end LogShipper
