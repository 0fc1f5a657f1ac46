import LogShipper.Proofs.Delivery.Curbing

/-!
# What a policy keeps of a delay

A policy keeps the delay between two tries in whole milliseconds, as a number of 64 bits. A span of
seconds and nanoseconds can be a thousand times longer than that. What is kept of such a span is
what is left of it after the multiples of `2 ^ 64` milliseconds, which may be nothing at all: a
longer delay can make for a shorter wait.

Covers `RetryPolicy` with `new` and `delay`, and the waits of `push_with_retry`.

Results:
* `nanoseconds_delay`: what a policy keeps of a span.
* `keeps_iff`: which spans it keeps as well as 64 bits can.
* `longest_iff_keeps`: they are those that make for a wait no shorter than any shorter span does.
* `delay_kept_iff`: all of this, and that the tries of a push wait for just what was kept.
* `delay_lost`: a span of which nothing is kept.
-/

namespace LogShipper

namespace Duration

/-- All nanoseconds of a span. -/
def nanoseconds (d : Duration) : Nat := d.secs.toNat * 1000000000 + d.nanos

/-- The milliseconds that can be kept of a span: all whole ones, or as many as 64 bits hold. -/
def keepable (d : Duration) : Nat := min (d.nanoseconds / 1000000) (UInt64.size - 1)

theorem millis_eq (d : Duration) : d.millis = d.nanoseconds / 1000000 := by
  unfold millis nanoseconds
  omega

theorem nanoseconds_ofMillis (ms : UInt64) : (ofMillis ms).nanoseconds = ms.toNat * 1000000 := by
  have hsecs : (ms / 1000).toNat = ms.toNat / 1000 := UInt64.toNat_div ms 1000
  unfold nanoseconds ofMillis
  dsimp only
  omega

end Duration

namespace RetryPolicy

open Delivery (push)
open Delivery.Dialogue (Trace)

variable {maxAttempts : UInt32} {d : Duration}

/-- A policy waits for a span as exactly as it can: for its whole milliseconds, or for as many as
64 bits hold. -/
def Keeps (p : RetryPolicy) (d : Duration) : Prop :=
  p.delay.nanoseconds = d.keepable * 1000000

instance (p : RetryPolicy) (d : Duration) : Decidable (p.Keeps d) :=
  inferInstanceAs (Decidable (_ = _))

/-- What is kept of a span: its whole milliseconds without the multiples of `2 ^ 64`. -/
theorem nanoseconds_delay (maxAttempts : UInt32) (d : Duration) :
    (withDelay maxAttempts d).delay.nanoseconds =
      d.nanoseconds / 1000000 % UInt64.size * 1000000 := by
  rw [delay, Duration.nanoseconds_ofMillis, withDelay, UInt64.toNat_ofNat', Duration.millis_eq]

/-- A span is kept if its milliseconds fit 64 bits, or by chance if what is left of them is the
greatest number of 64 bits. -/
theorem keeps_iff : (withDelay maxAttempts d).Keeps d ↔
    d.nanoseconds / 1000000 < UInt64.size ∨
      (d.nanoseconds / 1000000 + 1) % UInt64.size = 0 := by
  have hsize : UInt64.size = 18446744073709551616 := rfl
  rw [Keeps, nanoseconds_delay, Duration.keepable, hsize]
  omega

/-- No shorter span makes for a longer wait than one that is kept. Where a span is not kept, the
longest delay of 64 bits is a shorter span that does. -/
theorem longest_iff_keeps : (withDelay maxAttempts d).Keeps d ↔
    ∀ shorter : Duration, shorter.nanoseconds ≤ d.nanoseconds →
      (withDelay maxAttempts shorter).delay.nanoseconds ≤
        (withDelay maxAttempts d).delay.nanoseconds := by
  have hsize : UInt64.size = 18446744073709551616 := rfl
  rw [keeps_iff, nanoseconds_delay, hsize]
  constructor
  · intro hkept shorter hle
    rw [nanoseconds_delay, hsize]
    omega
  · intro hlongest
    by_cases hfits : d.nanoseconds / 1000000 < 18446744073709551616
    · exact .inl hfits
    · have hmax : (Duration.ofMillis 18446744073709551615).nanoseconds =
          18446744073709551615 * 1000000 := Duration.nanoseconds_ofMillis _
      have hle := hlongest (.ofMillis 18446744073709551615) (by omega)
      rw [nanoseconds_delay, hmax, hsize] at hle
      omega

/-- The tries of a push wait for the delay of the policy. -/
theorem waits_delay {p : RetryPolicy} {link : LinkId} {key : String} {payload : Bytes}
    {token : Cancel.TokenId} {t : List Delivery.Exchange} {o : Delivery.KeyOutcome}
    (h : Trace (push link key payload p token) t o) {x : Delivery.Exchange} (hx : x ∈ t)
    (hwait : x.isWait = true) :
    ∃ ms, x.request = .wait token ms ∧ ms * 1000000 = p.delay.nanoseconds := by
  rw [Delivery.push_eq] at h
  have hrequest := (Delivery.Job.tried_of_trace h).wait_request x hx hwait
  exact ⟨_, hrequest, (Duration.nanoseconds_ofMillis p.retryDelayMs).symm⟩

/-- **What a policy keeps of a delay**, for every span: its whole milliseconds without the multiples
of `2 ^ 64`, and the tries of a push wait for just that. This is the span rounded down, or the
longest delay of 64 bits where that is less, if and only if the milliseconds fit 64 bits or happen
to leave the greatest number of 64 bits; and only then is the wait as long as those for all shorter
spans. -/
theorem delay_kept_iff (maxAttempts : UInt32) (d : Duration) :
    let p := withDelay maxAttempts d
    p.delay.nanoseconds = d.nanoseconds / 1000000 % UInt64.size * 1000000 ∧
      (p.Keeps d ↔ d.nanoseconds / 1000000 < UInt64.size ∨
        (d.nanoseconds / 1000000 + 1) % UInt64.size = 0) ∧
      (p.Keeps d ↔ ∀ shorter : Duration, shorter.nanoseconds ≤ d.nanoseconds →
        (withDelay maxAttempts shorter).delay.nanoseconds ≤ p.delay.nanoseconds) ∧
      ∀ link key payload token t o, Trace (push link key payload p token) t o →
        ∀ x ∈ t, x.isWait = true →
          ∃ ms, x.request = .wait token ms ∧ ms * 1000000 = p.delay.nanoseconds :=
  ⟨nanoseconds_delay maxAttempts d, keeps_iff, longest_iff_keeps,
    fun _ _ _ _ _ _ h _ hx hwait => waits_delay h hx hwait⟩

/-- The longest span of all is kept by chance. -/
example :
    let d : Duration := ⟨18446744073709551615, 999999999, by decide⟩
    UInt64.size < d.nanoseconds / 1000000 ∧ (withDelay 3 d).Keeps d := by
  intro d
  decide

/-- Of `2 ^ 64` milliseconds, which is half a billion years, nothing is kept: a push that fails is
tried again at once, where a delay of one millisecond makes for a wait. -/
theorem delay_lost :
    let d : Duration := ⟨18446744073709551, 616000000, by decide⟩
    d.keepable = 18446744073709551615 ∧ ¬ (withDelay 3 d).Keeps d ∧
      (withDelay 3 d).delay.nanoseconds = 0 ∧
      (Duration.ofMillis 1).nanoseconds < d.nanoseconds ∧
      (withDelay 3 (.ofMillis 1)).delay.nanoseconds = 1000000 := by
  intro d
  decide

end RetryPolicy

end LogShipper
