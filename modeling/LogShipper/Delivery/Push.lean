import LogShipper.Delivery.Dialogue
import LogShipper.Retry.Policy

/-!
# Pushing one payload to one list

A push that fails with a command error is tried again over the same link, after a wait, until the
tries of the policy are used up. Between two tries there is one wait, and none after the last one.
A connection error ends the tries at once: the caller decides what else to give up.

Covers `push_with_retry`, with what it logs.

Results:
* `push_eq`: a push is one try, with one less than the policy's tries after it.
-/

namespace LogShipper.Delivery

open Cancel (TokenId)

/-- How the tries to push one payload to one list ended. -/
inductive KeyOutcome where
  /-- The push was accepted. -/
  | delivered (attempts : Nat)
  /-- Every try met a command error. -/
  | exhausted (attempts : Nat) (lastError : String)
  /-- The wait for the next try was cancelled. -/
  | cancelled (attempts : Nat)
  /-- The link is lost. -/
  | lost (reason : String)
  deriving DecidableEq, Repr

/-- One push, and how it is tried. -/
structure Job where
  link : LinkId
  key : String
  payload : Bytes
  retryDelayMs : UInt64
  token : TokenId

namespace Job

/-- What to log of an accepted push. -/
def logPushed (j : Job) (attempts : Nat) : Dialogue Unit :=
  .log .debug .retry "Pushed record"
    [("key", j.key), ("attempts", Text.decimal attempts)]

/-- What to log when no try is left. -/
def logExhausted (j : Job) (attempts : Nat) (error : String) : Dialogue Unit :=
  .log .error .retry
    ("Unable to send a log record after " ++ Text.decimal attempts ++ " tries")
    [("key", j.key), ("attempts", Text.decimal attempts), ("error", error)]

/-- What to log before the wait for another try. -/
def logRetrying (j : Job) (attempt : Nat) (error : String) : Dialogue Unit :=
  .log .warn .retry "Failed to push record, retrying"
    [("key", j.key), ("attempt", Text.decimal attempt),
      ("delay_ms", Text.decimal j.retryDelayMs.toNat), ("error", error)]

/-- What to log when the wait is cancelled. -/
def logCancelled (j : Job) (attempts : Nat) : Dialogue Unit :=
  .log .info .retry "Retry wait cancelled, aborting remaining retries for key"
    [("key", j.key), ("attempts", Text.decimal attempts)]

/-- Pushes, with `left` more tries after this one and `used` before it. -/
def attempt (j : Job) : (left used : Nat) → Dialogue KeyOutcome
  | left, used =>
    .ask (.push j.link j.key j.payload) fun
      | .ok () => do
        j.logPushed (used + 1)
        return .delivered (used + 1)
      | .error (.connection reason) => .done (.lost reason)
      | .error (.command e) =>
        match left with
        | 0 => do
          j.logExhausted (used + 1) e
          return .exhausted (used + 1) e
        | left + 1 => do
          j.logRetrying (used + 1) e
          .ask (.wait j.token j.retryDelayMs.toNat) fun
            | .elapsed => j.attempt left (used + 1)
            | .cancelled => do
              j.logCancelled (used + 1)
              return .cancelled (used + 1)
termination_by structural left => left

end Job

/-- Pushes a payload to a list over a link, as often as the policy allows. -/
def push (link : LinkId) (key : String) (payload : Bytes) (policy : RetryPolicy)
    (token : TokenId) : Dialogue KeyOutcome :=
  Job.attempt ⟨link, key, payload, policy.retryDelayMs, token⟩ (policy.attempts - 1) 0

/-- A push is one try, with one less than the policy's tries after it. -/
theorem push_eq (link : LinkId) (key : String) (payload : Bytes) (policy : RetryPolicy)
    (token : TokenId) :
    push link key payload policy token =
      Job.attempt ⟨link, key, payload, policy.retryDelayMs, token⟩ (policy.attempts - 1) 0 := rfl

end LogShipper.Delivery
