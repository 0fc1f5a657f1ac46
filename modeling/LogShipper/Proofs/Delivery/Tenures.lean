import LogShipper.Proofs.Delivery.Acceptance

/-!
# A sender and its link

A send borrows one link, uses it, and lets go of it as the pool would have it: it asks how many
links are idle, puts the link back if there is room for it, and closes it if there is none. How far
it has come is its `Tenure`, which follows from the requests it made and their answers.

The rules of `thrift` say so of a talk as long as no link fails: pushes may be rejected, but none
loses its link.

Results:
* `release_thrifty`: giving a link back in good health.
* `Engine.sendWith_thrifty`, `Engine.sendBulk_thrifty`: a send, and one of many payloads.
* `Duty.thrifty`: all calls but background checks.
-/

namespace LogShipper.Delivery

open Cancel (TokenId)

/-- How far somebody has come who borrows one link. -/
inductive Tenure where
  /-- No link was borrowed yet. -/
  | seeking
  | holding (link : LinkId)
  /-- There is room among the idle links for the one that is held. -/
  | roomy (link : LinkId)
  /-- There is no room for it. -/
  | crowded (link : LinkId)
  /-- The link was let go. -/
  | parted
  deriving DecidableEq, Repr

namespace Tenure

/-- The links that are held. -/
def links : Tenure → List LinkId
  | seeking => []
  | holding link => [link]
  | roomy link => [link]
  | crowded link => [link]
  | parted => []

/-- What is learned from the number of idle links, of which the pool keeps so many. -/
def counting (most idle : Nat) : Tenure → Tenure
  | holding link => if most ≤ idle then crowded link else roomy link
  | t => t

end Tenure

/-- The requests of a send that neither borrow a link nor let go of one. -/
def Request.isAtRest : Request → Bool
  | .phase => true
  | .poolPhase => true
  | .push _ _ _ => true
  | .ping _ => true
  | .reset _ => true
  | .wait _ _ => true
  | .batchName => true
  | .log _ => true
  | _ => false

/-- The rules of somebody who borrows one link and lets go of it as the pool would have it, where no
link fails. The pool keeps so many idle links at most. -/
def thrift (most : Nat) : Protocol Tenure where
  allows t
    | .borrow => t = .seeking
    | .idleCount => ∃ link, t = .holding link
    | .giveBack link => t = .roomy link
    | .discard link => t = .crowded link
    | r => r.isAtRest = true
  admits _
    | .push _ _ _, .error (.connection _) => False
    | .ping _, .error _ => False
    | .reset _, .error _ => False
    | _, _ => True
  after t
    | .borrow, .ok link => .holding link
    | .idleCount, idle => t.counting most idle
    | .giveBack _, _ => .parted
    | .discard _, _ => .parted
    | _, _ => t

variable {most : Nat} {t : Tenure} {link : LinkId}

/-- A push that is accepted or rejected is to be reckoned with. -/
theorem admits_push {key : String} {payload : Bytes} (x : Except String Unit) :
    (thrift most).admits t (.push link key payload) (x.mapError .command) := by
  cases x <;> exact trivial

theorem after_atRest {r : Request} (hr : r.isAtRest = true) (x : r.Answer) :
    (thrift most).after t r x = t := by
  cases r <;> first | rfl | exact absurd hr Bool.false_ne_true

theorem thrifty_log {level : Level} {source : Source} {message : String}
    {fields : List (String × String)} :
    (Dialogue.log level source message fields).Abides (thrift most) t fun _ t' => t' = t :=
  ⟨rfl, fun _ _ => rfl⟩

/-! ## Borrowing and giving back -/

/-- What is held after somebody has tried to borrow a link. -/
def Tenure.ofAnswer : Except PoolError LinkId → Tenure
  | .ok link => holding link
  | .error _ => seeking

theorem acquire_thrifty :
    acquire.Abides (thrift most) .seeking fun x t => t = .ofAnswer x := by
  refine ⟨rfl, fun phase _ => ?_⟩
  cases phase with
  | created => exact rfl
  | shutDown => exact rfl
  | running =>
    refine ⟨rfl, fun x _ => ?_⟩
    cases x with
    | ok link => exact rfl
    | error reason => exact rfl

namespace PoolSettings

variable (p : PoolSettings)

/-- **Giving back**: the number of idle links decides what becomes of the link. -/
theorem putBack_thrifty :
    (p.putBack link).Abides (thrift p.config.maxIdle.toNat) (.holding link)
      fun _ t => t = .parted := by
  refine ⟨⟨link, rfl⟩, fun idle _ => ?_⟩
  show Dialogue.Abides _ (if p.config.maxIdle.toNat ≤ idle then _ else _)
    (if p.config.maxIdle.toNat ≤ idle then Tenure.crowded link else .roomy link) _
  split
  · refine Dialogue.Abides.bind thrifty_log fun _ t ht => ?_
    subst ht
    exact ⟨rfl, fun _ _ => rfl⟩
  · exact ⟨rfl, fun _ _ => rfl⟩

theorem checkReturned_thrifty :
    (p.checkReturned link).Abides (thrift p.config.maxIdle.toNat) (.holding link)
      fun _ t => t = .parted := by
  unfold checkReturned
  split
  · refine ⟨rfl, fun x hx => ?_⟩
    cases x with
    | ok _ => exact p.putBack_thrifty
    | error e => exact hx.elim
  · exact p.putBack_thrifty

theorem release_thrifty :
    (p.release link true).Abides (thrift p.config.maxIdle.toNat) (.holding link)
      fun _ t => t = .parted := by
  refine ⟨rfl, fun x hx => ?_⟩
  cases x with
  | ok _ => exact p.checkReturned_thrifty
  | error e => exact hx.elim

end PoolSettings

/-! ## Sending -/

/-- No try loses the link. -/
theorem Job.attempt_thrifty {j : Job} (left used : Nat) :
    (j.attempt left used).Abides (thrift most) t fun o t' => t' = t ∧ o.isLost = false := by
  have said {level : Level} {source : Source} {message : String}
      {fields : List (String × String)} {o : KeyOutcome} (ho : o.isLost = false) :
      ((Dialogue.log level source message fields).bind fun _ => .done o).Abides (thrift most) t
        fun o t' => t' = t ∧ o.isLost = false :=
    Dialogue.Abides.bind thrifty_log fun _ t' ht => ⟨ht, ho⟩
  induction left generalizing used with
  | zero =>
    rw [attempt]
    refine ⟨rfl, fun x hx => ?_⟩
    cases x with
    | ok _ => exact said rfl
    | error e =>
      cases e with
      | connection reason => exact hx.elim
      | command e => exact said rfl
  | succ left ih =>
    rw [attempt]
    refine ⟨rfl, fun x hx => ?_⟩
    cases x with
    | ok _ => exact said rfl
    | error e =>
      cases e with
      | connection reason => exact hx.elim
      | command e =>
        refine Dialogue.Abides.bind thrifty_log fun _ t' ht => ?_
        subst ht
        refine ⟨rfl, fun x _ => ?_⟩
        cases x with
        | elapsed => exact ih (used + 1)
        | cancelled => exact said rfl

namespace Engine

variable (e : Engine)

theorem deliverKeys_thrifty {payload : Bytes} {token : TokenId}
    (keys exhausted cancelled : List String) :
    (e.deliverKeys link payload token keys exhausted cancelled).Abides (thrift most) t
      fun o t' => t' = t ∧ o.keepsLink = true := by
  induction keys generalizing exhausted cancelled with
  | nil =>
    show t = t ∧ (PayloadOutcome.ofFailures _ _).keepsLink = true
    unfold PayloadOutcome.ofFailures
    split <;> exact ⟨rfl, rfl⟩
  | cons key keys ih =>
    refine Dialogue.Abides.bind (Job.attempt_thrifty (e.retry.attempts - 1) 0)
      fun o t' ⟨ht, hkept⟩ => ?_
    subst ht
    cases o with
    | delivered _ => exact ih exhausted cancelled
    | exhausted _ _ => exact ih (key :: exhausted) cancelled
    | cancelled _ => exact ih exhausted (key :: cancelled)
    | lost reason => exact absurd hkept.symm Bool.false_ne_true

theorem deliver_thrifty {payload : Bytes} {token : TokenId} :
    (e.deliver link payload token).Abides (thrift most) t
      fun o t' => t' = t ∧ o.keepsLink = true :=
  e.deliverKeys_thrifty _ _ _

theorem deliverAll_thrifty (payloads : List Bytes) {tally : Tally} (ht : tally.healthy = true) :
    (e.deliverAll link payloads tally).Abides (thrift most) t
      fun tally t' => t' = t ∧ tally.healthy = true := by
  induction payloads generalizing tally with
  | nil => exact ⟨rfl, ht⟩
  | cons payload rest ih =>
    refine Dialogue.Abides.bind e.deliver_thrifty fun o t' ⟨ht', hkept⟩ => ?_
    subst ht'
    cases o with
    | delivered => exact ih ht
    | undelivered exhausted cancelled => exact ih ht
    | lost key reason => exact absurd hkept Bool.false_ne_true

theorem report_thrifty (o : PayloadOutcome) :
    (e.report o).Abides (thrift most) t fun _ t' => t' = t := by
  cases o with
  | delivered => exact rfl
  | undelivered exhausted cancelled => exact rfl
  | lost key reason => exact Dialogue.Abides.bind thrifty_log fun _ _ ht => ht

theorem ensureStarted_thrifty :
    e.ensureStarted.Abides (thrift most) t fun _ t' => t' = t := by
  refine ⟨rfl, fun phase _ => ?_⟩
  cases phase with
  | started => exact rfl
  | created => exact Dialogue.Abides.bind thrifty_log fun _ _ ht => ht
  | stopped => exact Dialogue.Abides.bind thrifty_log fun _ _ ht => ht

theorem sendOverLink_thrifty (payload : Bytes) (token : TokenId) :
    (e.sendOverLink payload token).Abides (thrift e.pool.config.maxIdle.toNat) .seeking
      fun _ t => t.links = [] := by
  refine Dialogue.Abides.bind acquire_thrifty fun x t ht => ?_
  subst ht
  cases x with
  | error err => exact Dialogue.Abides.bind thrifty_log fun _ _ ht => ht ▸ rfl
  | ok link =>
    refine Dialogue.Abides.bind e.deliver_thrifty fun o t ⟨ht, hkept⟩ => ?_
    subst ht
    rw [hkept]
    refine Dialogue.Abides.bind e.pool.release_thrifty fun _ t ht => ?_
    subst ht
    exact (e.report_thrifty o).mono fun _ _ ht => ht ▸ rfl

/-- **A send** borrows one link at most, and has let go of it in the end. -/
theorem sendWith_thrifty (payload : Bytes) (token : TokenId) :
    (e.sendWith payload token).Abides (thrift e.pool.config.maxIdle.toNat) .seeking
      fun _ t => t.links = [] := by
  refine Dialogue.Abides.bind e.ensureStarted_thrifty fun x t ht => ?_
  subst ht
  cases x with
  | error err => exact rfl
  | ok _ => exact (e.sendOverLink_thrifty payload token).bind fun _ _ ht => ht

theorem bulkOverLink_thrifty (payloads : List Bytes) (batch : String) :
    (e.bulkOverLink payloads batch).Abides (thrift e.pool.config.maxIdle.toNat) .seeking
      fun _ t => t.links = [] := by
  refine Dialogue.Abides.bind acquire_thrifty fun x t ht => ?_
  subst ht
  cases x with
  | error err => exact Dialogue.Abides.bind thrifty_log fun _ _ ht => ht ▸ rfl
  | ok link =>
    refine Dialogue.Abides.bind thrifty_log fun _ t ht => ?_
    subst ht
    refine Dialogue.Abides.bind (e.deliverAll_thrifty payloads rfl)
      fun tally t ⟨ht, hhealthy⟩ => ?_
    subst ht
    rw [hhealthy]
    refine Dialogue.Abides.bind e.pool.release_thrifty fun _ t ht => ?_
    subst ht
    refine Dialogue.Abides.bind (Q := fun _ t => t = .parted) ?_ fun _ _ ht => ht ▸ rfl
    unfold logBatch
    split <;> exact thrifty_log

/-- **A send of many payloads** borrows one link at most, too. -/
theorem sendBulk_thrifty (payloads : List Bytes) :
    (e.sendBulk payloads).Abides (thrift e.pool.config.maxIdle.toNat) .seeking
      fun _ t => t.links = [] := by
  refine Dialogue.Abides.bind e.ensureStarted_thrifty fun x t ht => ?_
  subst ht
  cases x with
  | error err => exact rfl
  | ok _ =>
    exact ⟨rfl, fun batch _ => (e.bulkOverLink_thrifty payloads batch).bind fun _ _ ht => ht⟩

end Engine

/-- **All calls but background checks** borrow one link at most, and have let go of it in the
end. -/
theorem Duty.thrifty (e : Engine) {duty : Duty} (h : duty ≠ .check) :
    (duty.dialogue e).Abides (thrift e.pool.config.maxIdle.toNat) .seeking
      fun _ t => t.links = [] := by
  cases duty with
  | send payload token =>
    refine (e.sendWith_thrifty payload token).bind fun x _ ht => ?_
    cases x <;> exact ht
  | bulk payloads =>
    refine (e.sendBulk_thrifty payloads).bind fun x _ ht => ?_
    cases x <;> exact ht
  | check => exact absurd rfl h

end LogShipper.Delivery
