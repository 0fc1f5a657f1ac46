import LogShipper.Delivery.Engine
import LogShipper.Proofs.Delivery.Requests

/-!
# Which requests sending makes

A send looks at the phases, borrows a link, pushes over it and waits between tries, and gives the
link back. It neither starts nor stops anything, and it changes no token (`Request.isSending`).
Every call on an engine but its startup and its shutdown makes only such requests, or is about
tokens.

Results:
* `sendWith_sends`, `sendBulk_sends`: sending one payload or many.
* `Call.steadies`: every call but startup and shutdown.
* `Engine.startup_mute`, `Engine.shutdown_mute`: these two push nothing.
-/

namespace LogShipper.Delivery

open Cancel (TokenId)

/-- The requests that sending needs. -/
def Request.isSending : Request → Bool
  | .phase => true
  | .poolPhase => true
  | .borrow => true
  | .push _ _ _ => true
  | .wait _ _ => true
  | .batchName => true
  | r => r.isCare

/-- A talk that makes only requests that sending needs. -/
abbrev Dialogue.Sends {α : Type} (d : Dialogue α) : Prop := d.Only Request.isSending

theorem Request.isSending_of_isCare {r : Request} (h : r.isCare = true) : r.isSending = true := by
  cases r <;> first | rfl | exact h

theorem Dialogue.log_sends {l : Level} {s : Source} {m : String} {fields : List (String × String)} :
    (Dialogue.log l s m fields).Sends :=
  .log rfl

theorem acquire_sends : acquire.Sends := by
  refine .ask rfl fun phase => ?_
  cases phase with
  | running =>
    refine .ask rfl fun x => ?_
    cases x <;> exact .done
  | created => exact .done
  | shutDown => exact .done

theorem PoolSettings.release_sends (p : PoolSettings) (link : LinkId) (healthy : Bool) :
    (p.release link healthy).Sends :=
  (p.release_cares link healthy).mono fun _ => Request.isSending_of_isCare

/-! ## Tries -/

/-- The requests that the tries of keys need. -/
def Request.isTry : Request → Bool
  | .push _ _ _ => true
  | .wait _ _ => true
  | .log entry => entry.source == .retry
  | _ => false

theorem Request.isSending_of_isTry {r : Request} (h : r.isTry = true) : r.isSending = true := by
  cases r <;> first | rfl | exact absurd h Bool.false_ne_true

theorem Job.attempt_tries (j : Job) (left used : Nat) :
    (j.attempt left used).Only Request.isTry := by
  have log {l : Level} {m : String} {fields : List (String × String)} :
      (Dialogue.log l .retry m fields).Only Request.isTry := .log rfl
  induction left generalizing used with
  | zero =>
    rw [attempt]
    refine .ask rfl fun x => ?_
    match x with
    | .ok _ => exact .bind log fun _ => .done
    | .error (.connection _) => exact .done
    | .error (.command _) => exact .bind log fun _ => .done
  | succ left ih =>
    rw [attempt]
    refine .ask rfl fun x => ?_
    match x with
    | .ok _ => exact .bind log fun _ => .done
    | .error (.connection _) => exact .done
    | .error (.command _) =>
      refine .bind log fun _ => .ask rfl fun x => ?_
      cases x with
      | elapsed => exact ih (used + 1)
      | cancelled => exact .bind log fun _ => .done

namespace Engine

variable (e : Engine)

theorem deliverKeys_tries (link : LinkId) (payload : Bytes) (token : TokenId)
    (keys exhausted cancelled : List String) :
    (e.deliverKeys link payload token keys exhausted cancelled).Only Request.isTry := by
  induction keys generalizing exhausted cancelled with
  | nil => exact .done
  | cons key keys ih =>
    refine .bind (Job.attempt_tries _ _ _) fun o => ?_
    cases o with
    | delivered _ => exact ih exhausted cancelled
    | exhausted _ _ => exact ih (key :: exhausted) cancelled
    | cancelled _ => exact ih exhausted (key :: cancelled)
    | lost reason => exact .done

theorem deliver_tries (link : LinkId) (payload : Bytes) (token : TokenId) :
    (e.deliver link payload token).Only Request.isTry :=
  e.deliverKeys_tries link payload token _ _ _

theorem deliver_sends (link : LinkId) (payload : Bytes) (token : TokenId) :
    (e.deliver link payload token).Sends :=
  (e.deliver_tries link payload token).mono fun _ => Request.isSending_of_isTry

/-! ## Sends -/

theorem report_sends (o : PayloadOutcome) : (e.report o).Sends := by
  cases o with
  | delivered => exact .done
  | undelivered _ _ => exact .done
  | lost _ _ => exact .bind Dialogue.log_sends fun _ => .done

theorem ensureStarted_sends : e.ensureStarted.Sends := by
  refine .ask rfl fun phase => ?_
  cases phase with
  | started => exact .done
  | created => exact .bind Dialogue.log_sends fun _ => .done
  | stopped => exact .bind Dialogue.log_sends fun _ => .done

/-- **Sending one payload.** -/
theorem sendWith_sends (payload : Bytes) (token : TokenId) : (e.sendWith payload token).Sends := by
  refine .bind e.ensureStarted_sends fun x => ?_
  cases x with
  | error err => exact .done
  | ok _ =>
    refine .bind (.bind acquire_sends fun got => ?_) fun _ => .done
    cases got with
    | error err => exact .bind Dialogue.log_sends fun _ => .done
    | ok link =>
      exact .bind (e.deliver_sends link payload token) fun o =>
        .bind (e.pool.release_sends link o.keepsLink) fun _ => e.report_sends o

theorem deliverAll_sends (link : LinkId) (payloads : List Bytes) (tally : Tally) :
    (e.deliverAll link payloads tally).Sends := by
  induction payloads generalizing tally with
  | nil => exact .done
  | cons payload rest ih =>
    refine .bind (e.deliver_sends link payload e.token) fun o => ?_
    cases o with
    | delivered => exact ih _
    | undelivered _ _ => exact ih _
    | lost _ _ => exact .bind Dialogue.log_sends fun _ => .done

theorem logBatch_cares (r : BulkReport) : (e.logBatch r).Cares := by
  unfold logBatch
  split <;> exact .log rfl

theorem logBatch_sends (r : BulkReport) : (e.logBatch r).Sends :=
  (e.logBatch_cares r).mono fun _ => Request.isSending_of_isCare

/-- **Sending many payloads.** -/
theorem sendBulk_sends (payloads : List Bytes) : (e.sendBulk payloads).Sends := by
  refine .bind e.ensureStarted_sends fun x => ?_
  cases x with
  | error err => exact .done
  | ok _ =>
    refine .bind (.ask rfl fun _ => .done) fun batch =>
      .bind (.bind acquire_sends fun got => ?_) fun _ => .done
    cases got with
    | error err => exact .bind Dialogue.log_sends fun _ => .done
    | ok link =>
      exact .bind Dialogue.log_sends fun _ =>
        .bind (e.deliverAll_sends link payloads {}) fun tally =>
          .bind (e.pool.release_sends link tally.healthy) fun _ =>
            .bind (e.logBatch_sends _) fun _ => .done

theorem sendEach_sends (payloads : List Bytes) : (e.sendEach payloads).Sends := by
  induction payloads with
  | nil => exact .done
  | cons payload rest ih =>
    exact .bind (e.sendWith_sends payload e.token) fun _ => .bind ih fun _ => .done

theorem sendAll_sends (senders : List (List Bytes)) : (e.sendAll senders).Sends := by
  induction senders with
  | nil => exact .done
  | cons payloads rest ih =>
    exact .bind (e.sendEach_sends payloads) fun _ => .bind ih fun _ => .done

end Engine

/-! ## Calls -/

/-- The requests that neither start nor stop anything. -/
def Request.isSteady : Request → Bool
  | .markStarted => false
  | .markStopped => false
  | .openPool => false
  | .closePool => false
  | _ => true

theorem Request.isSteady_of_isSending {r : Request} (h : r.isSending = true) :
    r.isSteady = true := by
  cases r <;> first | rfl | exact h

/-- A talk that neither starts nor stops anything. -/
abbrev Dialogue.Steadies {α : Type} (d : Dialogue α) : Prop := d.Only Request.isSteady

theorem Dialogue.Only.steadies {α : Type} {d : Dialogue α} (h : d.Sends) : d.Steadies :=
  h.mono fun _ => Request.isSteady_of_isSending

/-- A reply that is read off the result of a talk changes nothing any more. -/
theorem Dialogue.run_reply {α β σ : Type} {d : Dialogue α} {f : α → Dialogue β}
    (hf : ∀ x, ∃ reply, f x = .done reply) (answer : (r : Request) → σ → r.Answer × σ) (s : σ) :
    ((d.bind f).run answer s).2 = (d.run answer s).2 := by
  obtain ⟨reply, hreply⟩ := hf (d.run answer s).1
  rw [run_bind, hreply]
  rfl

/-- The reply to a call, read off the result of its talk. -/
theorem Dialogue.Only.reply {α : Type} {d : Dialogue (Except LifecycleError α)}
    {f : Except LifecycleError α → Dialogue Reply} (h : d.Sends)
    (hf : ∀ x, ∃ reply, f x = .done reply) : (d.bind f).Steadies := by
  refine .bind h.steadies fun x => ?_
  obtain ⟨reply, hr⟩ := hf x
  rw [hr]
  exact .done

/-- **Every call but startup and shutdown** neither starts nor stops anything. -/
theorem Call.steadies (e : Engine) {c : Call} (hstart : c ≠ .startup)
    (hstop : ∀ ms, c ≠ .shutdown ms) : (c.dialogue e).Steadies := by
  cases c with
  | startup => exact absurd rfl hstart
  | shutdown ms => exact absurd rfl (hstop ms)
  | describe => exact .ask rfl fun _ => .done
  | send payload =>
    exact .reply (e.sendWith_sends payload e.token) fun x => by cases x <;> exact ⟨_, rfl⟩
  | sendWith payload name =>
    refine .ask rfl fun token => ?_
    cases token with
    | none => exact .done
    | some token =>
      exact .reply (e.sendWith_sends payload token) fun x => by cases x <;> exact ⟨_, rfl⟩
  | bulk payloads =>
    exact .reply (e.sendBulk_sends payloads) fun x => by cases x <;> exact ⟨_, rfl⟩
  | parallel senders => exact .bind (e.sendAll_sends senders).steadies fun _ => .done
  | newToken name => exact .ask rfl fun _ => .done
  | engineToken name => exact .ask rfl fun _ => .done
  | childToken name parent =>
    refine .ask rfl fun token => ?_
    cases token with
    | none => exact .done
    | some token => exact .ask rfl fun _ => .done
  | cancel name =>
    refine .ask rfl fun token => ?_
    cases token with
    | none => exact .done
    | some token => exact .ask rfl fun _ => .done
  | isCancelled name =>
    refine .ask rfl fun token => ?_
    cases token with
    | none => exact .done
    | some token => exact .ask rfl fun _ => .done

/-! ## Startup and shutdown -/

/-- The requests that do not push. -/
def Request.isMute : Request → Bool
  | .push _ _ _ => false
  | _ => true

theorem PoolSettings.startup_mute (p : PoolSettings) : p.startup.Only Request.isMute := by
  have log {l : Level} {m : String} {fields : List (String × String)} :
      (p.log l m fields).Only Request.isMute := .log rfl
  refine .ask rfl fun phase => ?_
  cases phase with
  | running => exact .bind log fun _ => .done
  | shutDown => exact .done
  | created => exact .ask rfl fun _ => .bind log fun _ => .done

/-- A startup pushes nothing. -/
theorem Engine.startup_mute (e : Engine) : e.startup.Only Request.isMute := by
  have log {l : Level} {m : String} {fields : List (String × String)} :
      (e.log l m fields).Only Request.isMute := .log rfl
  refine .ask rfl fun phase => ?_
  cases phase with
  | started => exact .bind log fun _ => .done
  | stopped => exact .bind log fun _ => .done
  | created =>
    refine .bind e.pool.startup_mute fun x => ?_
    cases x with
    | error err => exact .bind log fun _ => .done
    | ok _ => exact .bind (.ask rfl fun _ => .done) fun _ => .bind log fun _ => .done

/-- How an engine parts with its pool once it has declared itself stopped. -/
def Engine.part (e : Engine) (ms : Option Nat) : Dialogue Bool := do
  let drained ← e.pool.shutdown ms
  e.log .info "Delivery engine stopped" [("drained", Text.truth drained)]
  return drained

theorem Engine.part_parts (e : Engine) (ms : Option Nat) : (e.part ms).Only Request.isParting :=
  .bind (e.pool.shutdown_parts ms) fun _ => .bind (.log rfl) fun _ => .done

/-- A shutdown cancels the engine's token first, and then parts with the pool. -/
theorem Engine.shutdown_eq (e : Engine) (ms : Option Nat) :
    e.shutdown ms = .ask .markStopped fun
      | .stopped => .done true
      | _ => .ask (.cancel e.token) fun _ => e.part ms := rfl

/-- A shutdown pushes nothing. -/
theorem Engine.shutdown_mute (e : Engine) (ms : Option Nat) :
    (e.shutdown ms).Only Request.isMute := by
  have mute {r : Request} (h : r.isParting = true) : r.isMute = true := by
    cases r <;> first | rfl | exact h
  have rest : Dialogue.Only Request.isMute (.ask (.cancel e.token) fun _ => e.part ms) :=
    .ask rfl fun _ => (e.part_parts ms).mono fun _ => mute
  rw [shutdown_eq]
  refine .ask rfl fun phase => ?_
  cases phase with
  | stopped => exact .done
  | created => exact rest
  | started => exact rest

end LogShipper.Delivery
