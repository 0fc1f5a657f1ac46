import LogShipper.Delivery.Push
import LogShipper.Proofs.Delivery.Exchanges

/-!
# The law of tries

`Job.Tried left used` says which exchanges the tries of one key may consist of, with `left` tries
after the first one and `used` before it: a push that is accepted, or that loses the link, ends
them; a rejected one ends them when no try is left; else one wait follows, and either it is
cancelled or the tries go on with one less.

What later proofs need of a key is read off `Tried.shape`: all pushes but the last one are
rejected, and the last one decides the outcome.

Results:
* `tried_of_trace`, `trace_of_tried`: the exchanges of tries are those that the law allows.
* `Tried.shape`: the pushes of the tries of a key.
-/

namespace LogShipper.Delivery

open Dialogue (Trace)

namespace Job

variable {j : Job}

/-! ## Exchanges of tries -/

/-- A push of the job. -/
def pushed (j : Job) (answer : Except LinkError Unit) : Exchange :=
  ⟨.push j.link j.key j.payload, answer⟩

/-- A wait for the next try. -/
def waited (j : Job) (outcome : Cancel.WaitOutcome) : Exchange :=
  ⟨.wait j.token j.retryDelayMs.toNat, outcome⟩

@[simp] theorem pushes_pushed (j : Job) (answer : Except LinkError Unit) (t : List Exchange) :
    pushes (j.pushed answer :: t) = ⟨j.link, j.key, j.payload, answer⟩ :: pushes t := rfl

@[simp] theorem pushes_waited (j : Job) (outcome : Cancel.WaitOutcome) (t : List Exchange) :
    pushes (j.waited outcome :: t) = pushes t := rfl

/-- The entry of an accepted push. -/
def pushedEntry (j : Job) (attempts : Nat) : LogEntry where
  level := .debug
  source := .retry
  message := "Pushed record"
  fields := [("key", j.key), ("attempts", Text.decimal attempts)]

/-- The entry when no try is left. -/
def exhaustedEntry (j : Job) (attempts : Nat) (error : String) : LogEntry where
  level := .error
  source := .retry
  message := "Unable to send a log record after " ++ Text.decimal attempts ++ " tries"
  fields := [("key", j.key), ("attempts", Text.decimal attempts), ("error", error)]

/-- The entry before a wait. -/
def retryingEntry (j : Job) (attempt : Nat) (error : String) : LogEntry where
  level := .warn
  source := .retry
  message := "Failed to push record, retrying"
  fields := [("key", j.key), ("attempt", Text.decimal attempt),
    ("delay_ms", Text.decimal j.retryDelayMs.toNat), ("error", error)]

/-- The entry of a wait that is cancelled. -/
def cancelledEntry (j : Job) (attempts : Nat) : LogEntry where
  level := .info
  source := .retry
  message := "Retry wait cancelled, aborting remaining retries for key"
  fields := [("key", j.key), ("attempts", Text.decimal attempts)]

/-- **The law of tries**: what the tries of a key consist of and how they end. -/
inductive Tried (j : Job) : (left used : Nat) → List Exchange → KeyOutcome → Prop
  | delivered (left used : Nat) :
      Tried j left used [j.pushed (.ok ()), .logged (j.pushedEntry (used + 1))]
        (.delivered (used + 1))
  | lost (left used : Nat) (reason : String) :
      Tried j left used [j.pushed (.error (.connection reason))] (.lost reason)
  | exhausted (used : Nat) (error : String) :
      Tried j 0 used
        [j.pushed (.error (.command error)), .logged (j.exhaustedEntry (used + 1) error)]
        (.exhausted (used + 1) error)
  | cancelled (left used : Nat) (error : String) :
      Tried j (left + 1) used
        [j.pushed (.error (.command error)), .logged (j.retryingEntry (used + 1) error),
          j.waited .cancelled, .logged (j.cancelledEntry (used + 1))]
        (.cancelled (used + 1))
  | again {left used : Nat} {t : List Exchange} {o : KeyOutcome} (error : String)
      (h : Tried j left (used + 1) t o) :
      Tried j (left + 1) used
        (j.pushed (.error (.command error)) :: .logged (j.retryingEntry (used + 1) error) ::
          j.waited .elapsed :: t) o

/-- One try ends the tries, or is rejected and the other tries follow after a wait. -/
theorem tried_or_again {left used : Nat} {t : List Exchange} {o : KeyOutcome}
    (h : Trace (j.attempt left used) t o) :
    j.Tried left used t o ∨
      ∃ (rest : Nat) (error : String) (u : List Exchange), left = rest + 1 ∧
        t = j.pushed (.error (.command error)) ::
          .logged (j.retryingEntry (used + 1) error) :: j.waited .elapsed :: u ∧
        Trace (j.attempt rest (used + 1)) u o := by
  rw [attempt] at h
  cases h with
  | @ask _ _ x _ _ h₁ =>
    match x, left with
    | .ok (), left =>
      obtain ⟨_, rfl, h₂⟩ := Dialogue.trace_log_bind.mp h₁
      obtain ⟨rfl, rfl⟩ := Dialogue.trace_done.mp h₂
      exact .inl (.delivered left used)
    | .error (.connection reason), left =>
      obtain ⟨rfl, rfl⟩ := Dialogue.trace_done.mp h₁
      exact .inl (.lost left used reason)
    | .error (.command e), 0 =>
      obtain ⟨_, rfl, h₂⟩ := Dialogue.trace_log_bind.mp h₁
      obtain ⟨rfl, rfl⟩ := Dialogue.trace_done.mp h₂
      exact .inl (.exhausted used e)
    | .error (.command e), left + 1 =>
      obtain ⟨_, rfl, h₂⟩ := Dialogue.trace_log_bind.mp h₁
      obtain ⟨x, u, rfl, h₃⟩ := Dialogue.trace_ask.mp h₂
      match x with
      | .elapsed => exact .inr ⟨left, e, u, rfl, rfl, h₃⟩
      | .cancelled =>
        obtain ⟨_, rfl, h₄⟩ := Dialogue.trace_log_bind.mp h₃
        obtain ⟨rfl, rfl⟩ := Dialogue.trace_done.mp h₄
        exact .inl (.cancelled left used e)

/-- A trace of tries keeps the law. The induction is on the tries that are left. -/
theorem tried_of_trace {left used : Nat} {t : List Exchange} {o : KeyOutcome}
    (h : Trace (j.attempt left used) t o) : j.Tried left used t o := by
  induction left generalizing used t with
  | zero =>
    rcases tried_or_again h with h | ⟨rest, error, u, h0, -⟩
    · exact h
    · exact absurd h0 (by omega)
  | succ left ih =>
    rcases tried_or_again h with h | ⟨rest, error, u, hl, rfl, hu⟩
    · exact h
    · obtain rfl := Nat.succ.inj hl
      exact .again error (ih hu)

/-- Whatever keeps the law is a trace of tries. -/
theorem trace_of_tried {left used : Nat} {t : List Exchange} {o : KeyOutcome}
    (h : j.Tried left used t o) : Trace (j.attempt left used) t o := by
  induction h with
  | delivered left used =>
    rw [attempt]
    exact .ask (.ask (.done _))
  | lost left used reason =>
    rw [attempt]
    exact .ask (.done _)
  | exhausted used error =>
    rw [attempt]
    exact .ask (.ask (.done _))
  | cancelled left used error =>
    rw [attempt]
    exact .ask (.ask (.ask (.ask (.done _))))
  | again error _ ih =>
    rw [attempt]
    exact .ask (.ask (.ask ih))

/-! ## The pushes of tries -/

/-- How the answer to the last push decides the outcome. -/
def Decides (answer : Except LinkError Unit) : KeyOutcome → Prop
  | .delivered _ => answer = .ok ()
  | .exhausted _ _ => ∃ error, answer = .error (.command error)
  | .cancelled _ => ∃ error, answer = .error (.command error)
  | .lost reason => answer = .error (.connection reason)

/-- The pushes of tries: rejected ones, then one that decides the outcome. -/
theorem Tried.shape {left used : Nat} {t : List Exchange} {o : KeyOutcome}
    (h : j.Tried left used t o) :
    ∃ (errors : List String) (answer : Except LinkError Unit),
      pushes t = errors.map (fun e => ⟨j.link, j.key, j.payload, .error (.command e)⟩) ++
        [⟨j.link, j.key, j.payload, answer⟩] ∧ Decides answer o := by
  induction h with
  | delivered left used => exact ⟨[], _, rfl, rfl⟩
  | lost left used reason => exact ⟨[], _, rfl, rfl⟩
  | exhausted used error => exact ⟨[], _, rfl, error, rfl⟩
  | cancelled left used error => exact ⟨[], _, rfl, error, rfl⟩
  | again error _ ih =>
    obtain ⟨errors, answer, ht, ho⟩ := ih
    refine ⟨error :: errors, answer, ?_, ho⟩
    rw [pushes_pushed, pushes_logged, pushes_waited, ht]
    rfl

/-- Tries begin with a push. -/
theorem Tried.head {left used : Nat} {t : List Exchange} {o : KeyOutcome}
    (h : j.Tried left used t o) : ∃ x u, t = x :: u ∧ x.pushed? ≠ none := by
  cases h <;> exact ⟨_, _, rfl, Option.some_ne_none _⟩

end Job

end LogShipper.Delivery
