import LogShipper.Proofs.Delivery.Curbing
import LogShipper.Resp.Link
import LogShipper.World.Time

/-!
# What comes back for a push

The answer to a push decides whether it is repeated, and whether the link goes on being used. A
client can tell five things apart in what comes back (`Verdict`), but the answer to a push only
three: a number is success, a connection that failed loses the link, and all else is an error of the
command. So a push is repeated not only when the server has refused it, but also when the bytes that
came back are no reply, or are a reply that is no number; then nothing is known of what became of
the payload, and after bytes that are no reply nothing of what is read next.

Covers `push` and `classify`, and what `push_with_retry` makes of it.

Results:
* `answers_verdict`: the answer to a push, by what came back.
* `pushed_over_peer`: every push to a peer is answered by what came back for it.
* `repeated_by_verdict`: which pushes of a key are repeated, whoever is on the other side.
-/

namespace LogShipper

/-! ## The last answer -/

namespace Delivery.Job.Decides

variable {answer : Except LinkError Unit} {o : KeyOutcome} (h : Decides answer o)
include h

theorem delivered_iff : o.isDelivered = true ↔ answer = .ok () := by
  cases o with
  | delivered n => exact iff_of_true rfl h
  | exhausted n error =>
    obtain ⟨reason, rfl⟩ := h
    exact iff_of_false Bool.false_ne_true (by simp)
  | cancelled n =>
    obtain ⟨reason, rfl⟩ := h
    exact iff_of_false Bool.false_ne_true (by simp)
  | lost reason =>
    obtain rfl : answer = .error (.connection reason) := h
    exact iff_of_false Bool.false_ne_true (by simp)

theorem lost_iff : o.isLost = true ↔ ∃ reason, answer = .error (.connection reason) := by
  cases o with
  | delivered n =>
    obtain rfl : answer = .ok () := h
    exact iff_of_false Bool.false_ne_true (by simp)
  | exhausted n error =>
    obtain ⟨reason, rfl⟩ := h
    exact iff_of_false Bool.false_ne_true (by simp)
  | cancelled n =>
    obtain ⟨reason, rfl⟩ := h
    exact iff_of_false Bool.false_ne_true (by simp)
  | lost reason => exact iff_of_true rfl ⟨reason, h⟩

end Delivery.Job.Decides

namespace Resp

open Cancel (TokenId)
open Delivery (Request Exchange Dialogue Engine KeyOutcome push pushes trace_push)

/-! ## Verdicts -/

/-- What came back for a push. -/
inductive Verdict where
  /-- A number: the server has appended the payload. -/
  | counted
  /-- An error of the server, which has not. -/
  | refused
  /-- No reply, but something else. -/
  | garbled
  /-- A reply that is no number. -/
  | mistyped
  /-- Nothing, for the connection failed. -/
  | broken
  deriving DecidableEq, Repr

namespace Verdict

/-- Whether something came back that is no success. -/
def isRebuff : Verdict → Bool
  | refused => true
  | garbled => true
  | mistyped => true
  | _ => false

/-- Which answers to a push there are for a verdict. -/
def Answers : Verdict → Except LinkError Unit → Prop
  | counted, x => x = .ok ()
  | broken, x => ∃ reason, x = .error (.connection reason)
  | _, x => ∃ reason, x = .error (.command reason)

variable {v : Verdict} {x : Except LinkError Unit} (h : v.Answers x)
include h

theorem Answers.ok_iff : x = .ok () ↔ v = .counted := by
  cases v with
  | counted => exact iff_of_true h rfl
  | _ =>
    obtain ⟨reason, rfl⟩ := h
    exact iff_of_false (by simp) Verdict.noConfusion

theorem Answers.connection_iff : (∃ reason, x = .error (.connection reason)) ↔ v = .broken := by
  cases v with
  | broken => exact iff_of_true h rfl
  | counted =>
    obtain rfl := h
    exact iff_of_false (by simp) Verdict.noConfusion
  | _ =>
    obtain ⟨reason, rfl⟩ := h
    exact iff_of_false (by simp) Verdict.noConfusion

theorem Answers.command_iff :
    (∃ reason, x = .error (.command reason)) ↔ v.isRebuff = true := by
  cases v with
  | broken =>
    obtain ⟨reason, rfl⟩ := h
    exact iff_of_false (by simp) Bool.false_ne_true
  | counted =>
    obtain rfl := h
    exact iff_of_false (by simp) Bool.false_ne_true
  | _ => exact iff_of_true h rfl

end Verdict

/-- What came back. -/
def Received.verdict : Received → Verdict
  | .failed _ => .broken
  | .garbled _ => .garbled
  | .reply (.error line) => if (Text.ofUtf8? line).isSome then .refused else .garbled
  | .reply r => if r.number.isOk then .counted else .mistyped

/-! ## Failures -/

theorem FailureKind.ofCode?_ne_io {code : String} {k : FailureKind} (h : ofCode? code = some k) :
    k ≠ .io := by
  unfold ofCode? at h
  split at h
  all_goals cases h
  all_goals exact FailureKind.noConfusion

/-- What a server says is never taken for a failure of the connection. -/
theorem ClientFailure.kind_ofErrorLine (line : String) : (ofErrorLine line).kind ≠ .io := by
  unfold ofErrorLine
  dsimp only
  split
  · rename_i k hk
    exact FailureKind.ofCode?_ne_io hk
  · exact FailureKind.noConfusion

/-- Nor is a reply that is no number. -/
theorem Reply.kind_of_number {reply : Reply} {f : ClientFailure} (h : reply.number = .error f) :
    f.kind = .type := by
  unfold Reply.number at h
  split at h
  · cases h
  · split at h
    · cases h
      rfl
    · split at h
      · cases h
      · cases h
        rfl
  · split at h
    · cases h
      rfl
    · split at h
      · cases h
      · cases h
        rfl
  · cases h
    rfl

theorem ClientFailure.toLinkError_of_ne {f : ClientFailure} (h : f.kind ≠ .io) :
    f.toLinkError = .command f.message := if_neg h

/-- **The answer to a push**, by what came back for it. -/
theorem answers_verdict (r : Received) : r.verdict.Answers (pushed r) := by
  have converted {reply : Reply} (hr : (Received.reply reply).reply? = .ok reply)
      (hv : (Received.reply reply).verdict = if reply.number.isOk then .counted else .mistyped) :
      (Received.reply reply).verdict.Answers (pushed (.reply reply)) := by
    rw [hv, pushed, hr]
    dsimp only
    cases hn : reply.number with
    | ok n => rfl
    | error f =>
      have hkind : f.kind ≠ .io := by rw [Reply.kind_of_number hn]; exact FailureKind.noConfusion
      exact ⟨_, congrArg Except.error (ClientFailure.toLinkError_of_ne hkind)⟩
  match r with
  | .failed message => exact ⟨message, rfl⟩
  | .garbled detail => exact ⟨_, rfl⟩
  | .reply (.error line) =>
    cases hu : Text.ofUtf8? line with
    | none =>
      have hv : (Received.reply (.error line)).verdict = .garbled := by simp [Received.verdict, hu]
      have hp : pushed (.reply (.error line)) =
          .error (ClientFailure.described .parse "parse error" none).toLinkError := by
        simp [pushed, Received.reply?, hu]
      rw [hv, hp]
      exact ⟨_, rfl⟩
    | some s =>
      have hv : (Received.reply (.error line)).verdict = .refused := by simp [Received.verdict, hu]
      have hp : pushed (.reply (.error line)) = .error (ClientFailure.ofErrorLine s).toLinkError := by
        simp [pushed, Received.reply?, hu]
      rw [hv, hp, ClientFailure.toLinkError_of_ne (ClientFailure.kind_ofErrorLine s)]
      exact ⟨_, rfl⟩
  | .reply (.text line) => exact converted rfl rfl
  | .reply (.int n) => exact converted rfl rfl
  | .reply (.bytes content) => exact converted rfl rfl
  | .reply (.array items) => exact converted rfl rfl
  | .reply .nothing => exact converted rfl rfl

/-! ## Pushes to a peer -/

section Peer

variable {σ : Type} (peer : Peer (StateM σ)) (files : Files) (connectTime : Nat → Nat)
  (e : Engine) (depth : Nat)

/-- What a peer may come back with for a push. -/
def Peer.Utters (peer : Peer (StateM σ)) (link : LinkId) (key : String) (payload : Bytes)
    (r : Received) : Prop :=
  ∃ s, r = (peer.exchange link (pushCommand key payload) s).1

theorem answer_push_peer (link : LinkId) (key : String) (payload : Bytes) (w : World σ) :
    (w.answer (peer.transport files connectTime) e depth (.push link key payload)).1 =
      pushed (peer.exchange link (pushCommand key payload) w.remote).1 := by
  cases depth <;> rfl

/-- **Every push to a peer** is answered by what comes back for it. -/
theorem pushed_over_peer {α : Type} (d : Dialogue α) (w : World σ) :
    ∀ p ∈ pushes (d.exchanges (World.answer (peer.transport files connectTime) e depth) w),
      ∃ r, peer.Utters p.link p.key p.payload r ∧ p.answer = pushed r := by
  intro p hp
  obtain ⟨x, hx, hpushed⟩ := List.mem_filterMap.mp hp
  rw [← Dialogue.exchanges_steps] at hx
  obtain ⟨step, hstep, rfl⟩ := List.mem_map.mp hx
  have answered := (Dialogue.steps_later (I := fun _ => True) (fun _ _ _ => trivial)
    (List.nil_append _).symm trivial step hstep).2.1
  obtain ⟨before, ⟨r, y⟩, after⟩ := step
  cases r with
  | push link key payload =>
    obtain rfl := Option.some.inj hpushed
    exact ⟨_, ⟨before.remote, rfl⟩, answered.trans (answer_push_peer ..)⟩
  | _ => cases hpushed

end Peer

/-! ## Which pushes are repeated -/

section Repeated

variable {σ : Type} (peer : Peer (StateM σ)) (files : Files) (connectTime : Nat → Nat)
  (e : Engine) (depth : Nat)
  (w : World σ) (link : LinkId) (key : String) (payload : Bytes)

/-- What came back for the tries of a key: a rebuff for each one that was repeated, and for the last
one what decides how they ended. -/
def Repeated (t : List Exchange) (o : KeyOutcome) : Prop :=
  ∃ earlier p, pushes t = earlier ++ [p] ∧
    (∀ q ∈ earlier, ∃ r, peer.Utters link key payload r ∧ q.answer = pushed r ∧
      r.verdict.isRebuff = true) ∧
    ∃ r, peer.Utters link key payload r ∧ p.answer = pushed r ∧
      (o.isDelivered = true ↔ r.verdict = .counted) ∧ (o.isLost = true ↔ r.verdict = .broken)

/-- **What is repeated, and when a link is given up.** A failure loses the link if it is one of the
connection; for a push that is so if nothing came back; and of the tries of a key each one that is
repeated was answered by the server, with an error or otherwise than it should. -/
theorem repeated_by_verdict (policy : RetryPolicy) (token : TokenId) :
    (∀ f : ClientFailure, f.toLinkError.isConnection = true ↔ f.kind = .io) ∧
    (∀ r : Received, r.verdict.Answers (pushed r)) ∧
    Repeated peer link key payload
      ((push link key payload policy token).exchanges
        (World.answer (peer.transport files connectTime) e depth) w)
      ((push link key payload policy token).run
        (World.answer (peer.transport files connectTime) e depth) w).1 := by
  refine ⟨ClientFailure.isConnection_iff, answers_verdict, ?_⟩
  have htrace := Dialogue.trace_run (World.answer (peer.transport files connectTime) e depth)
    (push link key payload policy token) w
  have huttered :=
    pushed_over_peer peer files connectTime e depth (push link key payload policy token) w
  obtain ⟨errors, answer, ht, hdecides⟩ := trace_push htrace
  rw [ht, List.forall_mem_append, List.forall_mem_singleton] at huttered
  obtain ⟨hearlier, r, hr, hanswer⟩ := huttered
  refine ⟨_, _, ht, fun q hq => ?_, r, hr, hanswer, ?_, ?_⟩
  · obtain ⟨r, hr, hq'⟩ := hearlier q hq
    obtain ⟨error, -, rfl⟩ := List.mem_map.mp hq
    exact ⟨r, hr, hq', (answers_verdict r).command_iff.mp ⟨error, hq'.symm⟩⟩
  · rw [← (answers_verdict r).ok_iff, ← hanswer]
    exact hdecides.delivered_iff
  · rw [← (answers_verdict r).connection_iff, ← hanswer]
    exact hdecides.lost_iff

end Repeated

/-! ## A push that is taken and repeated -/

/-- A peer that takes every payload, and answers with what is no reply. -/
def mumbling : Peer (StateM Nat) where
  dial _ _ := pure (.ok ())
  exchange _ _ taken := (.garbled "unexpected byte", taken + 1)
  hangUp _ := pure ()

/-- It is not only errors of the server that are answered as errors of the command, and so the three
tries of one push are taken three times over, and the link is kept. -/
theorem taken_three_times :
    (¬ ∀ r : Received, (∃ reason, pushed r = .error (.command reason)) → r.verdict = .refused) ∧
      let run := (push 0 "key" [104] {} 0).run
        (World.answer (mumbling.transport (fun _ => .error "") fun _ => 100) Engine.twoKeys 0)
          { remote := 0 }
      run.1 = .exhausted 3 "parse error - ParseError: unexpected byte" ∧ run.2.remote = 3 := by
  refine ⟨fun h => ?_, by decide +kernel⟩
  have hgarbled : (Received.garbled "unexpected byte").verdict = .refused := h _ ⟨_, rfl⟩
  cases hgarbled

end Resp

end LogShipper
