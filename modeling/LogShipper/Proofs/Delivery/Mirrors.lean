import LogShipper.Proofs.Delivery.Sending

/-!
# Talks that differ in payloads only

`Dialogue.Mirrors f d d'` says that `d'` is `d` with each payload `p` that is pushed replaced by
`f p`: the same requests in the same order, the same waits and log entries, and the same results,
whatever the answers are. Sending is such a talk: no payload is looked at on its way, nor logged,
nor left out where it is empty.

Results:
* `Dialogue.Mirrors.run`: two who answer such talks alike come to the same result.
* `Engine.mirrors_sendWith`, `Engine.mirrors_sendBulk`: sends of other payloads.
* `Call.mirrors`: every call with other payloads.
-/

namespace LogShipper

/-- The same answer, and related states after it. -/
def Alike {α σ τ : Type} (S : σ → τ → Prop) (x : α × σ) (y : α × τ) : Prop :=
  x.1 = y.1 ∧ S x.2 y.2

theorem Alike.exists_pair {α σ τ : Type} {S : σ → τ → Prop} {x : α × σ} {y : α × τ}
    (h : Alike S x y) : ∃ a v w, x = (a, v) ∧ y = (a, w) ∧ S v w :=
  ⟨x.1, x.2, y.2, rfl, Prod.ext h.1.symm rfl, h.2⟩

namespace Delivery

open Cancel (TokenId)

/-- The call with each payload replaced. -/
def Call.map (f : Bytes → Bytes) : Call → Call
  | .send payload => .send (f payload)
  | .sendWith payload token => .sendWith (f payload) token
  | .bulk payloads => .bulk (payloads.map f)
  | .parallel senders => .parallel (senders.map (·.map f))
  | c => c

theorem Call.map_id (c : Call) : c.map id = c := by
  cases c <;> simp [Call.map]

theorem Call.isHeard_map (f : Bytes → Bytes) (c : Call) : (c.map f).isHeard = c.isHeard := by
  cases c <;> rfl

/-- One talk is the other with each payload that is pushed replaced. -/
inductive Dialogue.Mirrors {α : Type} (f : Bytes → Bytes) : Dialogue α → Dialogue α → Prop where
  | done (a : α) : Mirrors f (.done a) (.done a)
  | ask {r : Request} {next next' : r.Answer → Dialogue α} (hr : r.isMute = true)
      (h : ∀ x, Mirrors f (next x) (next' x)) : Mirrors f (.ask r next) (.ask r next')
  | push {link : LinkId} {key : String} {payload : Bytes}
      {next next' : Except LinkError Unit → Dialogue α} (h : ∀ x, Mirrors f (next x) (next' x)) :
      Mirrors f (.ask (.push link key payload) next) (.ask (.push link key (f payload)) next')

namespace Dialogue.Mirrors

variable {α β σ τ : Type} {f : Bytes → Bytes} {d d' : Dialogue α}

theorem bind {g g' : α → Dialogue β} (h : d.Mirrors f d') (hg : ∀ a, (g a).Mirrors f (g' a)) :
    (d.bind g).Mirrors f (d'.bind g') := by
  induction h with
  | done a => exact hg a
  | ask hr _ ih => exact .ask hr ih
  | push _ ih => exact .push ih

/-- A talk that pushes nothing. -/
theorem of_mute (h : d.Only Request.isMute) : d.Mirrors f d := by
  induction d with
  | done a => exact .done a
  | ask r next ih => exact .ask h.1 fun x => ih x (h.2 x trivial)

theorem log {l : Level} {s : Source} {m : String} {fields : List (String × String)} :
    (Dialogue.log l s m fields).Mirrors f (.log l s m fields) := of_mute (.log rfl)

/-- Each talk is itself with no payload replaced. -/
theorem self (d : Dialogue α) : d.Mirrors id d := by
  induction d with
  | done a => exact .done a
  | ask r next ih =>
    cases r with
    | push link key payload => exact .push ih
    | _ => exact .ask rfl ih

/-- **Two who answer such talks alike**, from related states, come to the same result, and to
related states again. -/
theorem run {S : σ → τ → Prop} {answer : (r : Request) → σ → r.Answer × σ}
    {answer' : (r : Request) → τ → r.Answer × τ} (h : d.Mirrors f d')
    (hmute : ∀ r v w, r.isMute = true → S v w → Alike S (answer r v) (answer' r w))
    (hpush : ∀ link key payload v w, S v w →
      Alike S (answer (.push link key payload) v) (answer' (.push link key (f payload)) w))
    {v : σ} {w : τ} (hS : S v w) : Alike S (d.run answer v) (d'.run answer' w) := by
  induction h generalizing v w with
  | done a => exact ⟨rfl, hS⟩
  | @ask r next next' hr _ ih =>
    obtain ⟨hanswer, hafter⟩ := hmute r v w hr hS
    unfold Dialogue.run
    rw [hanswer]
    exact ih _ hafter
  | @push link key payload next next' _ ih =>
    obtain ⟨hanswer, hafter⟩ := hpush link key payload v w hS
    unfold Dialogue.run
    rw [hanswer]
    exact ih _ hafter

end Dialogue.Mirrors

theorem Request.isMute_of_isCare {r : Request} (h : r.isCare = true) : r.isMute = true := by
  cases r <;> first | rfl | exact h

theorem acquire_mute : acquire.Only Request.isMute := by
  refine .ask rfl fun phase => ?_
  cases phase with
  | running =>
    refine .ask rfl fun x => ?_
    cases x <;> exact .done
  | created => exact .done
  | shutDown => exact .done

theorem PoolSettings.release_mute (p : PoolSettings) (link : LinkId) (healthy : Bool) :
    (p.release link healthy).Only Request.isMute :=
  (p.release_cares link healthy).mono fun _ => Request.isMute_of_isCare

theorem PoolSettings.evict_mute (p : PoolSettings) : p.evict.Only Request.isMute :=
  p.evict_cares.mono fun _ => Request.isMute_of_isCare

variable (f : Bytes → Bytes)

/-- **The tries of one push.** -/
theorem Job.mirrors_attempt (j : Job) (left used : Nat) :
    (j.attempt left used).Mirrors f ({ j with payload := f j.payload }.attempt left used) := by
  induction left generalizing used with
  | zero =>
    rw [attempt, attempt]
    refine .push fun x => ?_
    cases x with
    | ok _ => exact .bind .log fun _ => .done _
    | error err =>
      cases err with
      | connection reason => exact .done _
      | command reason => exact .bind .log fun _ => .done _
  | succ left ih =>
    rw [attempt, attempt]
    refine .push fun x => ?_
    cases x with
    | ok _ => exact .bind .log fun _ => .done _
    | error err =>
      cases err with
      | connection reason => exact .done _
      | command reason =>
        refine .bind .log fun _ => .ask rfl fun x => ?_
        cases x with
        | elapsed => exact ih (used + 1)
        | cancelled => exact .bind .log fun _ => .done _

namespace Engine

variable (e : Engine)

theorem ensureStarted_mute : e.ensureStarted.Only Request.isMute := by
  refine .ask rfl fun phase => ?_
  cases phase with
  | started => exact .done
  | created => exact .bind (.log rfl) fun _ => .done
  | stopped => exact .bind (.log rfl) fun _ => .done

theorem report_mute (o : PayloadOutcome) : (e.report o).Only Request.isMute := by
  cases o with
  | delivered => exact .done
  | undelivered _ _ => exact .done
  | lost _ _ => exact .bind (.log rfl) fun _ => .done

theorem logBatch_mute (r : BulkReport) : (e.logBatch r).Only Request.isMute := by
  unfold logBatch
  split <;> exact .log rfl

theorem mirrors_deliver (link : LinkId) (payload : Bytes) (token : TokenId) :
    (e.deliver link payload token).Mirrors f (e.deliver link (f payload) token) := by
  have keys (keys exhausted cancelled : List String) :
      (e.deliverKeys link payload token keys exhausted cancelled).Mirrors f
        (e.deliverKeys link (f payload) token keys exhausted cancelled) := by
    induction keys generalizing exhausted cancelled with
    | nil => exact .done _
    | cons key keys ih =>
      refine .bind (Job.mirrors_attempt f _ _ _) fun o => ?_
      cases o with
      | delivered _ => exact ih exhausted cancelled
      | exhausted _ _ => exact ih (key :: exhausted) cancelled
      | cancelled _ => exact ih exhausted (key :: cancelled)
      | lost reason => exact .done _
  exact keys _ _ _

/-- **Sending one other payload.** -/
theorem mirrors_sendWith (payload : Bytes) (token : TokenId) :
    (e.sendWith payload token).Mirrors f (e.sendWith (f payload) token) := by
  refine .bind (.of_mute e.ensureStarted_mute) fun x => ?_
  cases x with
  | error err => exact .done _
  | ok _ =>
    refine .bind (.bind (.of_mute acquire_mute) fun got => ?_) fun _ => .done _
    cases got with
    | error err => exact .bind .log fun _ => .done _
    | ok link =>
      exact .bind (e.mirrors_deliver f link payload token) fun o =>
        .bind (.of_mute (e.pool.release_mute link o.keepsLink)) fun _ => .of_mute (e.report_mute o)

theorem mirrors_deliverAll (link : LinkId) (payloads : List Bytes) (tally : Tally) :
    (e.deliverAll link payloads tally).Mirrors f (e.deliverAll link (payloads.map f) tally) := by
  induction payloads generalizing tally with
  | nil => exact .done _
  | cons payload rest ih =>
    rw [List.map_cons, deliverAll, deliverAll, List.length_map]
    refine .bind (e.mirrors_deliver f link payload e.token) fun o => ?_
    cases o with
    | delivered => exact ih _
    | undelivered _ _ => exact ih _
    | lost _ _ => exact .bind .log fun _ => .done _

/-- **Sending many other payloads.** How many there are is told, and no more of them. -/
theorem mirrors_sendBulk (payloads : List Bytes) :
    (e.sendBulk payloads).Mirrors f (e.sendBulk (payloads.map f)) := by
  refine .bind (.of_mute e.ensureStarted_mute) fun x => ?_
  cases x with
  | error err => exact .done _
  | ok _ =>
    refine .bind (.of_mute (.ask rfl fun _ => .done)) fun batch => .bind ?_ fun _ => .done _
    unfold bulkOverLink
    rw [List.length_map]
    refine .bind (.of_mute acquire_mute) fun got => ?_
    cases got with
    | error err => exact .bind .log fun _ => .done _
    | ok link =>
      exact .bind .log fun _ => .bind (e.mirrors_deliverAll f link payloads {}) fun tally =>
        .bind (.of_mute (e.pool.release_mute link tally.healthy)) fun _ =>
          .bind (.of_mute (e.logBatch_mute _)) fun _ => .done _

theorem mirrors_sendAll (senders : List (List Bytes)) :
    (e.sendAll senders).Mirrors f (e.sendAll (senders.map (·.map f))) := by
  have each (payloads : List Bytes) :
      (e.sendEach payloads).Mirrors f (e.sendEach (payloads.map f)) := by
    induction payloads with
    | nil => exact .done _
    | cons payload rest ih =>
      exact .bind (e.mirrors_sendWith f payload e.token) fun _ => .bind ih fun _ => .done _
  induction senders with
  | nil => exact .done _
  | cons payloads rest ih => exact .bind (each payloads) fun _ => .bind ih fun _ => .done _

end Engine

/-- **Every call with other payloads.** -/
theorem Call.mirrors (e : Engine) (c : Call) : (c.dialogue e).Mirrors f ((c.map f).dialogue e) := by
  cases c with
  | describe => exact .ask rfl fun _ => .done _
  | startup =>
    refine .bind (.of_mute e.startup_mute) fun x => ?_
    cases x <;> exact .done _
  | send payload =>
    refine .bind (e.mirrors_sendWith f payload e.token) fun x => ?_
    cases x <;> exact .done _
  | sendWith payload name =>
    refine .ask rfl fun token => ?_
    cases token with
    | none => exact .done _
    | some token =>
      refine .bind (e.mirrors_sendWith f payload token) fun x => ?_
      cases x <;> exact .done _
  | bulk payloads =>
    refine .bind (e.mirrors_sendBulk f payloads) fun x => ?_
    cases x <;> exact .done _
  | parallel senders => exact .bind (e.mirrors_sendAll f senders) fun _ => .done _
  | shutdown ms => exact .bind (.of_mute (e.shutdown_mute ms)) fun _ => .done _
  | newToken name => exact .ask rfl fun _ => .done _
  | engineToken name => exact .ask rfl fun _ => .done _
  | childToken name parent =>
    refine .ask rfl fun token => ?_
    cases token with
    | none => exact .done _
    | some token => exact .ask rfl fun _ => .done _
  | cancel name =>
    refine .ask rfl fun token => ?_
    cases token with
    | none => exact .done _
    | some token => exact .ask rfl fun _ => .done _
  | isCancelled name =>
    refine .ask rfl fun token => ?_
    cases token with
    | none => exact .done _
    | some token => exact .ask rfl fun _ => .done _

end Delivery

end LogShipper
