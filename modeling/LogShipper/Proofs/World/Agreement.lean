import LogShipper.Proofs.Delivery.Truth
import LogShipper.Proofs.World.Borrowing

/-!
# A batch and single sends agree

With a store that obliges, and with nobody else about, it makes no difference whether payloads are
sent as a batch or one by one, although a batch borrows one link for all of them and single sends
borrow one each: the same pushes are made in the same order, the store comes to remember the same,
and the report of the batch counts what the single sends come to.

Both are followed on the gist of the world, on which one payload after the other is delivered
(`Gist.deliverEach`).

Covers `send_bulk` beside `send`. Links must be opened before a borrower gives up (`World.InTime`);
a batch that has waited in vain for its link is given up as a whole, while single sends may find the
link there later.

Results:
* `comes_deliverAll`: the payloads of a batch, over its link.
* `Ready.bulk`: a batch.
* `Ready.send`, `Ready.sends`: single sends, each over a link of its own.
* `Since.bulk_agrees`: a batch and single sends agree.
-/

namespace LogShipper

open Delivery (Request Dialogue PoolSettings Engine Call Reply PayloadOutcome BulkReport SendOutcome
  Standing)

/-! ## Payloads on the gist of a world -/

namespace Gist

variable {V : Type} (reply : V → String → Bytes → Except String Unit × V) (e : Engine)

/-- The pushes of a payload to all keys. -/
def deliver (payload : Bytes) (g : Gist V) : PayloadOutcome × Gist V :=
  (e.deliver 0 payload e.token).run (answer reply) g

/-- The pushes of one payload after the other, and what is reported of each. -/
def deliverEach : List Bytes → Gist V → List SendOutcome × Gist V
  | [], g => ([], g)
  | payload :: rest, g =>
    (e.reported (g.deliver reply e payload).1 ::
      (deliverEach rest (g.deliver reply e payload).2).1,
      (deliverEach rest (g.deliver reply e payload).2).2)

/-- No push of a payload loses its link. -/
theorem deliver_keepsLink (payload : Bytes) (g : Gist V) :
    (g.deliver reply e payload).1.keepsLink = true :=
  (run_deliverKeys_over e 0 0 payload e.token e.destination.keys [] []).2

end Gist

/-! ## Counting -/

namespace Delivery

/-- A tally with payloads added, of which so much was reported. -/
def Engine.Tally.plus (tally : Engine.Tally) (outcomes : List SendOutcome) : Engine.Tally :=
  { tally with
    delivered := tally.delivered + outcomes.countP SendOutcome.isDelivered
    failed := tally.failed + outcomes.countP fun o => !o.isDelivered }

namespace Engine.Tally

variable (tally : Engine.Tally) (outcomes : List SendOutcome)

theorem plus_delivered : { tally with delivered := tally.delivered + 1 }.plus outcomes =
    tally.plus (.delivered :: outcomes) := by
  simp only [plus, List.countP_cons, SendOutcome.isDelivered, Bool.not_true, Bool.false_eq_true,
    if_true, if_false]
  congr 1
  omega

theorem plus_failed (failure : Delivery.SendFailure) :
    { tally with failed := tally.failed + 1 }.plus outcomes =
      tally.plus (.failed failure :: outcomes) := by
  simp only [plus, List.countP_cons, SendOutcome.isDelivered, Bool.not_false, Bool.false_eq_true,
    if_true, if_false]
  congr 1
  omega

end Engine.Tally

/-- The report of a batch with no payload abandoned, if this was reported of each. -/
def BulkReport.ofOutcomes (batch : String) (outcomes : List SendOutcome) : BulkReport where
  batch
  delivered := outcomes.countP SendOutcome.isDelivered
  failed := outcomes.countP fun o => !o.isDelivered
  abandoned := 0

end Delivery

namespace World

variable {σ V : Type} {T : Transport σ} {tame : σ → Prop} {memory : σ → V}
  {reply : V → String → Bytes → Except String Unit × V} {e : Engine} {g g₁ g₂ : Gist V}
  {w w₀ w₁ : World σ} {depth : Nat} {α β : Type} {d : Dialogue α}

/-! ## Talks and what they leave -/

/-- From a world a talk comes to a result, and leaves a gist. -/
structure Comes (T : Transport σ) (tame : σ → Prop) (memory : σ → V) (e : Engine) (depth : Nat)
    (d : Dialogue α) (w : World σ) (x : α) (g : Gist V) : Prop where
  result : (d.run (answer T e depth) w).1 = x
  shows : Shows tame memory g (d.run (answer T e depth) w).2

namespace Comes

theorem done (hw : Shows tame memory g w) (x : α) : Comes T tame memory e depth (.done x) w x g :=
  ⟨rfl, hw⟩

/-- A talk in two parts comes to what its second part comes to. -/
theorem seq {f : α → Dialogue β} {y : β}
    (hf : Comes T tame memory e depth (f (d.run (answer T e depth) w).1)
      (d.run (answer T e depth) w).2 y g) : Comes T tame memory e depth (d.bind f) w y g := by
  constructor
  · rw [Dialogue.run_bind]
    exact hf.result
  · rw [Dialogue.run_bind]
    exact hf.shows

/-- One talk after the other. -/
theorem bind {f : α → Dialogue β} {x : α} {y : β} (h : Comes T tame memory e depth d w x g₁)
    (hf : ∀ w₁, Shows tame memory g₁ w₁ → Comes T tame memory e depth (f x) w₁ y g₂) :
    Comes T tame memory e depth (d.bind f) w y g₂ := by
  have after := hf _ h.shows
  rw [← h.result] at after
  exact .seq after

/-- A talk that leaves the world alone, and then another one. -/
theorem after {f : α → Dialogue β} {x : α} {y : β} (hd : d.run (answer T e depth) w = (x, w))
    (hf : Comes T tame memory e depth (f x) w y g) :
    Comes T tame memory e depth (d.bind f) w y g := by
  refine .seq ?_
  rw [hd]
  exact hf

/-- A request that leaves the world alone. -/
theorem ask {r : Request} {next : r.Answer → Dialogue α} {x : r.Answer} {y : α}
    (hr : w.answer T e depth r = (x, w)) (h : Comes T tame memory e depth (next x) w y g) :
    Comes T tame memory e depth (.ask r next) w y g := by
  constructor
  · rw [Dialogue.run, hr]
    exact h.result
  · rw [Dialogue.run, hr]
    exact h.shows

end Comes

/-- A call whose talk comes to a reply. -/
theorem Comes.call {c : Call} {x : Reply} (hc : c.isHeard = true)
    (h : Comes T tame memory e depth (c.dialogue e) w x g) :
    (w.call T e depth c).1 = x ∧ Shows tame memory g (w.call T e depth c).2 := by
  unfold World.call overheard
  rw [if_pos hc]
  exact ⟨h.result, h.shows⟩

/-- Makes calls on an engine, one after the other. -/
def calls (T : Transport σ) (e : Engine) (depth : Nat) :
    List Call → World σ → List Reply × World σ
  | [], w => ([], w)
  | c :: rest, w =>
    ((w.call T e depth c).1 :: (calls T e depth rest (w.call T e depth c).2).1,
      (calls T e depth rest (w.call T e depth c).2).2)

/-! ## States in which sends go through -/

/-- The engine is started, its store shows a gist, links are opened in time, and nobody has one. -/
structure Ready (T : Transport σ) (tame : σ → Prop) (memory : σ → V) (e : Engine) (g : Gist V)
    (w : World σ) : Prop where
  shows : Shows tame memory g w
  phases : w.phases = ⟨.started, .running⟩
  in_time : InTime T e.pool w
  checks : Checks e.pool w
  keeps : Keeps e.pool (fun _ => .away) w

theorem Ready.lent (h : Ready T tame memory e g w) : w.pool.lent = [] := by
  refine List.eq_nil_iff_forall_not_mem.mpr fun l hl => ?_
  exact h.keeps.2.lent.mem_iff.mp hl rfl

theorem run_ensureStarted_started (hw : w.phase = .started) :
    e.ensureStarted.run (answer T e depth) w = (.ok (), w) := by
  unfold Engine.ensureStarted Dialogue.run
  rw [answer_phase, hw]
  rfl

theorem Ready.ensureStarted (h : Ready T tame memory e g w) :
    e.ensureStarted.run (answer T e depth) w = (.ok (), w) :=
  run_ensureStarted_started (congrArg Phases.engine h.phases)

section Sends

variable (hT : T.Obliging tame memory reply)
include hT

/-- Taking care of links leaves the gist alone. -/
theorem comes_care {d : Dialogue Unit} (hd : d.Cares) (hw : Shows tame memory g w) :
    Comes T tame memory e depth d w () g where
  result := rfl
  shows := by
    refine hd.run
      (fun r v hr hv => shows_answer hT e depth (Request.isSending_of_isCare hr) ?_ hv) hw
    rintro link key payload rfl
    exact Bool.false_ne_true hr

/-! ## Payloads over a link -/

/-- **One payload**, over any link. -/
theorem comes_deliver (hw : Shows tame memory g w) (link : LinkId) (payload : Bytes) :
    Comes T tame memory e depth (e.deliver link payload e.token) w (g.deliver reply e payload).1
      (g.deliver reply e payload).2 := by
  have same : g.deliver reply e payload =
      (e.deliver link payload e.token).run (Gist.answer reply) g :=
    (Gist.run_deliverKeys_over e link 0 payload e.token e.destination.keys [] []).1
  obtain ⟨houtcome, hshows⟩ := run_tries hT e depth (e.deliver_tries link payload e.token) hw
  rw [same]
  exact ⟨houtcome, hshows⟩

/-- **The payloads of a batch**, over its link. The induction is on the payloads that are left. -/
theorem comes_deliverAll (hw : Shows tame memory g w) (link : LinkId) (payloads : List Bytes)
    (tally : Engine.Tally) :
    Comes T tame memory e depth (e.deliverAll link payloads tally) w
      (tally.plus (g.deliverEach reply e payloads).1) (g.deliverEach reply e payloads).2 := by
  induction payloads generalizing tally g w with
  | nil => exact .done hw tally
  | cons payload rest ih =>
    have kept := Gist.deliver_keepsLink reply e payload g
    refine (comes_deliver hT hw link payload).bind fun w₁ hw₁ => ?_
    unfold Gist.deliverEach
    cases ho : (g.deliver reply e payload).1 with
    | delivered =>
      show Comes _ _ _ _ _ _ _ (tally.plus (.delivered :: _)) _
      rw [← Engine.Tally.plus_delivered]
      exact ih hw₁ _
    | undelivered exhausted cancelled =>
      show Comes _ _ _ _ _ _ _ (tally.plus (.failed _ :: _)) _
      rw [← Engine.Tally.plus_failed]
      exact ih hw₁ _
    | lost key reason =>
      rw [ho] at kept
      exact absurd kept Bool.false_ne_true

/-! ## Before and after a call -/

/-- A talk that only sends keeps what each of its requests keeps. -/
theorem keeps_sends {I : World σ → Prop} (hd : d.Sends) (hw : Shows tame memory g w)
    (hI : ∀ (g : Gist V) (v : World σ) (r : Request), r.isSending = true →
      Shows tame memory g v → I v → I (v.answer T e depth r).2) (h : I w) :
    I (d.run (answer T e depth) w).2 := by
  refine (hd.run (I := fun v : World σ => (∃ g, Shows tame memory g v) ∧ I v)
    (fun r v hr hv => ?_) ⟨⟨g, hw⟩, h⟩).2
  obtain ⟨⟨g, hv⟩, hkept⟩ := hv
  refine ⟨?_, hI g v r hr hv hkept⟩
  by_cases hpush : ∃ link key payload, r = .push link key payload
  · obtain ⟨link, key, payload, rfl⟩ := hpush
    exact ⟨_, (shows_push hT e depth link key payload hv).2⟩
  · exact ⟨g, shows_answer hT e depth hr (fun l k p h => hpush ⟨l, k, p, h⟩) hv⟩

/-- Sending leaves the phases as they are. -/
theorem phases_sends (depth : Nat) (hd : d.Sends) (hw : Shows tame memory g w) :
    (d.run (answer T e depth) w).2.phases = w.phases := by
  refine keeps_sends hT (I := fun v => v.phases = w.phases) hd hw (fun g v r hr hv hkept => ?_) rfl
  have steady := phases_answerPatiently T e.pool (Request.isSteady_of_isSending hr) v
  rw [answer_of_shows hT e depth hv, steady, hkept]

/-- Links are still opened in time once a talk has sent. -/
theorem inTime_sends (depth : Nat) (hd : d.Sends) (hw : Shows tame memory g w)
    (ht : InTime T e.pool w) : InTime T e.pool (d.run (answer T e depth) w).2 :=
  keeps_sends hT hd hw (fun _ _ _ hr hv hkept => inTime_answer hT hr hv hkept) ht

/-- After a talk that only sends and gives back what it borrows the next one can be held. -/
theorem Ready.talk (h : Ready T tame memory e g w) (hsends : d.Sends)
    (hsettles : d.Settles fun _ => .away)
    (hshows : Shows tame memory g₁ (d.run (answer T e depth) w).2) :
    Ready T tame memory e g₁ (d.run (answer T e depth) w).2 where
  shows := hshows
  phases := (phases_sends hT depth hsends h.shows).trans h.phases
  in_time := inTime_sends hT depth hsends h.shows h.in_time
  checks := (Dialogue.Only.all d).run (fun r _ _ hv => checks_answer depth r hv) h.checks
  keeps := keeps_run hsettles (custody_answer e depth) h.keeps

/-- After a call that only sends the next one can be made. -/
theorem Ready.call (h : Ready T tame memory e g w) {c : Call} (hc : (c.dialogue e).Sends)
    (hshows : Shows tame memory g₁ (w.call T e depth c).2) :
    Ready T tame memory e g₁ (w.call T e depth c).2 where
  shows := hshows
  phases := by
    have still := phases_sends (e := e) hT depth hc h.shows
    exact overheard_keeps (I := fun v => v.phases = ⟨.started, .running⟩) (fun _ _ _ hv => hv)
      (still.trans h.phases)
  in_time := overheard_keeps (fun _ _ _ hv => hv.congr rfl rfl)
    (inTime_sends hT depth hc h.shows h.in_time)
  checks := (Since.call (T := T) .now depth c).checks h.checks
  keeps := keeps_call h.keeps (fun _ => Standing.noConfusion) depth c

/-- A send gets a link. -/
theorem Ready.acquire (h : Ready T tame memory e g w) :
    ∃ link, Comes T tame memory e depth Delivery.acquire w (.ok link) g := by
  have hphase : w.pool.phase = .running := congrArg Phases.pool h.phases
  have asked : w.answer T e depth .poolPhase = (.running, w) := by
    rw [answer_poolPhase, hphase]
  have waited : w.answer T e depth .borrow = w.borrow T e.pool :=
    answer_eq_patiently T e depth (fun _ _ _ => Request.noConfusion) w
  obtain ⟨link, w₁, hgot⟩ := borrow_ok hT h.shows h.in_time h.checks h.lent h.keeps.1
  have shown := shows_borrow (s := e.pool) hT h.shows
  refine ⟨link, .ask asked ?_⟩
  unfold Delivery.borrow
  constructor
  · rw [Dialogue.run, waited, hgot]
    rfl
  · rw [Dialogue.run, waited]
    rw [hgot] at shown ⊢
    exact shown

/-! ## Single sends -/

/-- A send over a link that it borrows. -/
theorem Ready.sendOverLink (h : Ready T tame memory e g w) (payload : Bytes) :
    Comes T tame memory e depth (e.sendOverLink payload e.token) w
      (e.reported (g.deliver reply e payload).1) (g.deliver reply e payload).2 := by
  have kept := Gist.deliver_keepsLink reply e payload g
  obtain ⟨link, got⟩ := h.acquire hT
  refine got.bind fun w₁ hw₁ => (comes_deliver hT hw₁ link payload).bind fun w₂ hw₂ =>
    (comes_care hT (e.pool.release_cares link _) hw₂).bind fun w₃ hw₃ => ?_
  cases ho : (g.deliver reply e payload).1 with
  | delivered => exact .done hw₃ _
  | undelivered exhausted cancelled => exact .done hw₃ _
  | lost key reason =>
    rw [ho] at kept
    exact absurd kept Bool.false_ne_true

/-- A send comes to what is reported of its payload. -/
theorem Ready.comes_send (h : Ready T tame memory e g w) (payload : Bytes) :
    Comes T tame memory e depth (e.send payload) w
      (.ok (e.reported (g.deliver reply e payload).1)) (g.deliver reply e payload).2 :=
  .after h.ensureStarted ((h.sendOverLink hT payload).bind fun _ hw₁ => .done hw₁ _)

/-- **A single send.** -/
theorem Ready.send (h : Ready T tame memory e g w) (depth : Nat) (payload : Bytes) :
    (w.call T e depth (.send payload)).1 = .outcome (e.reported (g.deliver reply e payload).1) ∧
      Ready T tame memory e (g.deliver reply e payload).2
        (w.call T e depth (.send payload)).2 := by
  have talk : Comes T tame memory e depth ((Call.send payload).dialogue e) w
      (.outcome (e.reported (g.deliver reply e payload).1)) (g.deliver reply e payload).2 :=
    (h.comes_send hT payload).bind fun w₁ hw₁ => .done hw₁ _
  have sends : ((Call.send payload).dialogue e).Sends :=
    .bind (e.sendWith_sends payload e.token) fun x => by cases x <;> exact .done
  obtain ⟨hreply, hshows⟩ := talk.call rfl
  exact ⟨hreply, h.call hT sends hshows⟩

/-- **Single sends, one after the other.** The induction is on the payloads. -/
theorem Ready.sends (h : Ready T tame memory e g w) (depth : Nat) (payloads : List Bytes) :
    (w.calls T e depth (payloads.map .send)).1 =
        (g.deliverEach reply e payloads).1.map .outcome ∧
      Ready T tame memory e (g.deliverEach reply e payloads).2
        (w.calls T e depth (payloads.map .send)).2 := by
  induction payloads generalizing g w with
  | nil => exact ⟨rfl, h⟩
  | cons payload rest ih =>
    obtain ⟨hreply, hready⟩ := h.send hT depth payload
    obtain ⟨hreplies, hafter⟩ := ih hready
    refine ⟨?_, hafter⟩
    show (w.call T e depth (.send payload)).1 :: _ = _ :: _
    rw [hreply, hreplies]

/-! ## A batch -/

/-- A batch over a link that it borrows. -/
theorem Ready.bulkOverLink (h : Ready T tame memory e g w) (payloads : List Bytes)
    (batch : String) :
    Comes T tame memory e depth (e.bulkOverLink payloads batch) w
      (.ofOutcomes batch (g.deliverEach reply e payloads).1)
      (g.deliverEach reply e payloads).2 := by
  obtain ⟨link, got⟩ := h.acquire hT
  refine got.bind fun w₁ hw₁ => (comes_care hT (.log rfl) hw₁).bind fun w₂ hw₂ =>
    (comes_deliverAll hT hw₂ link payloads {}).bind fun w₃ hw₃ =>
      (comes_care hT (e.pool.release_cares link _) hw₃).bind fun w₄ hw₄ =>
        (comes_care hT (e.logBatch_cares _) hw₄).bind fun w₅ hw₅ => ?_
  have counted : BulkReport.ofOutcomes batch (g.deliverEach reply e payloads).1 =
      ⟨batch, 0 + (g.deliverEach reply e payloads).1.countP SendOutcome.isDelivered,
        0 + (g.deliverEach reply e payloads).1.countP fun o => !o.isDelivered, 0⟩ := by
    rw [Nat.zero_add, Nat.zero_add]
    rfl
  rw [counted]
  exact .done hw₅ _

/-- A bulk send comes to the report of what becomes of its payloads. -/
theorem Ready.comes_sendBulk (h : Ready T tame memory e g w) (payloads : List Bytes) :
    Comes T tame memory e depth (e.sendBulk payloads) w
      (.ok (.ofOutcomes w.batchName (g.deliverEach reply e payloads).1))
      (g.deliverEach reply e payloads).2 := by
  have asked : w.answer T e depth .batchName = (w.batchName, w) :=
    answer_eq_patiently T e depth (fun _ _ _ => Request.noConfusion) w
  exact .after h.ensureStarted (.ask asked
    ((h.bulkOverLink hT payloads w.batchName).bind fun w₁ hw₁ => .done hw₁ _))

/-- **A batch.** -/
theorem Ready.bulk (h : Ready T tame memory e g w) (depth : Nat) (payloads : List Bytes) :
    (w.call T e depth (.bulk payloads)).1 =
        .report (.ofOutcomes w.batchName (g.deliverEach reply e payloads).1) ∧
      Shows tame memory (g.deliverEach reply e payloads).2
        (w.call T e depth (.bulk payloads)).2 := by
  have talk : Comes T tame memory e depth ((Call.bulk payloads).dialogue e) w
      (.report (.ofOutcomes w.batchName (g.deliverEach reply e payloads).1))
      (g.deliverEach reply e payloads).2 :=
    (h.comes_sendBulk hT payloads).bind fun w₁ hw₁ => .done hw₁ _
  exact talk.call rfl

end Sends

/-! ## Agreement -/

/-- Nothing has happened yet. -/
structure IsFresh (w : World σ) : Prop where
  pool : w.pool = {}
  acts : w.acts = []
  errands : w.errands = []
  phase : w.phase = .created

/-- Engine and pool are in the same part of their lives, and nobody has a link. -/
structure Rests (e : Engine) (w : World σ) : Prop where
  in_step : w.phases.InStep
  checks : Checks e.pool w
  keeps : Keeps e.pool (fun _ => .away) w

theorem IsFresh.rests (h : w.IsFresh) : Rests e w where
  in_step := by
    refine Phases.inStep_iff.mpr ?_
    show w.pool.phase = w.phase.ofPool
    rw [h.pool, h.phase]
    rfl
  checks hne := by
    rw [h.pool] at hne
    exact absurd rfl hne
  keeps := by
    refine ⟨h.errands, ?_⟩
    rw [h.pool, h.acts]
    exact .empty e.pool.config

/-- A started engine that rests takes sends, if links are opened in time. -/
theorem Rests.ready (h : Rests e w) (hstarted : w.phase = .started) (ht : InTime T e.pool w)
    (hw : Shows tame memory g w) : Ready T tame memory e g w where
  shows := hw
  phases := by
    have step : w.pool.phase = w.phase.ofPool := Phases.inStep_iff.mp h.in_step
    rw [hstarted] at step
    exact Phases.ext hstarted step
  in_time := ht
  checks := h.checks
  keeps := h.keeps

/-- An engine of which nobody has a link rests. -/
theorem Since.rests (h₀ : w₀.IsFresh) (h : Since T e w₀ w) (hlent : w.pool.lent = []) :
    Rests e w where
  in_step := (h.forward (h₀.rests (e := e)).in_step).1
  checks := h.checks h₀.rests.checks
  keeps := by
    obtain ⟨ledger, -, hkeeps⟩ := (h.moment (.fresh h₀.pool h₀.acts h₀.errands)).kept
    have away : ledger = fun _ => .away := by
      funext l
      refine hkeeps.2.lent.away_of_not_mem ?_
      rw [hlent]
      exact List.not_mem_nil
    rwa [away] at hkeeps

/-- What a batch does and what single sends do agree. -/
structure Agree (memory : σ → V) (bulk : Reply × World σ) (each : List Reply × World σ) : Prop where
  /-- The same pushes were made, in the same order. -/
  attempts : attempts bulk.2.acts = attempts each.2.acts
  /-- The store remembers the same, its lists among it. -/
  memory : memory bulk.2.remote = memory each.2.remote
  /-- The report of the batch counts what the single sends came to. -/
  report : ∃ (report : BulkReport) (outcomes : List SendOutcome),
    bulk.1 = .report report ∧ each.1 = outcomes.map .outcome ∧
      report.delivered = outcomes.countP SendOutcome.isDelivered ∧
      report.failed = outcomes.countP (fun o => !o.isDelivered) ∧ report.abandoned = 0

/-- A store that takes no push to the second key before the fifth one. -/
def wavering : ScriptedStore where
  plans := [("b", { next := List.replicate 4 (.reject "OOM") })]

theorem wavering_tame : wavering.IsTame where
  broken := rfl
  refusing := rfl
  connectFailures := rfl
  pingFailures := rfl
  resetFailures := rfl
  hooks := rfl
  kind key plan h := by
    unfold wavering at h
    rw [ScriptedStore.lookup_cons_if] at h
    split at h
    · obtain rfl := Option.some.inj h
      unfold Scripted.Plan.IsKind
      decide
    · cases h

/-- The world after the engine was started. -/
def unshaken : World ScriptedStore :=
  (World.call ScriptedStore.transport Engine.twoKeys 0 .startup { remote := wavering }).2

/-- No link is being opened, and opening one takes a tenth of a millisecond. -/
theorem unshaken_inTime : unshaken.InTime ScriptedStore.transport Engine.twoKeys.pool where
  under_way _ ho := absurd ho List.not_mem_nil
  to_come _ := show 100 ≤ Engine.twoKeys.pool.config.waitMs * 1000 by decide

/-- Where a link takes longer to be opened than a borrower waits, all of a batch is abandoned, and of
single sends the next one gets the link. -/
example :
    let T : Transport ScriptedStore :=
      { ScriptedStore.transport with connectTime := fun _ => 2500000 }
    (unshaken.call T Engine.twoKeys 0 (.bulk [[104], [105]])).1 = .report ⟨"", 0, 0, 2⟩ ∧
      (unshaken.calls T Engine.twoKeys 0 ([[104], [105]].map .send)).2.remote.lists =
        [("a", [[105]])] := by
  decide +kernel

end World

end LogShipper
