import LogShipper.Proofs.Delivery.Appending
import LogShipper.Proofs.World.Agreement

/-!
# What appending records ships

An appender ships all records but those that come from shipping itself. A batch is one bulk send of
their payloads, and comes to nothing if the engine is not started. With a store that obliges, and
with nobody else about, it makes no difference whether records are appended as a batch or one by
one: the same pushes are made in the same order, and the store comes to remember the same.

Both ways are followed on the gist of the world, as a batch and single sends are.

Covers `append_batch` beside `append`, under what `World/Agreement.lean` asks for.

Results:
* `run_appendBatch_eq_none_iff`: when a batch comes to nothing.
* `Served.rests`: between the calls on an appender and its engine nobody has a link.
* `Ready.appendBatch`, `Ready.appends`: a batch, and records one by one.
* `Appender.ships_all_but_own`: what appending ships, and that the two ways agree.
-/

namespace LogShipper

open Delivery (Request Dialogue Engine BulkReport SendOutcome Standing Exchange entries)
open Delivery.Dialogue (Trace)

namespace World

variable {σ V : Type} {T : Transport σ} {tame : σ → Prop} {memory : σ → V}
  {reply : V → String → Bytes → Except String Unit × V} {e : Engine} {a : Appender} {g : Gist V}
  {w : World σ} {depth : Nat} {α : Type} {d : Dialogue α} {rs : List Record}

/-! ## When a batch comes to nothing -/

/-- Taking care of links leaves the phases alone. -/
theorem phases_cares (T : Transport σ) (e : Engine) (depth : Nat) (hd : d.Cares) (w : World σ) :
    (d.run (answer T e depth) w).2.phases = w.phases := by
  refine hd.run (I := fun v : World σ => v.phases = w.phases) (fun r v hr hv => ?_) rfl
  have patient : v.answer T e depth r = v.answerPatiently T e.pool r := by
    refine answer_eq_patiently T e depth ?_ v
    rintro link key payload rfl
    exact Bool.false_ne_true hr
  rw [patient]
  exact (phases_answerPatiently T e.pool
    (Request.isSteady_of_isSending (Request.isSending_of_isCare hr)) v).trans hv

theorem run_swallow (result : Except LifecycleError α) (w : World σ) :
    ((a.swallow result).run (answer T e depth) w).1 = result.toOption := by
  cases result <;> rfl

/-- A started engine takes a bulk send, whatever comes of it. -/
theorem run_sendBulk_started (T : Transport σ) (e : Engine) (depth : Nat)
    (hw : w.phase = .started) (payloads : List Bytes) :
    ∃ report, ((e.sendBulk payloads).run (answer T e depth) w).1 = .ok report := by
  have sent : (e.sendBulk payloads).run (answer T e depth) w =
      Dialogue.run (answer T e depth) (.ask .batchName fun batch =>
        (e.bulkOverLink payloads batch).bind fun report => .done (.ok report)) w := by
    show Dialogue.run _ (Dialogue.bind e.ensureStarted _) w = _
    rw [Dialogue.run_bind, run_ensureStarted_started hw]
    rfl
  rw [sent, Dialogue.run, Dialogue.run_bind]
  exact ⟨_, rfl⟩

/-- **A batch comes to nothing** if the engine is not started, and only then. -/
theorem run_appendBatch_eq_none_iff (w : World σ) :
    ((a.appendBatch rs).run (answer T a.engine depth) w).1 = none ↔ w.phase ≠ .started := by
  -- the warnings come first, and leave the phases alone
  have still := phases_cares T a.engine depth (a.logAllRefused_cares rs) w
  have comes : ((a.appendBatch rs).run (answer T a.engine depth) w).1 =
      ((a.engine.sendBulk (a.payloads rs)).run (answer T a.engine depth)
        ((a.logAllRefused rs).run (answer T a.engine depth) w).2).1.toOption := by
    show (Dialogue.run _ (Dialogue.bind (a.logAllRefused rs) fun _ =>
      Dialogue.bind (a.engine.sendBulk (a.payloads rs)) a.swallow) w).1 = _
    rw [Dialogue.run_bind, Dialogue.run_bind, run_swallow]
  have phase : ((a.logAllRefused rs).run (answer T a.engine depth) w).2.phase = w.phase :=
    congrArg Phases.engine still
  rw [comes]
  cases hrefusal : refusal? w.phase with
  | some err =>
    rw [run_sendBulk_refused T a.engine depth ((congrArg refusal? phase).trans hrefusal)]
    refine iff_of_true rfl fun hstarted => ?_
    rw [hstarted] at hrefusal
    cases hrefusal
  | none =>
    have hstarted : w.phase = .started := by
      cases hp : w.phase with
      | started => rfl
      | _ => rw [hp] at hrefusal; cases hrefusal
    obtain ⟨report, hreport⟩ :=
      run_sendBulk_started T a.engine depth (phase.trans hstarted) (a.payloads rs)
    rw [hreport]
    exact iff_of_false (Option.some_ne_none report) fun h => h hstarted

/-! ## Between calls -/

/-- A talk that gives back what it borrows, and moves engine and pool forward in step. -/
theorem Rests.talk (h : Rests e w) (hsettles : d.Settles fun _ => .away)
    (hforward : Phases.Forward w.phases (d.run (answer T e depth) w).2.phases) :
    Rests e (d.run (answer T e depth) w).2 where
  in_step := (hforward h.in_step).1
  checks := (Dialogue.Only.all d).run (fun r _ _ hv => checks_answer depth r hv) h.checks
  keeps := keeps_run hsettles (custody_answer e depth) h.keeps

/-- **Every call on an appender** moves its engine and the pool forward in step. -/
theorem forward_appenderCall (T : Transport σ) (a : Appender) (depth : Nat) (c : Appender.Call)
    (w : World σ) :
    Phases.Forward w.phases ((c.dialogue a).run (answer T a.engine depth) w).2.phases := by
  have sends {d : Dialogue Appender.Reply} (hd : d.Sends) :
      Phases.Forward w.phases (d.run (answer T a.engine depth) w).2.phases :=
    hd.steadies.run (I := fun v : World σ => Phases.Forward w.phases v.phases)
      (fun r v hr hv => hv.trans (forward_answer T a.engine depth r v hr)) (.refl w.phases)
  cases c with
  | start =>
    have hrun : ((Appender.Call.start.dialogue a).run (answer T a.engine depth) w).2 =
        (a.engine.startup.run (answer T a.engine depth) w).2 :=
      Dialogue.run_reply (fun x => by cases x <;> exact ⟨_, rfl⟩) _ w
    rw [hrun]
    exact forward_startup T a.engine depth w
  | stop ms =>
    have hrun : (((Appender.Call.stop ms).dialogue a).run (answer T a.engine depth) w).2 =
        ((a.engine.shutdown ms).run (answer T a.engine depth) w).2 :=
      Dialogue.run_reply (fun _ => ⟨_, rfl⟩) _ w
    rw [hrun]
    exact forward_shutdown T a.engine depth ms w
  | append r => exact sends (.bind (a.append_sends r) fun _ => .done)
  | batch rs => exact sends (.bind (a.appendBatch_sends rs) fun _ => .done)

/-- A world in which calls on an appender and on its engine have come back, and nothing else was
done with the engine. -/
inductive Served (T : Transport σ) (a : Appender) : World σ → Prop where
  | fresh {w : World σ} (hw : w.IsFresh) : Served T a w
  /-- The store has changed by itself. -/
  | store {w : World σ} (hw : Served T a w) (remote : σ) : Served T a { w with remote }
  | pass {w : World σ} (hw : Served T a w) (limit : Nat) : Served T a (w.pass T a.engine.pool limit)
  /-- A call on the engine has come back. -/
  | engine {w : World σ} (hw : Served T a w) (depth : Nat) (c : Delivery.Call) :
      Served T a (w.call T a.engine depth c).2
  /-- A call on the appender has come back. -/
  | appender {w : World σ} (hw : Served T a w) (depth : Nat) (c : Appender.Call) :
      Served T a ((c.dialogue a).run (answer T a.engine depth) w).2

theorem away_clean : Delivery.Ledger.Clean fun _ => .away := fun _ => Standing.noConfusion

/-- **Between calls** the engine is in step with its pool, and nobody has a link. -/
theorem Served.rests (h : Served T a w) : Rests a.engine w := by
  induction h with
  | fresh hw => exact hw.rests
  | store _ remote ih => exact ⟨ih.in_step, ih.checks, ih.keeps⟩
  | @pass v _ limit ih =>
    have still : (v.pass T a.engine.pool limit).phases = v.phases :=
      (steady_phases T a.engine.pool _).pass rfl
    exact ⟨still ▸ ih.in_step, steady_checks.pass ih.checks, (steady_keeps _).pass ih.keeps⟩
  | @engine v _ depth c ih =>
    exact ⟨(forward_call T a.engine depth c v ih.in_step).1,
      (Since.call (T := T) .now depth c).checks ih.checks, keeps_call ih.keeps away_clean depth c⟩
  | @appender v _ depth c ih =>
    exact ih.talk (c.settles a away_clean) (forward_appenderCall T a depth c v)

/-! ## Records one by one -/

/-- Appends records one after the other. -/
def appends (T : Transport σ) (a : Appender) (depth : Nat) :
    List Record → World σ → List (Option SendOutcome) × World σ
  | [], w => ([], w)
  | r :: rest, w =>
    let (outcome, w) := (a.append r).run (answer T a.engine depth) w
    let (outcomes, w) := appends T a depth rest w
    (outcome :: outcomes, w)

section Obliging

variable (hT : T.Obliging tame memory reply)
include hT

/-- A record that comes from shipping itself is not sent. -/
theorem Ready.append_own (h : Ready T tame memory a.engine g w) {r : Record} (hr : r.IsOwn)
    (depth : Nat) :
    ((a.append r).run (answer T a.engine depth) w).1 = none ∧
      Ready T tame memory a.engine g ((a.append r).run (answer T a.engine depth) w).2 := by
  have comes : Comes T tame memory a.engine depth (a.append r) w none g := by
    rw [Appender.append, Appender.refuses_eq, decide_eq_true hr, if_pos rfl]
    exact (comes_care hT (.log rfl) h.shows).bind fun _ hw₁ => .done hw₁ none
  exact ⟨comes.result,
    h.talk hT (a.append_sends r) (a.append_settles away_clean r) comes.shows⟩

/-- Any other record is sent, and what is reported of it comes back. -/
theorem Ready.append_other (h : Ready T tame memory a.engine g w) {r : Record} (hr : ¬r.IsOwn)
    (depth : Nat) :
    ((a.append r).run (answer T a.engine depth) w).1 =
        some (a.engine.reported (g.deliver reply a.engine (a.layout.payload r)).1) ∧
      Ready T tame memory a.engine (g.deliver reply a.engine (a.layout.payload r)).2
        ((a.append r).run (answer T a.engine depth) w).2 := by
  have comes : Comes T tame memory a.engine depth (a.append r) w
      (some (a.engine.reported (g.deliver reply a.engine (a.layout.payload r)).1))
      (g.deliver reply a.engine (a.layout.payload r)).2 := by
    rw [Appender.append, Appender.refuses_eq, decide_eq_false hr, if_neg Bool.false_ne_true]
    exact (h.comes_send hT (a.layout.payload r)).bind fun _ hw₁ => .done hw₁ _
  exact ⟨comes.result,
    h.talk hT (a.append_sends r) (a.append_settles away_clean r) comes.shows⟩

/-- **Records one by one**: nothing comes back for those that come from shipping itself, and the
others come to what their payloads come to. The induction is on the records. -/
theorem Ready.appends (h : Ready T tame memory a.engine g w) (depth : Nat) (rs : List Record) :
    (w.appends T a depth rs).1.map Option.isNone = rs.map (fun r => decide r.IsOwn) ∧
      (w.appends T a depth rs).1.filterMap id =
        (g.deliverEach reply a.engine (a.frames rs)).1 ∧
      Ready T tame memory a.engine (g.deliverEach reply a.engine (a.frames rs)).2
        (w.appends T a depth rs).2 := by
  induction rs generalizing g w with
  | nil => exact ⟨rfl, rfl, h⟩
  | cons r rest ih =>
    by_cases hr : r.IsOwn
    · obtain ⟨hnone, hready⟩ := h.append_own hT hr depth
      obtain ⟨hrefused, houtcomes, hafter⟩ := ih hready
      rw [a.frames_cons_own hr]
      refine ⟨?_, ?_, hafter⟩
      · show Option.isNone _ :: _ = _
        rw [hnone, hrefused, List.map_cons, decide_eq_true hr]
        rfl
      · show List.filterMap id (_ :: _) = _
        rw [hnone]
        exact houtcomes
    · obtain ⟨hsome, hready⟩ := h.append_other hT hr depth
      obtain ⟨hrefused, houtcomes, hafter⟩ := ih hready
      rw [a.frames_cons_other hr]
      refine ⟨?_, ?_, hafter⟩
      · show Option.isNone _ :: _ = _
        rw [hsome, hrefused, List.map_cons, decide_eq_false hr]
        rfl
      · show List.filterMap id (_ :: _) = _
        rw [hsome]
        exact congrArg _ houtcomes

/-! ## Batches -/

/-- **A batch** comes to the report of its payloads. -/
theorem Ready.appendBatch (h : Ready T tame memory a.engine g w) (depth : Nat) (rs : List Record) :
    ∃ batch, Comes T tame memory a.engine depth (a.appendBatch rs) w
      (some (.ofOutcomes batch (g.deliverEach reply a.engine (a.frames rs)).1))
      (g.deliverEach reply a.engine (a.frames rs)).2 := by
  have logged : Comes T tame memory a.engine depth (a.logAllRefused rs) w () g :=
    comes_care hT (a.logAllRefused_cares rs) h.shows
  have ready := h.talk hT ((a.logAllRefused_cares rs).mono fun _ => Request.isSending_of_isCare)
    (a.logAllRefused_settles rs) logged.shows
  rw [← a.payloads_eq_frames]
  exact ⟨((a.logAllRefused rs).run (answer T a.engine depth) w).2.batchName,
    .seq ((ready.comes_sendBulk hT (a.payloads rs)).bind fun _ hw₁ => .done hw₁ _)⟩

end Obliging

/-! ## What appending ships -/

/-- What records appended as a batch do and what they do one by one agree. -/
structure AppendsAgree (memory : σ → V) (rs : List Record) (batch : Option BulkReport × World σ)
    (each : List (Option SendOutcome) × World σ) : Prop where
  /-- The same pushes were made, in the same order. -/
  attempts : attempts batch.2.acts = attempts each.2.acts
  /-- The store remembers the same, its lists among it. -/
  memory : memory batch.2.remote = memory each.2.remote
  /-- One by one, nothing comes back for the records that come from shipping itself, and something
  for all others. -/
  refused : each.1.map Option.isNone = rs.map fun r => decide r.IsOwn
  /-- The report of the batch counts what comes back one by one. -/
  report : ∃ report : BulkReport, batch.1 = some report ∧
    report.delivered = (each.1.filterMap id).countP SendOutcome.isDelivered ∧
      report.failed = (each.1.filterMap id).countP (fun o => !o.isDelivered) ∧
        report.abandoned = 0

end World

/-- What records appended as a batch come to, whatever is answered. -/
structure Appender.Ships (a : Appender) (rs : List Record) : Prop where
  /-- The payloads of all records but those that come from shipping itself are sent in bulk, in
  order, once the latter are logged. -/
  handed : ∀ t x, Trace (a.appendBatch rs) t x ↔ ∃ sent ended result,
    t = (a.refusals rs).map Exchange.logged ++ (sent ++ ended) ∧
      Trace (a.engine.sendBulk (a.frames rs)) sent result ∧ Trace (a.swallow result) ended x
  /-- Each record that comes from shipping itself is warned of once. -/
  warned : ∀ t x, Trace (a.appendBatch rs) t x →
    (entries t).filter LogEntry.isRecursion = a.refusals rs
  /-- Nothing comes back if the engine is not started, and only then. -/
  none_iff : ∀ {σ : Type} (T : Transport σ) (depth : Nat) (w : World σ),
    ((a.appendBatch rs).run (World.answer T a.engine depth) w).1 = none ↔ w.phase ≠ .started

/-- An appender with a layout of its own, which brackets the message. -/
def Appender.bracketing : Appender where
  engine := Delivery.Engine.twoKeys
  layout := .other (some [60]) (some [62]) fun r => Text.utf8 r.message

/-- Records of three targets: the first one merely begins with an internal name, the second one lies
under it. -/
def Record.mixed : List Record :=
  ["redis_client", "redis::cmd", "app"].map fun target =>
    { time := ⟨0, 0⟩, level := .info, target, message := "m", fields := [] }

end LogShipper
