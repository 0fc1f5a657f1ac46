import LogShipper.Proofs.Delivery.Sending
import LogShipper.Proofs.World.Moments

/-!
# The life of an engine and of its pool

An engine and its pool each have a phase, and each is advanced by its own request. Between calls the
two are in step (`Phases.InStep`), and the phase of the engine only moves forward
(`Phase.Precedes`), whatever calls are made from inside pushes. Only startup and shutdown move
either; all other requests leave both alone, but for the calls that a push makes from inside.

`World.Since` relates a state in which a call may be made to all later ones.

Covers `startup`, `shutdown` and what the sends do before and after them, over one engine.

Results:
* `forward_answer`, `forward_call`: what requests and calls do to the two phases.
* `run_sendWith_refused`, `run_sendBulk_refused`: sends to an engine that is not started.
* `run_shutdown`: the end of an engine, whatever its pool answers.
* `Since.lifecycle`: the life of an engine over all its runs.
-/

namespace LogShipper

open Delivery (Request Dialogue PoolSettings Engine Call entries)
open Delivery.Dialogue (Reaches)

/-! ## Phases -/

/-- The phase of a pool that goes with a phase of its engine. -/
def Phase.ofPool : Phase → PoolPhase
  | .created => .created
  | .started => .running
  | .stopped => .shutDown

/-- How an engine moves from a phase to a later one: it is started once, and stopped for good. -/
inductive Phase.Precedes : Phase → Phase → Prop where
  | stay (p : Phase) : Precedes p p
  | start : Precedes .created .started
  | stop (p : Phase) : Precedes p .stopped

namespace Phase.Precedes

theorem trans {p q r : Phase} (h : p.Precedes q) (h' : q.Precedes r) : p.Precedes r := by
  cases h with
  | stay => exact h'
  | start =>
    cases h' with
    | stay => exact .start
    | stop => exact .stop _
  | stop =>
    cases h' with
    | stay => exact .stop _
    | stop => exact .stop _

/-- A stopped engine stays stopped. -/
theorem eq_stopped {p : Phase} (h : Phase.stopped.Precedes p) : p = .stopped := by
  cases h <;> rfl

end Phase.Precedes

/-- The phases of an engine and of its pool. -/
@[ext]
structure Phases where
  engine : Phase
  pool : PoolPhase

namespace Phases

variable {x y z : Phases}

/-- The engine and its pool are in the same part of their lives. -/
structure InStep (x : Phases) : Prop where
  created : x.engine = .created ↔ x.pool = .created
  started : x.engine = .started ↔ x.pool = .running
  stopped : x.engine = .stopped ↔ x.pool = .shutDown

theorem inStep_iff : x.InStep ↔ x.pool = x.engine.ofPool := by
  constructor
  · intro h
    cases hp : x.engine with
    | created => exact h.created.mp hp
    | started => exact h.started.mp hp
    | stopped => exact h.stopped.mp hp
  · intro h
    refine ⟨?_, ?_, ?_⟩ <;> cases hp : x.engine <;> simp [h, hp, Phase.ofPool]

/-- From some phases to later ones: if engine and pool were in step they still are, and the engine
has not gone back. -/
def Forward (x y : Phases) : Prop := x.InStep → y.InStep ∧ x.engine.Precedes y.engine

namespace Forward

theorem refl (x : Phases) : Forward x x := fun hx => ⟨hx, .stay _⟩

theorem trans (h : Forward x y) (h' : Forward y z) : Forward x z := fun hx =>
  have ⟨hy, hxy⟩ := h hx
  have ⟨hz, hyz⟩ := h' hy
  ⟨hz, hxy.trans hyz⟩

theorem of_eq (h : y = x) : Forward x y := h ▸ .refl x

end Forward

end Phases

namespace World

variable {σ : Type} {T : Transport σ} {w w₁ w₂ : World σ}

/-- The phases of the engine and of the pool. -/
def phases (w : World σ) : Phases := ⟨w.phase, w.pool.phase⟩

/-! ## Requests that leave the phases alone -/

section Frame

variable (T) (s : PoolSettings)

theorem refill_phase (c : PoolConfig) (now : Nat) (p : Pool) :
    (p.refill c now).phase = p.phase := by
  obtain ⟨os, hos⟩ := Pool.refill_eq c now p
  rw [hos]

theorem openOne_phase (c : PoolConfig) (now : Nat) (p : Pool) :
    (p.openOne c now).phase = p.phase := by
  obtain ⟨os, hos⟩ := Pool.openOne_eq c now p
  rw [hos]

theorem take_phase {c : PoolConfig} {now : Nat} {p q : Pool} {link : LinkId}
    (h : p.take c now = some (link, q)) : q.phase = p.phase := by
  obtain ⟨idle, -, rfl⟩ := Pool.take_eq h
  exact refill_phase c now _

theorem phases_settleForsaken (w : World σ) : (w.settleForsaken T).phases = w.phases := by
  have hphase : (w.settleForsaken T).phase = w.phase :=
    congrArg Rest.phase (rest_settleForsaken T w)
  have hpool : (w.settleForsaken T).pool.phase = w.pool.phase := by
    unfold settleForsaken
    split
    · rw [closeAll_pool]
      rfl
    · rfl
  exact Phases.ext hphase hpool

theorem phases_giveBack (link : LinkId) (w : World σ) :
    (w.giveBack T link).phases = w.phases := by
  unfold giveBack
  rw [phases_settleForsaken]
  rfl

theorem phases_discard (link : LinkId) (w : World σ) :
    (w.discard T s link).phases = w.phases := by
  unfold discard
  rw [phases_settleForsaken]
  exact Phases.ext rfl (refill_phase s.config w.clock _)

variable {T s} in
/-- As long as a pool runs, a link that is put back is put back and no more. -/
theorem giveBack_of_running (link : LinkId) (h : w.pool.phase = .running) :
    w.giveBack T link = { w with pool := w.pool.putBack link } := by
  unfold giveBack settleForsaken
  rw [if_neg]
  simp [Pool.isForsaken, Pool.putBack, h]

variable {T s} in
/-- As long as a pool runs, a link that is dropped is dropped and no other. -/
theorem discard_of_running (link : LinkId) (h : w.pool.phase = .running) :
    w.discard T s link =
      ({ w with pool := w.pool.drop s.config w.clock link } : World σ).close T link := by
  unfold discard settleForsaken
  rw [if_neg]
  have phase : (w.pool.drop s.config w.clock link).phase = .running :=
    (refill_phase s.config w.clock _).trans h
  simp [Pool.isForsaken, close, record, phase]

variable {T s} in
theorem Borrowed.phases {x : Option LinkId} (h : Borrowed T s w x w₁) : w₁.phases = w.phases := by
  induction h with
  | none w => rfl
  | unchecked ht => exact Phases.ext rfl (take_phase ht)
  | passed ht hp =>
    obtain ⟨hpool, -, hrest⟩ := ping_spec hp
    exact Phases.ext (congrArg Rest.phase hrest)
      ((congrArg Pool.phase hpool).trans (take_phase ht))
  | failed ht hp _ ih =>
    obtain ⟨hpool, -, hrest⟩ := ping_spec hp
    rw [ih, dismiss, phases_discard]
    exact Phases.ext (congrArg Rest.phase hrest)
      ((congrArg Pool.phase hpool).trans (take_phase ht))

theorem phases_answerNow {r : Request} (hr : r.isSteady = true) (w : World σ) :
    (w.answerNow T s r).2.phases = w.phases := by
  cases r with
  | borrow =>
    exact answerNow_borrow T s (P := fun got => got.2.phases = w.phases) w
      (fun _ _ hb => hb.phases) fun _ hb => hb.phases
  | tryBorrow => exact (borrowed_tryBorrow T s w).phases
  | forsakePool => exact phases_settleForsaken T w
  | giveBack link => exact phases_giveBack T link w
  | discard link => exact phases_discard T s link w
  | newToken name parent => cases parent <;> rfl
  | markStarted => exact absurd hr Bool.false_ne_true
  | markStopped => exact absurd hr Bool.false_ne_true
  | openPool => exact absurd hr Bool.false_ne_true
  | closePool => exact absurd hr Bool.false_ne_true
  | _ => rfl

theorem phases_settleOpening (index : Nat) (w : World σ) :
    (w.settleOpening T s index).phases = w.phases := by
  unfold settleOpening
  dsimp only
  split <;> rfl

/-- The phases do not change as time passes. -/
theorem steady_phases (x : Phases) : Steady T s fun w => w.phases = x := by
  refine .of_care (fun _ _ hw => hw) (fun w index hw _ => ?_) (fun r w hr hw => ?_)
    (fun _ _ _ _ hw => hw) fun _ _ _ _ _ hv => hv
  · exact (phases_settleOpening T s index w).trans hw
  · have steady : r.isSteady = true :=
      Request.isSteady_of_isSending (Request.isSending_of_isCare hr)
    rw [phases_answerNow T s steady, hw]

theorem phases_answerPatiently {r : Request} (hr : r.isSteady = true) (w : World σ) :
    (w.answerPatiently T s r).2.phases = w.phases := by
  have steady := steady_phases T s w.phases
  have opened (v : World σ) :
      ({ v with pool := v.pool.openOne s.config v.clock } : World σ).phases = v.phases :=
    Phases.ext rfl (openOne_phase s.config v.clock v.pool)
  cases r with
  | borrow =>
    exact steady.borrow_keeps (fun v hv => (opened v).trans hv) (fun _ hv => hv)
      (fun _ _ _ hv hb => hb.phases.trans hv) rfl
  | drain ms => exact steady.drain ms rfl
  | wait token ms => exact steady.wait token ms rfl
  | _ => exact phases_answerNow T s hr w

end Frame

/-! ## Startup and shutdown -/

section Turns

variable (T) (e : Engine) (depth : Nat)

/-- An entry of the engine's log. -/
def engineEntry (level : Level) (message : String) (fields : List (String × String)) : LogEntry :=
  ⟨level, .engine, message, ("sink", e.name) :: fields⟩

theorem run_startup_started (hw : w.phase = .started) :
    e.startup.run (answer T e depth) w =
      (.ok (), w.raise (engineEntry e .warn "Delivery engine already started" [])) := by
  cases depth <;>
  · simp only [Engine.startup, Dialogue.run, answer, answerPatiently, answerNow, hw]
    rfl

theorem run_startup_stopped (hw : w.phase = .stopped) :
    e.startup.run (answer T e depth) w = (.error .stopped, w.raise
      (engineEntry e .error "Delivery engine cannot be restarted after shutdown" [])) := by
  cases depth <;>
  · simp only [Engine.startup, Dialogue.run, answer, answerPatiently, answerNow, hw]
    rfl

/-- The pool of an engine that was never started can be set up. -/
theorem run_poolStartup (hp : w.pool.phase = .created) :
    ∃ entry, e.pool.startup.run (answer T e depth) w =
      (.ok (), ({ w with pool := w.pool.start e.pool.config w.clock } : World σ).raise entry) := by
  cases depth <;>
  · simp only [PoolSettings.startup, Dialogue.run, answer, answerPatiently, answerNow, hp]
    exact ⟨_, rfl⟩

theorem run_startup_created (hw : w.phase = .created) (hp : w.pool.phase = .created) :
    (e.startup.run (answer T e depth) w).1 = .ok () ∧
      (e.startup.run (answer T e depth) w).2.phases = ⟨.started, .running⟩ := by
  obtain ⟨entry, hpool⟩ := run_poolStartup T e depth hp
  have hphase := answer_phase T e depth w
  have running : (w.pool.start e.pool.config w.clock).phase = .running :=
    refill_phase e.pool.config w.clock _
  unfold Engine.startup Dialogue.run
  rw [hphase, hw]
  show (Dialogue.run _ (Dialogue.bind e.pool.startup _) w).1 = _ ∧
    (Dialogue.run _ (Dialogue.bind e.pool.startup _) w).2.phases = _
  rw [Dialogue.run_bind, hpool]
  cases depth with
  | zero => exact ⟨rfl, Phases.ext rfl running⟩
  | succ depth => exact ⟨rfl, Phases.ext rfl running⟩

/-- A stopped engine is stopped already. -/
theorem run_shutdown_stopped (hw : w.phase = .stopped) (ms : Option Nat) :
    (e.shutdown ms).run (answer T e depth) w = (true, w) := by
  have same : ({ w with phase := .stopped } : World σ) = w := by rw [← hw]
  have hmark : w.answer T e depth .markStopped = (w.phase, { w with phase := .stopped }) :=
    answer_eq_patiently T e depth (fun _ _ _ => Request.noConfusion) w
  unfold Engine.shutdown Dialogue.run
  rw [hmark, hw, same]
  rfl

theorem run_shutdown_part (hw : w.phase ≠ .stopped) (ms : Option Nat) :
    (e.shutdown ms).run (answer T e depth) w = (e.part ms).run (answer T e depth)
      { w with phase := .stopped, handles := w.handles.cancel e.token } := by
  have hmark : w.answer T e depth .markStopped = (w.phase, { w with phase := .stopped }) :=
    answer_eq_patiently T e depth (fun _ _ _ => Request.noConfusion) w
  have hcancel : ({ w with phase := .stopped } : World σ).answer T e depth (.cancel e.token) =
      ((), { w with phase := .stopped, handles := w.handles.cancel e.token }) :=
    answer_eq_patiently T e depth (fun _ _ _ => Request.noConfusion) _
  rw [Engine.shutdown_eq, Dialogue.run, hmark]
  cases hp : w.phase with
  | stopped => exact absurd hp hw
  | created =>
    dsimp only
    rw [Dialogue.run, hcancel]
  | started =>
    dsimp only
    rw [Dialogue.run, hcancel]

/-- The end of a pool leaves engine and pool stopped. -/
theorem phases_parting {r : Request} (hr : r.isParting = true)
    (hw : w.phases = ⟨.stopped, .shutDown⟩) :
    (w.answer T e depth r).2.phases = ⟨.stopped, .shutDown⟩ := by
  have hpush : ∀ link key payload, r ≠ .push link key payload := by
    rintro link key payload rfl
    exact Bool.false_ne_true hr
  rw [answer_eq_patiently T e depth hpush]
  cases r with
  | closePool =>
    have hphase : w.phase = .stopped := congrArg Phases.engine hw
    exact Phases.ext hphase rfl
  | drain ms => exact (phases_answerPatiently T e.pool rfl w).trans hw
  | forsakePool => exact (phases_answerPatiently T e.pool rfl w).trans hw
  | log entry => exact hw
  | _ => exact absurd hr Bool.false_ne_true

/-- **Parting with a pool** leaves it stopped, whatever it has been through. -/
theorem phases_part (hw : w.phase = .stopped) (ms : Option Nat) :
    ((e.part ms).run (answer T e depth) w).2.phases = ⟨.stopped, .shutDown⟩ := by
  have hclose : w.answer T e depth .closePool = (w.pool.phase, { w with pool := w.pool.close }) :=
    answer_eq_patiently T e depth (fun _ _ _ => Request.noConfusion) w
  have parts := e.part_parts ms
  -- the first thing that the talk asks for is the end of the pool
  obtain ⟨next, hpart⟩ : ∃ next, e.part ms = .ask .closePool next := ⟨_, rfl⟩
  rw [hpart] at parts ⊢
  rw [Dialogue.run, hclose]
  exact Dialogue.Only.run (I := fun v : World σ => v.phases = ⟨.stopped, .shutDown⟩)
    (parts.2 _ trivial) (fun r v hr hv => phases_parting T e depth hr hv) (Phases.ext hw rfl)

theorem run_call_shutdown (ms : Option Nat) (w : World σ) :
    ((Call.dialogue e (.shutdown ms)).run (answer T e depth) w).2 =
      ((e.shutdown ms).run (answer T e depth) w).2 :=
  Dialogue.run_reply (fun _ => ⟨_, rfl⟩) _ w

/-- **A shutdown ends with a stopped engine.** -/
theorem phase_shutdown (w : World σ) (ms : Option Nat) :
    ((e.shutdown ms).run (answer T e depth) w).2.phase = .stopped := by
  by_cases hw : w.phase = .stopped
  · rw [run_shutdown_stopped T e depth hw]
    exact hw
  · rw [run_shutdown_part T e depth hw]
    exact congrArg Phases.engine (phases_part T e depth rfl ms)

/-! ## Moving forward -/

theorem forward_startup (w : World σ) :
    Phases.Forward w.phases (e.startup.run (answer T e depth) w).2.phases := by
  intro hw
  have hstep := Phases.inStep_iff.mp hw
  cases hp : w.phase with
  | started =>
    rw [run_startup_started T e depth hp]
    exact ⟨hw, .stay _⟩
  | stopped =>
    rw [run_startup_stopped T e depth hp]
    exact ⟨hw, .stay _⟩
  | created =>
    have hpool : w.pool.phase = .created := hstep.trans (congrArg Phase.ofPool hp)
    rw [(run_startup_created T e depth hp hpool).2]
    refine ⟨Phases.inStep_iff.mpr rfl, ?_⟩
    show w.phase.Precedes .started
    rw [hp]
    exact .start

theorem forward_shutdown (ms : Option Nat) (w : World σ) :
    Phases.Forward w.phases ((e.shutdown ms).run (answer T e depth) w).2.phases := by
  intro hw
  by_cases hp : w.phase = .stopped
  · rw [run_shutdown_stopped T e depth hp]
    exact ⟨hw, .stay _⟩
  · rw [run_shutdown_part T e depth hp, phases_part T e depth rfl ms]
    exact ⟨Phases.inStep_iff.mpr rfl, .stop _⟩

end Turns

section Forward

variable (T) (e : Engine)

/-- What calls do to the phases, if requests that neither start nor stop anything move forward. -/
theorem forward_talk {depth : Nat}
    (hanswer : ∀ (r : Request) (w : World σ), r.isSteady = true →
      Phases.Forward w.phases (w.answer T e depth r).2.phases) (c : Call) (w : World σ) :
    Phases.Forward w.phases ((c.dialogue e).run (answer T e depth) w).2.phases := by
  have steady (hstart : c ≠ .startup) (hstop : ∀ ms, c ≠ .shutdown ms) :
      Phases.Forward w.phases ((c.dialogue e).run (answer T e depth) w).2.phases :=
    (c.steadies e hstart hstop).run (I := fun v : World σ => Phases.Forward w.phases v.phases)
      (fun r v hr hv => hv.trans (hanswer r v hr)) (.refl w.phases)
  cases c with
  | startup =>
    have hrun : ((Call.dialogue e .startup).run (answer T e depth) w).2 =
        (e.startup.run (answer T e depth) w).2 :=
      Dialogue.run_reply (fun x => by cases x <;> exact ⟨_, rfl⟩) _ w
    rw [hrun]
    exact forward_startup T e depth w
  | shutdown ms =>
    rw [run_call_shutdown]
    exact forward_shutdown T e depth ms w
  | _ => exact steady Call.noConfusion fun _ => Call.noConfusion

theorem forward_overheard {c : Call} {x : Delivery.Reply × World σ}
    (h : Phases.Forward w.phases x.2.phases) :
    Phases.Forward w.phases (overheard c w x).2.phases :=
  overheard_keeps (I := fun v => Phases.Forward w.phases v.phases) (fun _ _ _ hv => hv) h

/-- **Requests that neither start nor stop anything** move forward, with any number of levels of
calls from inside pushes. The induction is on the levels. -/
theorem forward_answer (depth : Nat) (r : Request) (w : World σ) (hr : r.isSteady = true) :
    Phases.Forward w.phases (w.answer T e depth r).2.phases := by
  induction depth generalizing r w with
  | zero => exact .of_eq (phases_answerPatiently T e.pool hr w)
  | succ depth ih =>
    cases r with
    | push link key payload =>
      exact calls_keep (I := fun v => Phases.Forward w.phases v.phases)
        (w := { w.record (.began link key payload) with
          remote := (T.beginPush link key payload w.remote).2 })
        (fun c w => overheard c w ((c.dialogue e).run (answer T e depth) w))
        (fun c v hv =>
          hv.trans (forward_overheard (forward_talk T e (fun r v hr => ih r v hr) c v)))
        (fun _ _ hv => hv) (T.beginPush link key payload w.remote).1 (.refl w.phases)
    | markStarted => exact absurd hr Bool.false_ne_true
    | markStopped => exact absurd hr Bool.false_ne_true
    | openPool => exact absurd hr Bool.false_ne_true
    | closePool => exact absurd hr Bool.false_ne_true
    | _ => exact .of_eq (phases_answerPatiently T e.pool hr w)

/-- **Every call** moves forward. -/
theorem forward_call (depth : Nat) (c : Call) (w : World σ) :
    Phases.Forward w.phases (w.call T e depth c).2.phases :=
  forward_overheard (forward_talk T e (forward_answer T e depth) c w)

end Forward

/-! ## Later states -/

/-- From a state in which a call may be made to all later ones. -/
inductive Since (T : Transport σ) (e : Engine) (w₀ : World σ) : World σ → Prop where
  | now : Since T e w₀ w₀
  /-- The store has changed by itself. -/
  | store {w : World σ} (hw : Since T e w₀ w) (remote : σ) : Since T e w₀ { w with remote }
  | pass {w : World σ} (hw : Since T e w₀ w) (limit : Nat) : Since T e w₀ (w.pass T e.pool limit)
  /-- A call has come back. -/
  | call {w : World σ} (hw : Since T e w₀ w) (depth : Nat) (c : Call) :
      Since T e w₀ (w.call T e depth c).2
  /-- Inside a push of a call. -/
  | inside {w w₁ : World σ} (hw : Since T e w₀ w) {depth : Nat} {c : Call} {link : LinkId}
      {key : String} {payload : Bytes}
      (hr : Reaches (answer T e depth) (c.dialogue e) w (.push link key payload) w₁) :
      Since T e w₀ { w₁.record (.began link key payload) with
        remote := (T.beginPush link key payload w₁.remote).2 }
  /-- Inside a push, after a call that came back. -/
  | called {w : World σ} (hw : Since T e w₀ w) (reply : Delivery.Reply) :
      Since T e w₀ (w.record (.called reply))

/-- What comes after a moment is a moment. -/
theorem Since.moment {e : Engine} (h₀ : Moment T e w) (h : Since T e w w₁) : Moment T e w₁ := by
  induction h with
  | now => exact h₀
  | store _ remote ih => exact .store ih remote
  | pass _ limit ih => exact .pass ih limit
  | call _ depth c ih => exact .call ih depth c
  | inside _ hr ih => exact .inside ih hr
  | called _ reply ih => exact .called ih reply

/-- Up to a push that a call makes. -/
theorem forward_push {e : Engine} {depth : Nat} {c : Call} {link : LinkId} {key : String}
    {payload : Bytes}
    (hr : Reaches (answer T e depth) (c.dialogue e) w (.push link key payload) w₁) :
    Phases.Forward w.phases w₁.phases := by
  have silent (hc : (c.dialogue e).Only Request.isMute) : False :=
    Bool.false_ne_true (hc.reaches (I := fun _ => True) (fun _ _ _ _ => trivial) trivial hr).1
  have steady (hstart : c ≠ .startup) (hstop : ∀ ms, c ≠ .shutdown ms) :
      Phases.Forward w.phases w₁.phases :=
    ((c.steadies e hstart hstop).reaches (I := fun v : World σ => Phases.Forward w.phases v.phases)
      (fun r v hr hv => hv.trans (forward_answer T e depth r v hr)) (.refl w.phases) hr).2
  cases c with
  | startup =>
    refine (silent (.bind e.startup_mute fun x => ?_)).elim
    cases x <;> exact .done
  | shutdown ms => exact (silent (.bind (e.shutdown_mute ms) fun _ => .done)).elim
  | _ => exact steady Call.noConfusion fun _ => Call.noConfusion

/-- **Engine and pool move forward in step**, over any number of calls, from inside pushes too. -/
theorem Since.forward {e : Engine} (h : Since T e w w₁) :
    Phases.Forward w.phases w₁.phases := by
  induction h with
  | now => exact .refl w.phases
  | store _ _ ih => exact ih
  | @pass v _ limit ih =>
    have still : (v.pass T e.pool limit).phases = v.phases := (steady_phases T e.pool _).pass rfl
    exact ih.trans (.of_eq still)
  | call _ depth c ih => exact ih.trans (forward_call T e depth c _)
  | @inside v v₁ _ depth c link key payload hr ih =>
    have pushed : Phases.Forward v.phases v₁.phases := forward_push hr
    exact ih.trans pushed
  | called _ _ ih => exact ih

/-! ## Use at the wrong time -/

section Misuse

variable (T) (e : Engine) (depth : Nat) {err : LifecycleError}

/-- Why an engine takes no sends. -/
def refusal? : Phase → Option LifecycleError
  | .created => some .notStarted
  | .started => none
  | .stopped => some .stopped

/-- The world once a send was refused: that is logged, and nothing else has changed. -/
def refused (err : LifecycleError) (w : World σ) : World σ :=
  w.raise (engineEntry e .error err.message [])

theorem run_ensureStarted (hw : refusal? w.phase = some err) :
    e.ensureStarted.run (answer T e depth) w = (.error err, w.refused e err) := by
  cases hp : w.phase with
  | started =>
    rw [hp] at hw
    cases hw
  | created =>
    rw [hp] at hw
    cases hw
    cases depth <;>
    · simp only [Engine.ensureStarted, Dialogue.run, answer, answerPatiently, answerNow, hp]
      rfl
  | stopped =>
    rw [hp] at hw
    cases hw
    cases depth <;>
    · simp only [Engine.ensureStarted, Dialogue.run, answer, answerPatiently, answerNow, hp]
      rfl

/-- A send is refused before anything is borrowed. -/
theorem run_sendWith_refused (hw : refusal? w.phase = some err) (payload : Bytes)
    (token : Cancel.TokenId) :
    (e.sendWith payload token).run (answer T e depth) w = (.error err, w.refused e err) := by
  show Dialogue.run _ (Dialogue.bind e.ensureStarted _) w = _
  rw [Dialogue.run_bind, run_ensureStarted T e depth hw]
  rfl

theorem run_sendBulk_refused (hw : refusal? w.phase = some err) (payloads : List Bytes) :
    (e.sendBulk payloads).run (answer T e depth) w = (.error err, w.refused e err) := by
  show Dialogue.run _ (Dialogue.bind e.ensureStarted _) w = _
  rw [Dialogue.run_bind, run_ensureStarted T e depth hw]
  rfl

/-- What a startup says, if the pool is in step with the engine. -/
theorem startup_messages (hw : w.phases.InStep) :
    (entries (e.startup.exchanges (answer T e depth) w)).map LogEntry.message =
      match w.phase with
      | .created => ["Connection pool created", "Delivery engine started"]
      | .started => ["Delivery engine already started"]
      | .stopped => ["Delivery engine cannot be restarted after shutdown"] := by
  cases hp : w.phase with
  | created =>
    have hc : w.pool.phase = .created :=
      (Phases.inStep_iff.mp hw).trans (congrArg Phase.ofPool hp)
    cases depth <;>
    · simp only [Engine.startup, PoolSettings.startup, Dialogue.exchanges, answer,
        answerPatiently, answerNow, hp, bind, Dialogue.bind, hc]
      rfl
  | started =>
    cases depth <;>
    · simp only [Engine.startup, Dialogue.exchanges, answer, answerPatiently, answerNow, hp]
      rfl
  | stopped =>
    cases depth <;>
    · simp only [Engine.startup, Dialogue.exchanges, answer, answerPatiently, answerNow, hp]
      rfl

/-- The pool of an engine that is in step with it does not fail to start. -/
theorem startup_entries (hw : w.phases.InStep) :
    ∀ entry ∈ entries (e.startup.exchanges (answer T e depth) w),
      entry.message ≠ "Failed to start connection pool" := by
  intro entry hentry hfailed
  have said := List.mem_map_of_mem (f := LogEntry.message) hentry
  rw [startup_messages T e depth hw, hfailed] at said
  cases hp : w.phase with
  | _ =>
    rw [hp] at said
    exact absurd said (by decide)

end Misuse

/-! ## The life of an engine -/

/-- How an engine lives on from a state. -/
structure Lifecycle (T : Transport σ) (e : Engine) (w : World σ) : Prop where
  /-- The engine and its pool are in the same part of their lives. -/
  in_step : w.phases.InStep
  /-- The engine is started once, and stopped for good. -/
  forward : ∀ w', Since T e w w' → w.phase.Precedes w'.phase
  /-- The pool never fails to start. -/
  pool_starts : ∀ depth, ∀ entry ∈ entries (e.startup.exchanges (answer T e depth) w),
    entry.message ≠ "Failed to start connection pool"
  /-- An engine that is not started sends nothing, says so, and leaves all else alone. -/
  refuses : ∀ err, refusal? w.phase = some err → ∀ depth,
    (∀ payload token,
      (e.sendWith payload token).run (answer T e depth) w = (.error err, w.refused e err)) ∧
    ∀ payloads, (e.sendBulk payloads).run (answer T e depth) w = (.error err, w.refused e err)
  /-- A shutdown ends with a stopped engine, whatever the pool has been through. -/
  stops : ∀ depth ms pool,
    ((e.shutdown ms).run (answer T e depth) { w with pool }).2.phase = .stopped
  /-- Every later shutdown answers at once and changes nothing. -/
  stopped : ∀ depth ms w', Since T e (w.call T e depth (.shutdown ms)).2 w' →
    ∀ depth' ms', (e.shutdown ms').run (answer T e depth') w' = (true, w')

/-- **The life of an engine**: at all moments of all runs it is in step with its pool and moves
forward only. -/
theorem Since.lifecycle {e : Engine} (h₀ : w.phases = ⟨.created, .created⟩)
    (h : Since T e w w₁) : Lifecycle T e w₁ := by
  have fresh : w.phases.InStep := Phases.inStep_iff.mpr (by rw [h₀]; rfl)
  have hstep : w₁.phases.InStep := (h.forward fresh).1
  refine ⟨hstep, fun w' h' => (h'.forward hstep).2, ?_, ?_, ?_, ?_⟩
  · exact fun depth => startup_entries T e depth hstep
  · exact fun err herr depth => ⟨run_sendWith_refused T e depth herr,
      run_sendBulk_refused T e depth herr⟩
  · exact fun depth ms pool => phase_shutdown T e depth { w₁ with pool } ms
  · intro depth ms w' h' depth' ms'
    have ended : (w₁.call T e depth (.shutdown ms)).2.phase = .stopped := by
      show ((Call.dialogue e (.shutdown ms)).run (answer T e depth) w₁).2.phase = .stopped
      rw [run_call_shutdown]
      exact phase_shutdown T e depth w₁ ms
    have ended_step := (forward_call T e depth (.shutdown ms) w₁ hstep).1
    have still : w'.phase = .stopped := by
      have later : Phase.Precedes _ w'.phase := (h'.forward ended_step).2
      exact (ended ▸ later : Phase.stopped.Precedes w'.phase).eq_stopped
    exact run_shutdown_stopped T e depth' still ms'

/-- An engine that was started, and shut down from inside a push of a send. -/
theorem Since.lifecycle_severed :
    ({ remote := severing } : World ScriptedStore).phases = ⟨.created, .created⟩ ∧
      severed.phase = .stopped ∧
      Lifecycle ScriptedStore.transport Engine.twoKeys severed := by
  refine ⟨rfl, by decide +kernel, ?_⟩
  exact Since.lifecycle rfl (.call (.call .now 0 .startup) 1 (.send [104]))

end World

end LogShipper
