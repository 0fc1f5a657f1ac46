import LogShipper.Proofs.Delivery.Passwords
import LogShipper.Proofs.World.Callers

/-!
# Passwords stay out of sight

Whatever is done with an engine and an appender of a configuration, over a store that does not look
at the password either: what calls come back with and what is logged, in the background too, is the
same for any password, and so is everything that is shown of the endpoint, the configuration, the
engine and the appender.

Covers all calls on an engine and an appender, and the quoted forms of the endpoint, the
configuration, the engine and the appender.

Results:
* `Config.password_unseen`: for any moves of any number of callers.
-/

namespace LogShipper

open Delivery (Dialogue Engine)

/-! ## What is done and seen -/

/-- What can be done with an engine and its appender. -/
inductive Operation where
  | engine (c : Delivery.Call)
  | appender (c : Appender.Call)
  /-- Looks at the appender. -/
  | view
  /-- Gives a link back, or checks idle ones, and hears what is logged meanwhile. -/
  | release (link : LinkId) (healthy : Bool)
  | evict

/-- What an operation comes back with. -/
inductive Operation.Answer where
  | engine (reply : Delivery.Reply)
  | appender (reply : Appender.Reply)
  | view (display quoted : String)
  | nothing

/-- The talk of an operation. -/
def Operation.dialogue (a : Appender) : Operation → Dialogue Operation.Answer
  | .engine c => (c.dialogue a.engine).bind fun reply => .done (.engine reply)
  | .appender c => (c.dialogue a).bind fun reply => .done (.appender reply)
  | .view => .ask .phase fun phase => .done (.view a.display (a.quoted phase))
  | .release link healthy =>
    (a.engine.pool.release link healthy).bind fun _ => .done .nothing
  | .evict => a.engine.pool.evict.bind fun _ => .done .nothing

/-- What is seen of the engine of a configuration and an appender for it, in a world of their own:
what operations come back with, what is logged, and what is logged in the background, each the
latest first. -/
def Config.seen {σ : Type} (c : Config) (T : Transport σ) (batchName : String) (remote : σ)
    (layout : Layout) (depth : Nat) (moves : List (Move Operation)) :
    Except ConfigError (List (Nat × Operation.Answer) × List LogEntry × List LogEntry) :=
  (World.ofConfig batchName remote c).map fun (e, w) =>
    let after := Callers.run T e depth (Operation.dialogue ⟨e, layout⟩) moves { world := w }
    (after.replies, after.world.log, after.world.aside)

/-! ## Passwords -/

namespace Operation

theorem dialogue_withPassword (a : Appender) (p q : String) (o : Operation) :
    o.dialogue (a.withPassword q) = o.dialogue (a.withPassword p) := by
  cases o with
  | engine c =>
    have same : c.dialogue (a.withPassword q).engine = c.dialogue (a.withPassword p).engine :=
      c.dialogue_withPassword a.engine p q
    rw [dialogue, dialogue, same]
  | appender c =>
    rw [dialogue, dialogue, a.dialogue_withPassword, a.dialogue_withPassword]
  | view => rfl
  | release link healthy => rfl
  | evict =>
    have same : (a.withPassword q).engine.pool.evict = (a.withPassword p).engine.pool.evict :=
      (a.engine.pool.evict_withPassword q).trans (a.engine.pool.evict_withPassword p).symm
    rw [dialogue, dialogue, same]

end Operation

namespace Delivery

theorem Engine.alike_withPassword (e : Engine) (p q : String) :
    (e.withPassword p).Alike (e.withPassword q) where
  pool :=
    { config := rfl
      display := rfl
      release := fun _ _ => rfl
      evict := (e.pool.evict_withPassword q).trans (e.pool.evict_withPassword p).symm }
  dialogue := fun c => c.dialogue_withPassword e p q

end Delivery

/-- The world of an engine that was just made. -/
def World.outset {σ : Type} (batchName : String) (log : List LogEntry) (remote : σ) : World σ where
  remote := remote
  handles := { forest := (Cancel.Forest.create {}).2 }
  batchName := batchName
  log := log

/-- An engine that can be made with one password can be made with any. -/
theorem World.ofConfig_withPassword {σ : Type} (batchName : String) (c : Config) :
    (∃ err, ∀ password (remote : σ),
      World.ofConfig batchName remote (c.withPassword password) = .error err) ∨
    ∃ (e : Engine) (log : List LogEntry), e.pool.endpoint = c.endpoint ∧
      ∀ password (remote : σ), World.ofConfig batchName remote (c.withPassword password) =
        .ok (e.withPassword password, World.outset batchName log remote) := by
  have check (password : String) : (c.withPassword password).validate = c.validate := rfl
  have lists (password : String) : (c.withPassword password).destination = c.destination := rfl
  unfold World.ofConfig Delivery.Engine.ofConfig Logged.andThen
  simp only [check, lists]
  cases c.validate.result with
  | error err => exact .inl ⟨err, fun _ _ => rfl⟩
  | ok _ =>
    cases c.destination.result with
    | error err => exact .inl ⟨err, fun _ _ => rfl⟩
    | ok destination =>
      let e : Engine := {
        name := c.name
        destination
        retry := c.retry
        pool := { endpoint := c.endpoint, config := c.pool }
        token := (Cancel.Forest.create {}).1 }
      exact .inr ⟨e, (c.validate.log ++ (c.destination.log ++ [])).reverse, rfl, fun _ _ => rfl⟩

namespace Config

/-- **Passwords stay out of sight.** Two configurations that differ in the password alone are shown
the same and break the same rule, if any; and whatever is done with an engine and an appender of
each, the same comes back and the same is logged. -/
theorem password_unseen {σ : Type} {T : Transport σ} {c : Config} {p q : String}
    {R : σ → σ → Prop}
    (hT : T.Blind id (c.withPassword p).endpoint (c.withPassword q).endpoint R) {r r' : σ}
    (hr : R r r') (batchName : String) (layout : Layout) (depth : Nat)
    (moves : List (Move Operation)) :
    let x := c.withPassword p
    let y := c.withPassword q
    y.endpoint.display = x.endpoint.display ∧
      y.endpoint.quoted = x.endpoint.quoted ∧
      y.quoted = x.quoted ∧
      y.validate = x.validate ∧
      y.seen T batchName r' layout depth moves = x.seen T batchName r layout depth moves := by
  refine ⟨rfl, rfl, rfl, rfl, ?_⟩
  unfold seen
  obtain ⟨err, refused⟩ | ⟨e, log, hendpoint, made⟩ :=
    World.ofConfig_withPassword (σ := σ) batchName c
  · rw [refused, refused]
  · rw [made, made]
    have start : Callers.Twin id R
        ({ world := World.outset batchName log r } : Callers Operation.Answer σ)
        { world := World.outset batchName log r' } := ⟨fun _ => .none, rfl, .intro _ r' hr⟩
    have talks (o : Operation) : (o.dialogue ⟨e.withPassword p, layout⟩).Mirrors id
        (o.dialogue ⟨e.withPassword q, layout⟩) := by
      have same : o.dialogue ⟨e.withPassword q, layout⟩ = o.dialogue ⟨e.withPassword p, layout⟩ :=
        o.dialogue_withPassword ⟨e, layout⟩ p q
      rw [same]
      exact .self _
    have blind : T.Blind id (e.pool.endpoint.withPassword p) (e.pool.endpoint.withPassword q) R := by
      rw [hendpoint]
      exact hT
    have after : Callers.Twin id R _ (Callers.run T (e.withPassword q) depth _
        (moves.map (Move.map id)) _) := start.run blind (e.alike_withPassword p q) talks moves
    rw [List.map_congr_left fun m _ => m.map_id, List.map_id'] at after
    exact congrArg Except.ok
      (Prod.ext after.replies (Prod.ext after.world.log after.world.aside))

/-- A configuration to put passwords in. -/
def guarded : Config := { endpoint := { host := "localhost" }, pool := { maxWaitMs := 1 } }

/-- Starts the engine, sends, and looks at the appender and the engine. -/
def prying : List (Move Operation) :=
  [.call 0 (.engine .startup), .finish 0, .call 0 (.engine (.send [104])), .finish 0,
    .call 1 .view, .finish 1, .call 0 (.engine .describe), .finish 0]

/-- A store that refuses links tells why, but not with which password: not to the caller who waits
for a link, nor in the background, where two links could not be opened meanwhile. -/
theorem password_unseen_refused :
    let x := guarded.withPassword "hunter2"
    let y := guarded.withPassword ""
    ((x.seen ScriptedStore.transport "" { refusing := true } .raw 0 prying).toOption.map
        fun s => (s.2.1.map (·.message), s.2.2.map fun entry => (entry.message, entry.fields))) =
        some (["Unable to connect to list store. Please ensure that it's running on localhost:6379",
            "Delivery engine started", "Connection pool created"],
          List.replicate 2 ("Pool failed to open connection",
            [("endpoint", "localhost:6379"),
              ("error", "Connection error: connection refused: localhost:6379")])) ∧
      y.endpoint.display = x.endpoint.display ∧
      y.endpoint.quoted = x.endpoint.quoted ∧
      y.quoted = x.quoted ∧
      y.validate = x.validate ∧
      y.seen ScriptedStore.transport "" { refusing := true } .raw 0 prying =
        x.seen ScriptedStore.transport "" { refusing := true } .raw 0 prying := by
  have blind : ScriptedStore.transport.Blind id (guarded.withPassword "hunter2").endpoint
      (guarded.withPassword "").endpoint Eq := .of_connect fun _ _ => rfl
  refine ⟨by decide +kernel, ?_⟩
  exact password_unseen blind rfl "" .raw 0 prying

end Config

end LogShipper
