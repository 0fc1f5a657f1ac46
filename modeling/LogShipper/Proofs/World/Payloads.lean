import LogShipper.Proofs.Delivery.Truth
import LogShipper.Proofs.World.Callers
import LogShipper.Rehearsal.Stage

/-!
# Delivery does not look at payloads

Whatever is pushed instead of the payloads that callers hand over, over a store that does not look
at payloads either, the engine does the same: the same pushes over the same links to the same keys,
tried as often, with nothing but their payloads replaced; and calls come back with the same, and the
same is logged, in the background too. So no payload is told apart from another one by what comes
back or is logged: not an empty one from others, nor bytes that are no text from those that are.

Covers all calls on an engine by callers that go on side by side.

Results:
* `Callers.payloads_unseen`: for any moves of any number of callers.
-/

namespace LogShipper

open Delivery (Call Engine)

namespace Callers

variable {σ : Type}

/-- **Delivery does not look at payloads.** The callers of two worlds make the same moves, but each
payload is replaced for those of the second one, for all that is pushed from inside other pushes
too. -/
theorem payloads_unseen {T : Transport σ} {e : Engine} {f : Bytes → Bytes} {R : σ → σ → Prop}
    (hT : T.Blind f e.pool.endpoint e.pool.endpoint R) {w : World σ} {remote : σ}
    (hremote : R w.remote remote) (depth : Nat) (moves : List (Move Call)) :
    let seen := run T e depth (Call.dialogue e) moves { world := w }
    let replaced := run T e depth (Call.dialogue e) (moves.map (Move.map (Call.map f)))
      { world := { w with remote, acts := w.acts.map (Act.map f) } }
    replaced.world.acts = seen.world.acts.map (Act.map f) ∧
      replaced.replies = seen.replies ∧
      replaced.world.log = seen.world.log ∧
      replaced.world.aside = seen.world.aside := by
  have start : Twin f R ({ world := w } : Callers Delivery.Reply σ)
      { world := { w with remote, acts := w.acts.map (Act.map f) } } :=
    ⟨fun _ => .none, rfl, .intro w remote hremote⟩
  have after : Twin f R (run T e depth (Call.dialogue e) moves _)
      (run T e depth (Call.dialogue e) (moves.map (Move.map (Call.map f))) _) :=
    start.run hT (.refl e) (fun c => c.mirrors f e) moves
  exact ⟨after.world.acts, after.replies, after.world.log, after.world.aside⟩

/-- A started engine, and a store that turns down the first push to the second key, and that sends a
payload of its own from inside the first push. -/
def meddled : World ScriptedStore :=
  (World.call ScriptedStore.transport Engine.twoKeys 0 .startup
    { remote := { plans := [("b", { next := [.reject "OOM"] })], hooks := [(1, .send [104])] } }).2

/-- A send of an empty payload and a batch, each of which comes in between the requests of the
other. -/
def crossed : List (Move Call) :=
  [.call 0 (.send []), .turn 0, .turn 0, .call 1 (.bulk [[105], []]), .turn 1, .turn 1, .turn 0,
    .turn 0, .turn 1, .turn 1, .turn 0, .finish 1, .finish 0]

/-- The callers after these moves. -/
def plain : Callers Delivery.Reply ScriptedStore :=
  run ScriptedStore.transport Engine.twoKeys 1 (Call.dialogue Engine.twoKeys) crossed
    { world := meddled }

/-- The callers after these moves, with bytes that are no text for each payload. -/
def garbled : Callers Delivery.Reply ScriptedStore :=
  run ScriptedStore.transport Engine.twoKeys 1 (Call.dialogue Engine.twoKeys)
    (crossed.map (Move.map (Call.map fun _ => [255])))
    { world := { meddled with
        remote := meddled.remote.map fun _ => [255]
        acts := meddled.acts.map (Act.map fun _ => [255]) } }

/-- Over both links, nothing but payloads is replaced. -/
theorem payloads_unseen_garbled :
    (Rehearsal.PushLog.ofActs plain.world.acts).records.map (fun p => (p.link, p.key, p.payload)) =
        [(0, "a", []), (1, "a", [104]), (1, "b", [104]), (1, "b", [104]), (1, "a", [105]),
          (1, "b", [105]), (1, "a", []), (1, "b", []), (0, "b", [])] ∧
      garbled.world.acts = plain.world.acts.map (Act.map fun _ => [255]) ∧
      garbled.replies = plain.replies ∧
      garbled.world.log = plain.world.log ∧
      garbled.world.aside = plain.world.aside :=
  ⟨by decide +kernel,
    payloads_unseen (ScriptedStore.blind (fun _ => [255]) rfl) (w := meddled) rfl 1 crossed⟩

end Callers

end LogShipper
