import LogShipper.Proofs.Cancel.Reach
import LogShipper.Proofs.Delivery.Curbing

/-!
# Cancellation sticks, and bounds what is left of a send

A cancelled token stays cancelled, whatever is asked of the world afterwards, however much time
passes, and whatever calls are made from inside pushes. A wait on it is over at once. So a send
whose token is cancelled before it begins or during one of its pushes is curbed from then on: its
key is not tried again, each later key is tried once, nothing blocks, and what it reports and gives
back is as ever.

How the token came to be cancelled is of no account: by itself, with a token that it derives from,
or with the engine (`Lineage.reaches_iff`).

Covers `send_with_cancel` and `send_bulk` under `cancel` and `shutdown`.

Out of scope: a push that has begun; it is answered when the store answers it.

Results:
* `Stuck.answer`: every request keeps a token cancelled.
* `wait_stuck`: a wait on a cancelled token.
* `Moment.cut_short`: what is left of a send or of a batch whose token is cancelled.
-/

namespace LogShipper

/-! ## Tokens -/

namespace Cancel

variable {f : Forest} {h : Handles} {t u : TokenId}

namespace Forest

/-- A cancelled token is among those that were made. -/
theorem ne_length_of_isCancelled (hc : f.isCancelled u = true) : u ≠ f.tokens.length := by
  rintro rfl
  rw [isCancelled, List.getElem?_eq_none (Nat.le_refl _)] at hc
  exact Bool.false_ne_true hc

theorem isCancelled_add_of (hc : f.isCancelled u = true) (token : Token) :
    (f.add token).2.isCancelled u = true := by
  rw [isCancelled_add, if_neg (ne_length_of_isCancelled hc), hc]

theorem isCancelled_derive_of (hc : f.isCancelled u = true) (t : TokenId) :
    (f.derive t).2.isCancelled u = true := by
  rw [isCancelled_derive, if_neg (ne_length_of_isCancelled hc), hc]

end Forest

namespace Handles

/-- Names come and go without a change of what is cancelled. -/
theorem isCancelled_bind (h : Handles) (name : String) (t u : TokenId) :
    (h.bind name t).forest.isCancelled u = h.forest.isCancelled u := by
  show (h.drop name).forest.isCancelled u = _
  unfold drop
  split
  · rfl
  · exact Forest.isCancelled_release h.forest _ u

end Handles

end Cancel

namespace World

open Cancel (TokenId)
open Delivery (Request Exchange Dialogue PoolSettings Engine Call Ledger Step Turn Course AtPush
  SendOutcome BulkReport borrowed pushes comprises_send comprises_bulk)

variable {σ : Type} {T : Transport σ} {s : PoolSettings} {e : Engine} {token : TokenId}
  {w : World σ}

/-! ## Cancelled tokens stay cancelled -/

/-- Whether a token is cancelled in a state of the world. -/
def IsStuck (token : TokenId) (w : World σ) : Prop :=
  w.handles.forest.isCancelled token = true

namespace IsStuck

theorem congr {w₁ : World σ} (hw : IsStuck token w) (h : w₁.handles = w.handles) :
    IsStuck token w₁ := by
  rw [IsStuck, h]
  exact hw

/-- Time does not undo a cancellation. -/
theorem answerPatiently (hw : IsStuck token w) (r : Request) :
    IsStuck token (w.answerPatiently T s r).2 := by
  cases hr : r.isAside with
  | true => exact hw.congr (handles_answerPatiently T s hr w)
  | false =>
    cases r with
    | markStarted => exact hw
    | markStopped => exact hw
    | cancel t => exact Cancel.isCancelled_sweep_of _ _ hw
    | newToken name parent =>
      cases parent with
      | none =>
        exact (Cancel.Handles.isCancelled_bind _ name _ token).trans
          (Cancel.Forest.isCancelled_add_of hw {})
      | some parent =>
        exact (Cancel.Handles.isCancelled_bind _ name _ token).trans
          (Cancel.Forest.isCancelled_derive_of hw parent)
    | _ => exact absurd hr.symm Bool.false_ne_true

/-- **Whatever is asked, a cancelled token stays cancelled**, with any number of levels of calls
from inside pushes. The induction is on the levels. -/
theorem answer (hw : IsStuck token w) (depth : Nat) (r : Request) :
    IsStuck token (w.answer T e depth r).2 := by
  induction depth generalizing r w with
  | zero => exact hw.answerPatiently r
  | succ depth ih =>
    cases r with
    | push link key payload =>
      have begun : IsStuck token ({ w.record (.began link key payload) with
          remote := (T.beginPush link key payload w.remote).2 } : World σ) := hw
      exact calls_keep (I := IsStuck token)
        (fun c w => overheard c w ((c.dialogue e).run (World.answer T e depth) w))
        (fun c v hv => overheard_keeps (I := IsStuck token) (fun _ _ _ hv => hv)
          ((Dialogue.Only.all _).run (I := IsStuck token) (fun r v _ hv => ih hv r) hv))
        (fun _ _ hv => hv) (T.beginPush link key payload w.remote).1 begun
    | _ => exact hw.answerPatiently (T := T) (s := e.pool) _

end IsStuck

/-- **A wait on a cancelled token** is over at once. -/
theorem wait_stuck (hw : IsStuck token w) (depth ms : Nat) :
    w.answer T e depth (.wait token ms) = (.cancelled, w) := by
  rw [answer_eq_patiently T e depth fun _ _ _ => Request.noConfusion]
  exact if_pos hw

/-! ## What is left of a send -/

/-- A run falls into what was done until a token was cancelled, which is before the run or during
one of its pushes, and what was left to do then. -/
structure Cut {α : Type} (T : Transport σ) (e : Engine) (depth : Nat) (d : Dialogue α)
    (w : World σ) (token : TokenId) (done todo : List (Step (World σ))) : Prop where
  steps : d.steps (answer T e depth) w = done ++ todo
  at_push : AtPush (done.map Step.exchange)
  stuck : IsStuck token (Dialogue.stateAfter done w)

/-- What becomes of the turns of a run that is cut, and of the world. -/
structure Bounded (e : Engine) (done todo : List (Step (World σ))) (turns : List Turn)
    (before after : World σ) : Prop where
  /-- Earlier turns have ended with the push at the cut, later ones have one push each. -/
  curbed : ∃ earlier later, turns = earlier ++ later ∧
    e.Curbed (done.map Step.exchange) (todo.map Step.exchange) earlier later
  /-- A wait behind the cut takes no time and changes nothing. -/
  prompt : ∀ x ∈ todo, x.exchange.isWait = true → x.after = x.before
  /-- The link that was borrowed is back, and with it all that were borrowed meanwhile. -/
  returned : after.pool.lent.Perm before.pool.lent

namespace Cut

variable {α : Type} {depth : Nat} {d : Dialogue α} {done todo : List (Step (World σ))}
  (h : Cut T e depth d w token done todo)
include h

theorem exchanges_eq : d.exchanges (World.answer T e depth) w =
    done.map Step.exchange ++ todo.map Step.exchange := by
  rw [← Dialogue.exchanges_steps, h.steps, List.map_append]

/-- **Waits behind the cut** are cancelled, and leave the world as it is. -/
theorem waits (hwaits : ∀ x ∈ d.exchanges (World.answer T e depth) w, x.isWait = true →
      ∃ ms, x.request = .wait token ms) {x : Step (World σ)} (hx : x ∈ todo)
    (hwait : x.exchange.isWait = true) :
    x.exchange.isCancelledWait = true ∧ x.after = x.before := by
  obtain ⟨hstuck, hanswer, hafter⟩ :=
    Dialogue.steps_later (I := IsStuck token) (fun r v hv => hv.answer depth r) h.steps h.stuck x hx
  have hmem : x.exchange ∈ d.exchanges (World.answer T e depth) w := by
    rw [h.exchanges_eq]
    exact List.mem_append_right _ (List.mem_map_of_mem hx)
  obtain ⟨ms, hrequest⟩ := hwaits _ hmem hwait
  obtain ⟨before, ⟨r, y⟩, after⟩ := x
  obtain rfl : r = .wait token ms := hrequest
  have answered := wait_stuck (T := T) (e := e) hstuck depth ms
  dsimp only at hanswer hafter
  rw [answered] at hanswer hafter
  obtain rfl : y = .cancelled := hanswer
  exact ⟨rfl, hafter⟩

/-- A run that comprises turns is bounded behind the cut. -/
theorem bounded {turns : List Turn}
    (hc : e.Comprises token (d.exchanges (World.answer T e depth) w) turns) {w₁ : World σ}
    (hreturned : w₁.pool.lent.Perm w.pool.lent) : Bounded e done todo turns w w₁ where
  curbed := by
    refine hc.curbed h.exchanges_eq h.at_push fun x hx hwait => ?_
    obtain ⟨step, hstep, rfl⟩ := List.mem_map.mp hx
    exact (h.waits hc.wait_token hstep hwait).1
  prompt _ hx hwait := (h.waits hc.wait_token hx hwait).2
  returned := hreturned

end Cut

/-- A talk that settles gives back what it borrows. -/
theorem Moment.returned {α : Type} {d : Dialogue α} (hw : Moment T e w)
    (hd : ∀ h : Ledger, h.Clean → d.Settles h) (depth : Nat) :
    (d.run (answer T e depth) w).2.pool.lent.Perm w.pool.lent := by
  obtain ⟨h, hc, hk⟩ := hw.kept
  have after := keeps_run (hd h hc) (custody_answer (T := T) e depth) hk
  refine List.perm_iff_count.mpr fun l => ?_
  rw [after.2.lent l, hk.2.lent l]

/-- What a send comes to whose token is cancelled at a cut. -/
def SendBounded (e : Engine) (payload : Bytes) (token : TokenId) (done todo : List (Step (World σ)))
    (w : World σ) (t : List Exchange) (r : Except LifecycleError SendOutcome × World σ) : Prop :=
  ∃ turns outcome, r.1 = .ok outcome ∧ e.Spans payload token t turns ∧
    e.Truthful payload t turns outcome ∧
    ((∀ p ∈ pushes t, p.isLoss = false) → turns.map Turn.key = e.destination.keys) ∧
    Bounded e done todo turns w r.2

/-- What a batch comes to if the engine's token is cancelled at a cut. -/
def BulkBounded (e : Engine) (payloads : List Bytes) (done todo : List (Step (World σ)))
    (w : World σ) (t : List Exchange) (r : Except LifecycleError BulkReport × World σ) : Prop :=
  ∃ courses report, r.1 = .ok report ∧ e.Covers payloads t courses ∧
    e.Accounts payloads t courses report ∧
    ((∀ p ∈ pushes t, p.isLoss = false) → courses.map Course.payload = payloads ∧
      ∀ c ∈ courses, c.turns.map Turn.key = e.destination.keys) ∧
    Bounded e done todo (courses.flatMap Course.turns) w r.2

/-- **Cancellation bounds what is left of a send** that has borrowed a link, and of a batch. The
token of a send is any one, the engine's or another; that of a batch is the engine's. -/
theorem Moment.cut_short (hw : Moment T e w) (depth : Nat) (done todo : List (Step (World σ))) :
    (∀ payload token, Cut T e depth (e.sendWith payload token) w token done todo →
      borrowed ((e.sendWith payload token).exchanges (answer T e depth) w) ≠ none →
      SendBounded e payload token done todo w
        ((e.sendWith payload token).exchanges (answer T e depth) w)
        ((e.sendWith payload token).run (answer T e depth) w)) ∧
    ∀ payloads, Cut T e depth (e.sendBulk payloads) w e.token done todo →
      borrowed ((e.sendBulk payloads).exchanges (answer T e depth) w) ≠ none →
      BulkBounded e payloads done todo w
        ((e.sendBulk payloads).exchanges (answer T e depth) w)
        ((e.sendBulk payloads).run (answer T e depth) w) := by
  constructor
  · intro payload token hcut hb
    obtain ⟨turns, outcome, hr, hcomprises, hspans, htruthful, hkeys⟩ :=
      comprises_send (Dialogue.trace_run (answer T e depth) (e.sendWith payload token) w) hb
    exact ⟨turns, outcome, hr, hspans, htruthful, hkeys, hcut.bounded hcomprises
      (hw.returned (fun h hc => e.sendWith_settles hc payload token) depth)⟩
  · intro payloads hcut hb
    obtain ⟨courses, report, hr, hcomprises, hcovers, haccounts, hkeys⟩ :=
      comprises_bulk (Dialogue.trace_run (answer T e depth) (e.sendBulk payloads) w) hb
    exact ⟨courses, report, hr, hcovers, haccounts, hkeys, hcut.bounded hcomprises
      (hw.returned (fun h hc => e.sendBulk_settles hc payloads) depth)⟩

/-- A started engine with its token, and a store that turns every push down; from inside the first
push the engine is shut down. -/
def overtaken : World ScriptedStore :=
  (World.call ScriptedStore.transport Engine.twoKeys 0 .startup
    { remote := {
        plans := [("a", { after := .reject "OOM" }), ("b", { after := .reject "OOM" })]
        hooks := [(1, .shutdown (some 0))] }
      handles := { forest := { tokens := [{}] } } }).2

/-- A send in that world, step by step. -/
def overtakenSend : List (Step (World ScriptedStore)) :=
  (Engine.twoKeys.sendWith [104] 0).steps (answer ScriptedStore.transport Engine.twoKeys 1) overtaken

/-- A batch in that world, step by step. -/
def overtakenBulk : List (Step (World ScriptedStore)) :=
  (Engine.twoKeys.sendBulk [[104], [105]]).steps
    (answer ScriptedStore.transport Engine.twoKeys 1) overtaken

/-- Of the three tries that the policy allows, each key gets one. -/
theorem Moment.cut_short_overtaken :
    (pushes (overtakenBulk.map Step.exchange)).map (fun p => (p.key, p.payload)) =
        [("a", [104]), ("b", [104]), ("a", [105]), ("b", [105])] ∧
      SendBounded Engine.twoKeys [104] 0 (overtakenSend.take 4) (overtakenSend.drop 4) overtaken
        ((Engine.twoKeys.sendWith [104] 0).exchanges
          (answer ScriptedStore.transport Engine.twoKeys 1) overtaken)
        ((Engine.twoKeys.sendWith [104] 0).run
          (answer ScriptedStore.transport Engine.twoKeys 1) overtaken) ∧
      BulkBounded Engine.twoKeys [[104], [105]] (overtakenBulk.take 6) (overtakenBulk.drop 6)
        overtaken
        ((Engine.twoKeys.sendBulk [[104], [105]]).exchanges
          (answer ScriptedStore.transport Engine.twoKeys 1) overtaken)
        ((Engine.twoKeys.sendBulk [[104], [105]]).run
          (answer ScriptedStore.transport Engine.twoKeys 1) overtaken) := by
  have moment : Moment ScriptedStore.transport Engine.twoKeys overtaken :=
    .call (.fresh rfl rfl rfl) 0 .startup
  -- the first push is the fourth request of the send, and the sixth one of the batch
  have send : Cut ScriptedStore.transport Engine.twoKeys 1 (Engine.twoKeys.sendWith [104] 0)
      overtaken 0 (overtakenSend.take 4) (overtakenSend.drop 4) := by
    refine ⟨(List.take_append_drop 4 overtakenSend).symm, ?_, ?_⟩
    · unfold AtPush
      decide +kernel
    · unfold IsStuck
      decide +kernel
  have bulk : Cut ScriptedStore.transport Engine.twoKeys 1 (Engine.twoKeys.sendBulk [[104], [105]])
      overtaken 0 (overtakenBulk.take 6) (overtakenBulk.drop 6) := by
    refine ⟨(List.take_append_drop 6 overtakenBulk).symm, ?_, ?_⟩
    · unfold AtPush
      decide +kernel
    · unfold IsStuck
      decide +kernel
  refine ⟨by decide +kernel, ?_, ?_⟩
  · exact (Moment.cut_short moment 1 _ _).1 [104] 0 send (by decide +kernel)
  · exact (Moment.cut_short moment 1 _ _).2 [[104], [105]] bulk (by decide +kernel)

end World

end LogShipper
