import LogShipper.Proofs.Cancel.Lineage
import LogShipper.Proofs.World.Lifecycle

/-!
# How far a cancellation reaches

A cancellation, and with it the shutdown of an engine, reaches those tokens that were derived
through live ones. A token that somebody still holds does not hear of it if a token in between has
lost its last handle: parents are linked to their children only as long as they live.

Covers `child_token`, `cancel` and the shutdown of an engine, with the copies of handles and their
end.

Results:
* `handles_shutdown`: shutting an engine down cancels its token, and does nothing else to tokens.
* `Lineage.reaches_iff`: the tokens that hear of a cancellation.
* `Lineage.not_reached`: one that does not.
-/

namespace LogShipper

open Delivery (Request Dialogue Engine Call PoolSettings)

namespace World

variable {σ : Type} (T : Transport σ)

/-- Requests about links leave the tokens alone, however long they wait. -/
theorem handles_answerPatiently (s : PoolSettings) {r : Request} (hr : r.isAside = true)
    (w : World σ) : (w.answerPatiently T s r).2.handles = w.handles := by
  have steady : Steady T s fun w₁ => w₁.handles = w.handles :=
    .of_rest fun v v₁ hh _ _ hv => hh.trans hv
  have now := congrArg Rest.handles (rest_answerNow T s hr w)
  cases r with
  | drain ms => exact steady.drain ms rfl
  | wait token ms => exact steady.wait token ms rfl
  | borrow =>
    exact steady.borrow_keeps (fun _ hv => hv) (fun _ hv => hv)
      (fun _ _ _ hv hb => (congrArg Rest.handles hb.rest).trans hv) rfl
  | _ => exact now

/-- **Shutting an engine down** cancels its token, and does nothing else to tokens. -/
theorem handles_shutdown (e : Engine) (depth : Nat) (ms : Option Nat) {w : World σ}
    (hw : w.phase ≠ .stopped) :
    (w.call T e depth (.shutdown ms)).2.handles = w.handles.cancel e.token := by
  have parting (r : Request) (v : World σ) (hr : r.isParting = true)
      (hv : v.handles = w.handles.cancel e.token) :
      (v.answer T e depth r).2.handles = w.handles.cancel e.token := by
    have push : ∀ link key payload, r ≠ .push link key payload := by
      rintro link key payload rfl
      exact Bool.false_ne_true hr
    have aside : r.isAside = true := by
      cases r <;> first | rfl | exact absurd hr Bool.false_ne_true
    rw [answer_eq_patiently T e depth push, handles_answerPatiently T e.pool aside, hv]
  show ((Call.dialogue e (.shutdown ms)).run (answer T e depth) w).2.handles = _
  rw [run_call_shutdown, run_shutdown_part T e depth hw]
  exact (e.part_parts ms).run parting rfl

end World

namespace Cancel.Lineage

/-- The lineage comes from some run. -/
def Reachable (l : Lineage) : Prop := ∃ n ops, l = (start n).run ops

/-- A token is cancelled already, or hears of it when `t` is cancelled. -/
def Hears (l : Lineage) (t u : TokenId) : Prop :=
  l.handles.forest.isCancelled u = true ∨ l.Unbroken t u

/-- **The tokens that hear of a cancellation**: of those derived from the cancelled token, those
that were derived through live ones. The shutdown of an engine reaches the same tokens as the
cancellation of its token. -/
theorem reaches_iff {l : Lineage} {t u : TokenId} (hl : l.Reachable)
    (ht : l.handles.forest.isAlive t = true) (hu : l.handles.forest.isAlive u = true)
    (hd : l.Derived t u) :
    ((l.handles.cancel t).forest.isCancelled u = true ↔ l.Hears t u) ∧
      ∀ {σ : Type} (T : Transport σ) (e : Engine) (depth : Nat) (ms : Option Nat) (w : World σ),
        w.handles = l.handles → e.token = t → w.phase ≠ .stopped →
          ((w.call T e depth (.shutdown ms)).2.handles.forest.isCancelled u = true ↔
            l.Hears t u) := by
  have hs : l.Sound := by
    obtain ⟨n, ops, rfl⟩ := hl
    exact sound_run n ops
  have law : (l.handles.cancel t).forest.isCancelled u = true ↔ l.Hears t u :=
    hs.isCancelled_cancel_iff ht hu hd
  refine ⟨law, ?_⟩
  intro σ T e depth ms w hw he hp
  rw [World.handles_shutdown T e depth ms hp, hw, he]
  exact law

/-- Tokens 0, 1 and 2, each derived from the one before; the first one is held elsewhere. -/
def unbroken : Lineage := (start 1).run [.derive "b" (.elsewhere 0), .derive "c" (.name "b")]

/-- The same, with the token in between dropped. -/
def broken : Lineage :=
  (start 1).run [.derive "b" (.elsewhere 0), .derive "c" (.name "b"), .drop "b"]

/-- The grandchild hears of the cancellation, and of the shutdown of the engine. -/
theorem reached : (unbroken.handles.cancel 0).forest.isCancelled 2 = true ∧
    (World.call ScriptedStore.transport Engine.twoKeys 0 (.shutdown none)
      { remote := {}, handles := unbroken.handles, phase := .started }).2.handles.forest.isCancelled
        2 = true := by
  have h := reaches_iff (l := unbroken) (t := 0) (u := 2) ⟨1, _, rfl⟩ (by decide) (by decide)
    (.step (p := 1) (.child rfl) rfl)
  have hears : unbroken.Hears 0 2 := .inr (.step (p := 1) (.child rfl) (by decide) rfl)
  exact ⟨h.1.mpr hears, (h.2 _ _ _ _ _ rfl rfl Phase.noConfusion).mpr hears⟩

/-- **Not every derived token hears of a cancellation**: the grandchild does not, once the token in
between is dropped. -/
theorem not_reached : broken.Reachable ∧ broken.handles.forest.isAlive 0 = true ∧
    broken.handles.forest.isAlive 2 = true ∧ broken.Derived 0 2 ∧
      (broken.handles.cancel 0).forest.isCancelled 2 = false :=
  ⟨⟨1, _, rfl⟩, by decide, by decide, .step (p := 1) (.child rfl) rfl, by decide⟩

end Cancel.Lineage

end LogShipper
