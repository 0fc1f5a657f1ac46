import LogShipper.Proofs.Delivery.Plans
import LogShipper.Proofs.World.Gist

/-!
# Keys do not depend on each other

Two sends of one payload, or two batches of the same payloads, may meet a store that keeps different
cells of one key. Of every other key they show the same, report the same and leave the same, however
the pool, the links and the clock of the two worlds differ: both go by the plans of the keys
(`Plans.lean`), and a plan is used up by the pushes to its own key only.

Covers `send` and `send_bulk`.

Results:
* `ScriptedStore.obliging_cells`: what a scripted store remembers are cells.
* `World.discreet`: a world whose store remembers cells goes by their plans.
* `deliveries_independent`: two runs, of a send or of a batch.
-/

namespace LogShipper

open Delivery (Request Dialogue Engine Cell Cells Discreet)
open Scripted (PushAnswer Plan)

/-! ## Worlds that go by plans -/

/-- How cells reply to a push, and what they are then. -/
def Delivery.Cells.reply (m : Cells) (key : String) (payload : Bytes) :
    Except String Unit × Cells :=
  ((m key).plan 0, m.set key ((m key).next payload))

namespace Scripted

/-- What a push is answered with, if it does not lose its link. -/
def PushAnswer.reply : PushAnswer → Except String Unit
  | .accept => .ok ()
  | .reject reason => .error reason
  | .sever reason => .error reason

/-- The reply to the push with a number, from zero. -/
def Plan.reply (p : Plan) (n : Nat) : Except String Unit := (p.next[n]?.getD p.after).reply

end Scripted

namespace ScriptedStore

/-- What the store keeps of its keys. A key without a plan takes every push. -/
def cells (s : ScriptedStore) : Cells := fun key =>
  ⟨((s.plans.lookup key).getD {}).reply, s.list key⟩

theorem nextAnswer_reply (s : ScriptedStore) (key : String) :
    (s.nextAnswer key).1.reply = (s.cells key).plan 0 := by
  unfold nextAnswer cells
  cases s.plans.lookup key with
  | none => rfl
  | some plan =>
    obtain ⟨next, after⟩ := plan
    cases next <;> rfl

/-- An answer uses up one step of the plan of its key. -/
theorem nextAnswer_cells (s : ScriptedStore) (key : String) :
    (s.nextAnswer key).2.cells =
      s.cells.set key ⟨fun n => (s.cells key).plan (n + 1), s.list key⟩ := by
  have unchanged (hplan : ∀ n, (s.cells key).plan (n + 1) = (s.cells key).plan n) :
      s.cells = s.cells.set key ⟨fun n => (s.cells key).plan (n + 1), s.list key⟩ := by
    funext k
    by_cases hk : k = key
    · subst hk
      rw [Cells.set_self, funext hplan]
      rfl
    · rw [Cells.set_of_ne hk]
  unfold nextAnswer
  cases hlookup : s.plans.lookup key with
  | none => exact unchanged fun n => by simp [cells, hlookup, Plan.reply]
  | some plan =>
    obtain ⟨next, after⟩ := plan
    cases next with
    | nil => exact unchanged fun n => by simp [cells, hlookup, Plan.reply]
    | cons a rest =>
      funext k
      by_cases hk : k = key
      · subst hk
        simp only [cells, setPlan, lookup_put, Cells.set_self, hlookup, if_true]
        rfl
      · rw [Cells.set_of_ne hk]
        simp only [cells, setPlan, lookup_put, if_neg hk]
        rfl

theorem append_cells (s : ScriptedStore) (key : String) (payload : Bytes) :
    (s.append key payload).cells =
      s.cells.set key ⟨(s.cells key).plan, s.list key ++ [payload]⟩ := by
  funext k
  by_cases hk : k = key
  · subst hk
    rw [Cells.set_self]
    simp only [cells, list_append, if_true]
    rfl
  · rw [Cells.set_of_ne hk]
    simp only [cells, list_append, if_neg hk]
    rfl

/-- **What a scripted store remembers are cells**, if its script breaks and refuses no link. -/
theorem obliging_cells : transport.Obliging IsTame cells Cells.reply := by
  refine obliging.map (fun m => (ofMemory m).cells) Cells.reply fun m key payload => ?_
  have hreply := nextAnswer_reply (ofMemory m) key
  have hcells := nextAnswer_cells (ofMemory m) key
  unfold reply Cells.reply
  rw [← hreply]
  generalize (ofMemory m).nextAnswer key = got at hreply hcells ⊢
  obtain ⟨a, s⟩ := got
  have hkey : s.cells key =
      ⟨fun n => ((ofMemory m).cells key).plan (n + 1), (ofMemory m).list key⟩ := by
    rw [hcells, Cells.set_self]
  cases a with
  | accept =>
    refine Prod.ext rfl ?_
    show _ = (s.append key payload).cells
    have hlist : s.list key = (s.cells key).list := rfl
    rw [append_cells, hlist, hkey, hcells, Cells.set_set, Cell.next_of_ok hreply.symm]
    rfl
  | reject reason =>
    refine Prod.ext rfl ?_
    show _ = s.cells
    rw [hcells, Cell.next_of_error hreply.symm]
    rfl
  | sever reason =>
    refine Prod.ext rfl ?_
    show _ = s.cells
    rw [hcells, Cell.next_of_error hreply.symm]
    rfl

end ScriptedStore

namespace World

variable {σ : Type} {T : Transport σ} {tame : σ → Prop} {cells : σ → Cells}

/-- **A world whose store remembers cells** goes by their plans, under a token that nobody
cancels. -/
theorem discreet (hT : T.Obliging tame cells Cells.reply) (e : Engine) (depth : Nat)
    (token : Cancel.TokenId) :
    Discreet token (answer T e depth)
      (fun w => tame w.remote ∧ w.handles.forest.isCancelled token = false)
      (fun w => cells w.remote) where
  push link key payload w hw := by
    have hshows : Shows tame cells ⟨cells w.remote, attempts w.acts, w.handles⟩ w :=
      ⟨hw.1, rfl, rfl, rfl⟩
    obtain ⟨hanswer, hthen⟩ := shows_push hT e depth link key payload hshows
    refine ⟨hanswer, ⟨hthen.tame, ?_⟩, hthen.memory⟩
    rw [hthen.handles]
    exact hw.2
  wait ms w hw := by
    rw [answer_eq_patiently T e depth fun _ _ _ => Request.noConfusion]
    show (w.wait T e.pool token ms).1 = .elapsed
    unfold wait
    rw [if_neg (by rw [hw.2]; exact Bool.false_ne_true)]
  other r w hr hpush hw := by
    have hshows : Shows tame cells ⟨cells w.remote, attempts w.acts, w.handles⟩ w :=
      ⟨hw.1, rfl, rfl, rfl⟩
    have hthen := shows_answer hT e depth hr hpush hshows
    refine ⟨⟨hthen.tame, ?_⟩, hthen.memory⟩
    rw [hthen.handles]
    exact hw.2

end World

/-! ## Two runs -/

namespace Delivery

/-- A started engine's world, with a store that turns down the first push to the first key and goes
by a plan for the second one. -/
def stubborn (plan : Scripted.Plan) : World ScriptedStore where
  remote := { plans := [("a", { next := [.reject "LOADING"] }), ("b", plan)] }
  pool := { phase := .running }
  phase := .started

theorem stubborn_tame {plan : Scripted.Plan} (h : plan.IsKind) :
    (stubborn plan).remote.IsTame where
  broken := rfl
  refusing := rfl
  connectFailures := rfl
  pingFailures := rfl
  resetFailures := rfl
  hooks := rfl
  kind key p hp := by
    unfold stubborn at hp
    rw [ScriptedStore.lookup_cons_if, ScriptedStore.lookup_cons_if] at hp
    split at hp
    · obtain rfl := Option.some.inj hp
      unfold Scripted.Plan.IsKind
      decide
    · split at hp
      · obtain rfl := Option.some.inj hp
        exact h
      · cases hp

theorem stubborn_beside (p₁ p₂ : Scripted.Plan) :
    Cells.Beside "b" (stubborn p₁).remote.cells (stubborn p₂).remote.cells := by
  intro k hk
  unfold ScriptedStore.cells stubborn
  simp only [ScriptedStore.lookup_cons_if, if_neg hk]
  rfl

/-- Two sends show and report the same of all keys but `j`, and every key position is tried in
both. -/
def Engine.SendsAlike (e : Engine) (payload : Bytes) (token : Cancel.TokenId) (j : String)
    (t₁ t₂ : List Exchange) (r₁ r₂ : Except LifecycleError SendOutcome) : Prop :=
  ∃ c₁ c₂, e.SentAs payload token t₁ r₁ c₁ ∧ e.SentAs payload token t₂ r₂ c₂ ∧
    c₁.beside j = c₂.beside j

/-- Two batches show the same of all keys but `j`, for every payload, and every key position is
tried in both. -/
def Engine.BatchesAlike (e : Engine) (payloads : List Bytes) (j : String) (t₁ t₂ : List Exchange)
    (r₁ r₂ : Except LifecycleError BulkReport) : Prop :=
  ∃ courses₁ courses₂, e.BatchAs payloads t₁ r₁ courses₁ ∧ e.BatchAs payloads t₂ r₂ courses₂ ∧
    courses₁.map (Course.beside j) = courses₂.map (Course.beside j)

/-- **Delivery to a key does not depend on another key**: of two who answer by plans, from states
that keep the same of all keys but `j`, a send that gets a link has the same pushes answered alike
for each other key, reports it alike and leaves the same of it, and so does a batch. Whatever else
differs is of no account. -/
theorem deliveries_independent {σ₁ σ₂ : Type} {e : Engine} (hd : e.destination.IsValid)
    {token : Cancel.TokenId} {answer₁ : (r : Request) → σ₁ → r.Answer × σ₁} {I₁ : σ₁ → Prop}
    {cells₁ : σ₁ → Cells} (h₁ : Discreet token answer₁ I₁ cells₁)
    {answer₂ : (r : Request) → σ₂ → r.Answer × σ₂} {I₂ : σ₂ → Prop} {cells₂ : σ₂ → Cells}
    (h₂ : Discreet token answer₂ I₂ cells₂) (s₁ : σ₁) (s₂ : σ₂) (hs₁ : I₁ s₁) (hs₂ : I₂ s₂)
    {j : String} (hcells : Cells.Beside j (cells₁ s₁) (cells₂ s₂)) :
    (∀ payload, borrowed ((e.sendWith payload token).exchanges answer₁ s₁) ≠ none →
      borrowed ((e.sendWith payload token).exchanges answer₂ s₂) ≠ none →
      e.SendsAlike payload token j ((e.sendWith payload token).exchanges answer₁ s₁)
          ((e.sendWith payload token).exchanges answer₂ s₂)
          ((e.sendWith payload token).run answer₁ s₁).1
          ((e.sendWith payload token).run answer₂ s₂).1 ∧
        Cells.Beside j (cells₁ ((e.sendWith payload token).run answer₁ s₁).2)
          (cells₂ ((e.sendWith payload token).run answer₂ s₂).2)) ∧
    (token = e.token → ∀ payloads, borrowed ((e.sendBulk payloads).exchanges answer₁ s₁) ≠ none →
      borrowed ((e.sendBulk payloads).exchanges answer₂ s₂) ≠ none →
      e.BatchesAlike payloads j ((e.sendBulk payloads).exchanges answer₁ s₁)
          ((e.sendBulk payloads).exchanges answer₂ s₂) ((e.sendBulk payloads).run answer₁ s₁).1
          ((e.sendBulk payloads).run answer₂ s₂).1 ∧
        Cells.Beside j (cells₁ ((e.sendBulk payloads).run answer₁ s₁).2)
          (cells₂ ((e.sendBulk payloads).run answer₂ s₂).2)) := by
  constructor
  · intro payload hb₁ hb₂
    obtain ⟨c₁, hc₁, hshown₁, hleft₁⟩ :=
      h₁.send (Dialogue.trace_run _ _ _) hb₁ (answered_run _ _ _) hs₁
    obtain ⟨c₂, hc₂, hshown₂, hleft₂⟩ :=
      h₂.send (Dialogue.trace_run _ _ _) hb₂ (answered_run _ _ _) hs₂
    obtain ⟨hshown, hleft⟩ := e.foresee_beside hcells payload
    rw [← hshown₁, ← hshown₂] at hshown
    rw [← hleft₁, ← hleft₂] at hleft
    exact ⟨⟨c₁, c₂, hc₁, hc₂, by rw [c₁.beside_eq, c₂.beside_eq, hshown]⟩, hleft⟩
  · rintro rfl payloads hb₁ hb₂
    obtain ⟨courses₁, hc₁, hshown₁, hleft₁⟩ :=
      h₁.bulk hd (Dialogue.trace_run _ _ _) hb₁ (answered_run _ _ _) hs₁
    obtain ⟨courses₂, hc₂, hshown₂, hleft₂⟩ :=
      h₂.bulk hd (Dialogue.trace_run _ _ _) hb₂ (answered_run _ _ _) hs₂
    obtain ⟨hshown, hleft⟩ := e.foreseeAll_beside hcells payloads
    rw [← hshown₁, ← hshown₂] at hshown
    rw [← hleft₁, ← hleft₂] at hleft
    exact ⟨⟨courses₁, courses₂, hc₁, hc₂, Course.map_beside_congr hshown⟩, hleft⟩

/-- The second key turns every push down, or takes every one. -/
theorem deliveries_independent_stubborn :
    Engine.twoKeys.destination.IsValid ∧
      ((Engine.twoKeys.sendWith [104] 0).run
        (World.answer ScriptedStore.transport Engine.twoKeys 0)
        (stubborn { after := .reject "OOM" })).1.toOption =
          some (.failed (.undelivered ["b"] [])) ∧
      ((Engine.twoKeys.sendWith [104] 0).run
        (World.answer ScriptedStore.transport Engine.twoKeys 0) (stubborn {})).1.toOption =
          some .delivered ∧
      Engine.twoKeys.SendsAlike [104] 0 "b"
        ((Engine.twoKeys.sendWith [104] 0).exchanges
          (World.answer ScriptedStore.transport Engine.twoKeys 0)
          (stubborn { after := .reject "OOM" }))
        ((Engine.twoKeys.sendWith [104] 0).exchanges
          (World.answer ScriptedStore.transport Engine.twoKeys 0) (stubborn {}))
        ((Engine.twoKeys.sendWith [104] 0).run
          (World.answer ScriptedStore.transport Engine.twoKeys 0)
          (stubborn { after := .reject "OOM" })).1
        ((Engine.twoKeys.sendWith [104] 0).run
          (World.answer ScriptedStore.transport Engine.twoKeys 0) (stubborn {})).1 ∧
      Engine.twoKeys.BatchesAlike [[104], [105]] "b"
        ((Engine.twoKeys.sendBulk [[104], [105]]).exchanges
          (World.answer ScriptedStore.transport Engine.twoKeys 0)
          (stubborn { after := .reject "OOM" }))
        ((Engine.twoKeys.sendBulk [[104], [105]]).exchanges
          (World.answer ScriptedStore.transport Engine.twoKeys 0) (stubborn {}))
        ((Engine.twoKeys.sendBulk [[104], [105]]).run
          (World.answer ScriptedStore.transport Engine.twoKeys 0)
          (stubborn { after := .reject "OOM" })).1
        ((Engine.twoKeys.sendBulk [[104], [105]]).run
          (World.answer ScriptedStore.transport Engine.twoKeys 0) (stubborn {})).1 := by
  have rejecting : Scripted.Plan.IsKind { after := .reject "OOM" } := by
    unfold Scripted.Plan.IsKind
    decide
  have taking : Scripted.Plan.IsKind {} := by
    unfold Scripted.Plan.IsKind
    decide
  have byPlans := World.discreet ScriptedStore.obliging_cells Engine.twoKeys 0 0
  obtain ⟨sends, batches⟩ := deliveries_independent Engine.twoKeys_isValid byPlans byPlans
    (stubborn { after := .reject "OOM" }) (stubborn {}) ⟨stubborn_tame rejecting, by decide⟩
    ⟨stubborn_tame taking, by decide⟩ (stubborn_beside _ _)
  refine ⟨Engine.twoKeys_isValid, by decide +kernel, by decide +kernel, ?_, ?_⟩
  · exact (sends [104] (by decide +kernel) (by decide +kernel)).1
  · exact (batches rfl [[104], [105]] (by decide +kernel) (by decide +kernel)).1

end Delivery

end LogShipper
