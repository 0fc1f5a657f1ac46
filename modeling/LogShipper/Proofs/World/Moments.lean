import LogShipper.Proofs.Delivery.Truth
import LogShipper.Proofs.World.Custody
import LogShipper.Proofs.World.Passing

/-!
# No link leaks, and none is used once it has failed

Every answer to a talk that keeps to the rules of the ledger keeps the custody of the links, while
time passes and while calls are made from inside pushes. A `Moment` is a state of the world in which
a call may be made: before any, after others, or from inside a push of another one.

Covers `send`, `send_with_cancel`, `send_bulk`, `startup` and `shutdown` with `acquire` and
`release` under them, over one engine.

Results:
* `custody_answer`: what answers do, with any number of levels of calls from inside pushes.
* `Moment.kept`: custody at every moment.
* `Moment.accounts`: calls give back what they borrow, and a link that has failed is closed once.
-/

namespace LogShipper

open Delivery (Ledger Standing)

/-! ## While time passes -/

namespace World

open Delivery (Request Dialogue PoolSettings Engine Call ledger)
open Delivery.Dialogue (Upholds Reaches)

variable {σ : Type} {T : Transport σ} {s : PoolSettings} {h : Ledger} {w w₁ : World σ}

/-- The custody of the links, with nobody else to give any back. -/
def Keeps (s : PoolSettings) (h : Ledger) (w : World σ) : Prop :=
  w.errands = [] ∧ Custody s.config h w.acts w.pool

theorem keeps_settleOpening (hk : Keeps s h w) {index : Nat}
    (hi : index < w.pool.openings.length) : Keeps s h (w.settleOpening T s index) := by
  obtain ⟨herrands, hc⟩ := hk
  unfold settleOpening
  dsimp only
  split
  · exact ⟨herrands, hc.arrive hi⟩
  · rename_i e remote _
    have postponed : Custody s.config h w.acts (w.pool.postpone s.config w.clock index e.message) :=
      hc.congr (w.pool.alike_postpone s.config _ _ _)
    exact ⟨herrands, postponed.note rfl (fun _ => rfl) fun _ => rfl⟩

theorem upholds_answerNow : Upholds ledger (Keeps s) (answerNow (σ := σ) T s) := by
  intro h r w hk hr
  obtain ⟨herrands, hc⟩ := hk
  obtain ⟨hadmits, hafter⟩ := hc.answerNow (T := T) hr
  exact ⟨hadmits, (errands_answerNow T s r w).trans herrands, hafter⟩

/-- A talk that settles keeps the custody. -/
theorem keeps_run {α : Type} {d : Dialogue α}
    {answer : (r : Request) → World σ → r.Answer × World σ} (hd : d.Settles h)
    (hu : Upholds ledger (Keeps s) answer) (hk : Keeps s h w) :
    Keeps s h (d.run answer w).2 := by
  obtain ⟨h', rfl, hrun⟩ := hd.run hu hk
  exact hrun

theorem steady_keeps (h : Ledger) : Steady T s (Keeps s h) where
  clock _ _ hk := hk
  opening _ _ hk hi := keeps_settleOpening hk hi
  errand w index hk := by
    have hnone : w.errands[index]? = none := by rw [hk.1]; rfl
    unfold happen
    dsimp only
    rw [hnone]
    exact hk
  eviction w hk _ := by
    have hrun := keeps_run (s.evict_settles h) (upholds_answerNow (T := T)) hk
    exact ⟨hrun.1, hrun.2.congr ⟨rfl, rfl, rfl, Nat.le_refl _⟩⟩

/-- What holds once a borrower has a link. -/
def Lends (s : PoolSettings) (h : Ledger) (l : LinkId) (w : World σ) : Prop :=
  h l = .away ∧ Keeps s (h.set l .sound) w

theorem keeps_borrow (hk : Keeps s h w) :
    Steady.Granted (Keeps s h) (Lends s h) (w.borrow T s) := by
  refine (steady_keeps h).borrow (fun v hv => ?_) (fun v hv => ?_) (fun v v₁ x hv hb => ?_) hk
  · exact ⟨hv.1, hv.2.openOne v.clock⟩
  · exact ⟨hv.1, hv.2.congr v.alike_giveUp⟩
  · have herrands : v₁.errands = [] := (congrArg Rest.errands hb.rest).trans hv.1
    have hborrowed := hv.2.borrowed hb
    cases x with
    | none => exact ⟨herrands, hborrowed.2⟩
    | some l => exact ⟨hborrowed.1, herrands, hborrowed.2⟩

/-- Answers that take their time keep the custody. -/
theorem upholds_answerPatiently : Upholds ledger (Keeps s) (answerPatiently (σ := σ) T s) := by
  intro h r w hk hr
  cases r with
  | borrow =>
    refine (keeps_borrow (T := T) hk).elim (P := fun got => ledger.admits h .borrow got.1 ∧
      Keeps s (ledger.after h .borrow got.1) got.2) ?_ ?_
    · intro link w₁ lends
      exact lends
    · intro reason w₁ keeps
      exact ⟨trivial, keeps⟩
  | drain ms => exact ⟨trivial, (steady_keeps h).drain ms hk⟩
  | wait token ms => exact ⟨trivial, (steady_keeps h).wait token ms hk⟩
  | _ => exact upholds_answerNow (T := T) h _ w hk hr

/-! ## Calls from inside pushes -/

theorem keeps_overheard {c : Call} {x : Delivery.Reply × World σ} (hk : Keeps s h x.2) :
    Keeps s h (overheard c w x).2 :=
  overheard_keeps (fun _ _ _ hv => hv) hk

/-- **Answers with any number of levels of calls from inside pushes.** The induction is on the
levels: calls leave the ledger as it was, so the link that is pushed over is still sound. -/
theorem custody_answer (e : Engine) (depth : Nat) :
    Upholds ledger (Keeps e.pool) (answer (σ := σ) T e depth) := by
  induction depth with
  | zero => exact upholds_answerPatiently
  | succ depth ih =>
    intro h r w hk hr
    cases r with
    | push link key payload =>
      have began : Keeps e.pool h { w.record (.began link key payload) with
          remote := (T.beginPush link key payload w.remote).2 } :=
        ⟨hk.1, hk.2.began hr.1 key payload⟩
      have called := calls_keep
        (fun c w => overheard c w ((c.dialogue e).run (answer T e depth) w))
        (fun c v hv => keeps_overheard (keeps_run (c.settles e hr.2) ih hv))
        (fun v reply hv => ⟨hv.1, hv.2.note rfl (fun _ => rfl) fun _ => rfl⟩)
        (T.beginPush link key payload w.remote).1 began
      exact ⟨trivial, called.1, called.2.ended hr.1 key payload _⟩
    | _ => exact upholds_answerPatiently (T := T) h _ w hk hr

/-! ## Moments -/

/-- A state in which a call may be made on an engine. -/
inductive Moment (T : Transport σ) (e : Engine) : World σ → Prop where
  /-- Nothing has happened yet. -/
  | fresh {w : World σ} (hpool : w.pool = {}) (hacts : w.acts = []) (herrands : w.errands = []) :
      Moment T e w
  /-- The store has changed by itself. -/
  | store {w : World σ} (hw : Moment T e w) (remote : σ) : Moment T e { w with remote }
  | pass {w : World σ} (hw : Moment T e w) (limit : Nat) : Moment T e (w.pass T e.pool limit)
  /-- A call has come back. -/
  | call {w : World σ} (hw : Moment T e w) (depth : Nat) (c : Call) :
      Moment T e (w.call T e depth c).2
  /-- Inside a push of a call. -/
  | inside {w w₁ : World σ} (hw : Moment T e w) {depth : Nat} {c : Call} {link : LinkId}
      {key : String} {payload : Bytes}
      (hr : Reaches (answer T e depth) (c.dialogue e) w (.push link key payload) w₁) :
      Moment T e { w₁.record (.began link key payload) with
        remote := (T.beginPush link key payload w₁.remote).2 }
  /-- Inside a push, after a call that came back. -/
  | called {w : World σ} (hw : Moment T e w) (reply : Delivery.Reply) :
      Moment T e (w.record (.called reply))

variable {e : Engine}

theorem keeps_call (hk : Keeps e.pool h w) (hc : h.Clean) (depth : Nat) (c : Call) :
    Keeps e.pool h (w.call T e depth c).2 :=
  keeps_overheard (keeps_run (c.settles e hc) (custody_answer e depth) hk)

/-- **Custody at every moment**, and no link is at hand that has failed. -/
theorem Moment.kept (hw : Moment T e w) : ∃ h : Ledger, h.Clean ∧ Keeps e.pool h w := by
  induction hw with
  | fresh hpool hacts herrands =>
    refine ⟨fun _ => .away, fun _ => Standing.noConfusion, herrands, ?_⟩
    rw [hpool, hacts]
    exact .empty e.pool.config
  | store _ remote ih =>
    obtain ⟨h, hc, hk⟩ := ih
    exact ⟨h, hc, hk⟩
  | pass _ limit ih =>
    obtain ⟨h, hc, hk⟩ := ih
    exact ⟨h, hc, (steady_keeps h).pass hk⟩
  | call _ depth c ih =>
    obtain ⟨h, hc, hk⟩ := ih
    exact ⟨h, hc, keeps_call hk hc depth c⟩
  | inside _ hr ih =>
    obtain ⟨h, hc, hk⟩ := ih
    obtain ⟨h', hallows, hk'⟩ := (Call.settles e hc _).reaches (custody_answer e _) hk hr
    exact ⟨h', hallows.2, hk'.1, hk'.2.began hallows.1 _ _⟩
  | called _ reply ih =>
    obtain ⟨h, hc, hk⟩ := ih
    exact ⟨h, hc, hk.1, hk.2.note rfl (fun _ => rfl) fun _ => rfl⟩

/-! ## What becomes of links -/

/-- Every link has one end: it is closed once if it has failed, and not used from then on; else it
is lent, or idle once, or closed once. -/
structure Accounted (w : World σ) : Prop where
  failed : ∀ l, hasFailed w.acts l = true →
    closings w.acts l = 1 ∧ l ∉ w.pool.idle ∧ l ∉ w.pool.lent
  unused : ∀ (newer older : List Act) (a : Act) (l : LinkId), w.acts = newer ++ a :: older →
    a.fails l = true → ∀ b ∈ newer, b.uses l = false
  placed : ∀ l, 0 < openings w.acts l → l ∉ w.pool.lent →
    (closings w.acts l = 1 ∧ l ∉ w.pool.idle) ∨
      (closings w.acts l = 0 ∧ w.pool.idle.count l = 1)

theorem Keeps.accounted (hk : Keeps s h w) (hc : h.Clean) : w.Accounted where
  failed l hl := by
    have hidle : l ∉ w.pool.idle := by
      intro hi
      rw [hk.2.idle l hi] at hl
      exact Bool.false_ne_true hl
    have haway : h l = .away := by
      cases hs : h l with
      | away => rfl
      | sound =>
        rw [hk.2.sound l hs] at hl
        exact absurd hl Bool.false_ne_true
      | spoilt => exact absurd hs (hc l)
    have hlent : l ∉ w.pool.lent := fun hmem => hk.2.lent.mem_iff.mp hmem haway
    have hopened := hk.2.census.opened l
    have hplaced := hk.2.census.placed l
    rw [if_pos (hk.2.known l hl)] at hopened
    rw [List.count_eq_zero.mpr hidle, List.count_eq_zero.mpr hlent] at hplaced
    exact ⟨by omega, hidle, hlent⟩
  unused newer older a l heq ha b hb := (heq ▸ hk.2.orderly : Orderly _).not_used ha hb
  placed l hl hlent := by
    have hle := hk.2.census.openings_le l
    have hplaced := hk.2.census.placed l
    rw [List.count_eq_zero.mpr hlent] at hplaced
    by_cases hidle : l ∈ w.pool.idle
    · have := List.count_pos_iff.mpr hidle
      exact .inr ⟨by omega, by omega⟩
    · rw [List.count_eq_zero.mpr hidle] at hplaced
      exact .inl ⟨by omega, hidle⟩

/-- **No link leaks, and none is used once it has failed.** At every moment of every run of an
engine the record and the pool account for every link; and every call gives back what it
borrows. -/
theorem Moment.accounts (hw : Moment T e w) : w.Accounted ∧
    ∀ (depth : Nat) (c : Call), (w.call T e depth c).2.pool.lent.Perm w.pool.lent ∧
      (w.call T e depth c).2.Accounted := by
  obtain ⟨h, hc, hk⟩ := hw.kept
  refine ⟨hk.accounted hc, fun depth c => ?_⟩
  have after := keeps_call (T := T) hk hc depth c
  refine ⟨List.perm_iff_count.mpr fun l => ?_, after.accounted hc⟩
  rw [after.2.lent l, hk.2.lent l]

/-- A store that loses the link with the second push, and from inside the first one shuts the engine
down and sends once more. -/
def severing : ScriptedStore where
  plans := [("b", { after := .sever "reset by peer" })]
  hooks := [(1, .shutdown (some 0)), (1, .send [105])]

/-- The world after an engine was started and a payload was sent over the link that is lost. -/
def severed : World ScriptedStore :=
  (World.call ScriptedStore.transport Engine.twoKeys 1 (.send [104])
    (World.call ScriptedStore.transport Engine.twoKeys 0 .startup { remote := severing }).2).2

/-- The lost link is accounted for. -/
theorem Moment.accounts_severed : hasFailed severed.acts 0 = true ∧ severed.Accounted := by
  refine ⟨by decide +kernel, ?_⟩
  exact (Moment.accounts (.call (.call (.fresh rfl rfl rfl) 0 .startup) 1 (.send [104]))).1

end World

end LogShipper
