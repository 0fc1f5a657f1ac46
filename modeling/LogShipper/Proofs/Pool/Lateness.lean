import LogShipper.Proofs.Pool.Tenancy

/-!
# Links that come back late

A shutdown that has waited long enough lets go of a pool while links of it are still outstanding.
Whoever has one of them has the whole pool with it. So the links that are idle then stay open, and a
link that comes back goes through the same checks as ever: one that is in order goes back among the
idle ones. Only with the last one that comes back are all of them closed.

Covers `release` and the end of a lease after a `shutdown`.

Results:
* `Settles.release`: a link that is given back is put back or dropped after its checks.
* `Parted`, `release_parts`: what that does to a pool.
* `Sound.shutdown_closes_iff`, `Sound.comesBack`: which links are closed by a shutdown, and when one
  comes back later.
* `lateness`: when links are closed from the end of a pool on.
-/

namespace LogShipper

open Delivery (Request Dialogue PoolSettings)

namespace World

variable {σ : Type} (T : Transport σ) (s : PoolSettings) {w v : World σ} {link : LinkId}

/-! ## Giving back a link -/

/-- Whether a link that is given back goes back among the idle ones: it is in good health, passes
the checks, and not as many are idle as the pool keeps. -/
def retains (link : LinkId) (healthy : Bool) (w : World σ) : Bool :=
  healthy &&
    match w.reset T link with
    | (.error _, _) => false
    | (.ok (), w) =>
      (!s.config.testOnReturn || (w.ping T link).1.toBool) &&
        w.pool.idle.length < s.config.maxIdle.toNat

/-- A link was given back, and is idle again or was dropped. If nothing held the pool then, all its
idle links have gone. -/
structure Parted (link : LinkId) (retained : Bool) (w w' : World σ) : Prop where
  opened : w'.pool.opened = w.pool.opened
  lent : w'.pool.lent = w.pool.lent.erase link
  idle : w'.pool.idle =
    if w.pool.phase = .shutDown ∧ w.pool.lent.erase link = [] then []
    else if retained then link :: w.pool.idle
    else w.pool.idle

variable {T s}

theorem Parted.congr {retained : Bool} {w' : World σ} (h : v.Parted link retained w')
    (hpool : v.pool = w.pool) : w.Parted link retained w' := by
  obtain ⟨opened, lent, idle⟩ := h
  rw [hpool] at opened lent idle
  exact ⟨opened, lent, idle⟩

/-- Nothing is left of a pool that nothing holds; any other one stays as it is. -/
theorem settleForsaken_pool (w : World σ) :
    (w.settleForsaken T).pool.opened = w.pool.opened ∧
      (w.settleForsaken T).pool.idle =
        if w.pool.phase = .shutDown ∧ w.pool.lent = [] then [] else w.pool.idle := by
  unfold settleForsaken
  by_cases hf : w.pool.isForsaken = true
  · rw [if_pos hf, if_pos (isForsaken_iff.mp hf), closeAll_pool]
    exact ⟨rfl, rfl⟩
  · rw [if_neg hf, if_neg fun h => hf (isForsaken_iff.mpr h)]
    exact ⟨rfl, rfl⟩

theorem giveBack_parts (link : LinkId) (w : World σ) : w.Parted link true (w.giveBack T link) where
  opened := (settleForsaken_pool _).1
  lent := giveBack_lent T link w
  idle := (settleForsaken_pool _).2

theorem discard_parts (link : LinkId) (w : World σ) :
    w.Parted link false (w.discard T s link) := by
  obtain ⟨os, hos⟩ := Pool.refill_eq s.config w.clock { w.pool with lent := w.pool.lent.erase link }
  have settled := settleForsaken_pool (T := T)
    (({ w with pool := w.pool.drop s.config w.clock link } : World σ).close T link)
  have dropped :
      (({ w with pool := w.pool.drop s.config w.clock link } : World σ).close T link).pool =
        { w.pool with lent := w.pool.lent.erase link, openings := os } := hos
  rw [dropped] at settled
  exact ⟨settled.1, discard_lent T s link w, settled.2⟩

/-! ## The talk of one who gives back a link -/

/-- A talk that takes only care of links lets no time pass. -/
theorem run_patiently {α : Type} {d : Dialogue α} (hd : d.Cares) (w : World σ) :
    d.run (answerPatiently T s) w = d.run (answerNow T s) w := by
  obtain ⟨hresult, hworld⟩ : (d.run (answerPatiently T s) w).1 = (d.run (answerNow T s) w).1 ∧
      (d.run (answerNow T s) w).2 = (d.run (answerPatiently T s) w).2 := by
    refine hd.run_congr (R := Eq) (fun r v w hr hvw => ?_) rfl
    rw [hvw, answerPatiently_of_isCare T s hr]
    exact ⟨rfl, rfl⟩
  exact Prod.ext hresult hworld.symm

variable (T) in
/-- The store after the checks of a link that is given back. -/
def inspected (test : Bool) (link : LinkId) (healthy : Bool) (remote : σ) : σ :=
  if healthy then
    match T.reset link remote with
    | (.error _, remote) => remote
    | (.ok (), remote) => if test then (T.ping link remote).2 else remote
  else remote

/-- A link was put back or dropped, with the store in some state. -/
structure Settles (T : Transport σ) (s : PoolSettings) (link : LinkId) (retained : Bool)
    (remote : σ) (w v w' : World σ) : Prop where
  pool : v.pool = w.pool
  rest : v.rest = w.rest
  remote : v.remote = remote
  after : w' = if retained then v.giveBack T link else v.discard T s link

namespace Settles

variable {retained : Bool} {remote : σ} {w₁ w' : World σ}

theorem congr (h : Settles T s link retained remote w₁ v w') (hpool : w₁.pool = w.pool)
    (hrest : w₁.rest = w.rest) : Settles T s link retained remote w v w' :=
  ⟨h.pool.trans hpool, h.rest.trans hrest, h.remote, h.after⟩

theorem dropped (link : LinkId) (w : World σ) :
    Settles T s link false w.remote w w (w.discard T s link) := ⟨rfl, rfl, rfl, rfl⟩

theorem putBack (link : LinkId) (w : World σ) :
    ∃ v, Settles T s link (w.pool.idle.length < s.config.maxIdle.toNat) w.remote w v
      ((s.putBack link).run (answerNow T s) w).2 := by
  show ∃ v, Settles T s link _ _ w v
    (Dialogue.run _ (if s.config.maxIdle.toNat ≤ w.pool.idle.length then _ else _) w).2
  by_cases hfull : s.config.maxIdle.toNat ≤ w.pool.idle.length
  · rw [decide_eq_false (Nat.not_lt.mpr hfull), if_pos hfull]
    exact ⟨w.raise _, (dropped link (w.raise _)).congr rfl rfl⟩
  · rw [decide_eq_true (Nat.lt_of_not_le hfull), if_neg hfull]
    exact ⟨w, rfl, rfl, rfl, rfl⟩

theorem checkReturned (link : LinkId) (w : World σ) :
    ∃ v, Settles T s link ((!s.config.testOnReturn || (w.ping T link).1.toBool) &&
        w.pool.idle.length < s.config.maxIdle.toNat)
      (if s.config.testOnReturn then (T.ping link w.remote).2 else w.remote) w v
      ((s.checkReturned link).run (answerNow T s) w).2 := by
  unfold PoolSettings.checkReturned
  cases hcheck : s.config.testOnReturn with
  | false => exact putBack link w
  | true =>
    have remote : (w.ping T link).2.remote = (T.ping link w.remote).2 := rfl
    have pool : (w.ping T link).2.pool = w.pool := rfl
    have rest : (w.ping T link).2.rest = w.rest := rfl
    simp only [if_true, Dialogue.run, answerNow]
    rw [← remote]
    revert pool rest
    generalize w.ping T link = answered
    obtain ⟨x, w₁⟩ := answered
    intro pool rest
    cases x with
    | ok _ =>
      obtain ⟨v, hv⟩ := putBack (T := T) (s := s) link w₁
      rw [pool] at hv
      exact ⟨v, hv.congr pool rest⟩
    | error e => exact ⟨w₁.raise _, (dropped link (w₁.raise _)).congr pool rest⟩

/-- **Giving back a link**: after its checks it is put back or dropped. -/
theorem release (link : LinkId) (healthy : Bool) (w : World σ) :
    ∃ v, Settles T s link (w.retains T s link healthy)
      (inspected T s.config.testOnReturn link healthy w.remote) w v
      ((s.release link healthy).run (answerNow T s) w).2 := by
  unfold PoolSettings.release retains inspected
  cases healthy with
  | false => exact ⟨w.raise _, (dropped link (w.raise _)).congr rfl rfl⟩
  | true =>
    rcases hx : T.reset link w.remote with ⟨x, remote⟩
    have answered : w.reset T link =
        (x, ({ w with remote } : World σ).record (.reset link x)) := by
      unfold reset
      rw [hx]
    simp only [if_true, Dialogue.run, answerNow, Bool.true_and, answered]
    cases x with
    | ok _ =>
      obtain ⟨v, hv⟩ := checkReturned (T := T) (s := s) link
        (({ w with remote } : World σ).record (.reset link (.ok ())))
      exact ⟨v, hv.congr rfl rfl⟩
    | error e => exact ⟨_, (dropped link (({ w with remote } : World σ).record
        (.reset link (.error e)) |>.raise _)).congr rfl rfl⟩

theorem parts (h : Settles T s link retained remote w v w') : w.Parted link retained w' := by
  rw [h.after]
  cases retained with
  | true => exact (giveBack_parts link v).congr h.pool
  | false => exact (discard_parts link v).congr h.pool

end Settles

/-- **What giving back a link does to a pool.** -/
theorem release_parts (link : LinkId) (healthy : Bool) (w : World σ) :
    w.Parted link (w.retains T s link healthy)
      ((s.release link healthy).run (answerPatiently T s) w).2 := by
  rw [run_patiently (s.release_cares link healthy)]
  obtain ⟨v, hv⟩ := Settles.release (T := T) (s := s) link healthy w
  exact hv.parts

/-- A link is closed between two states of a world. -/
def Closes (w w' : World σ) (l : LinkId) : Prop :=
  closings w.acts l = 0 ∧ closings w'.acts l = 1

end World

/-! ## To a pool that was shut down -/

namespace Tenancy

variable {σ : Type} {T : Transport σ} {s : PoolSettings} {t : Tenancy σ} {link : LinkId}

/-- What is closed when a link comes back to a pool that was shut down: that link if it is the last
one or is not retained, and the idle ones if it is the last one. -/
structure ComesBack (link : LinkId) (retained : Bool) (t t' : Tenancy σ) : Prop where
  itself : t.world.Closes t'.world link ↔ t'.outstanding = [] ∨ retained = false
  others : ∀ k ∈ t.world.pool.idle, (t.world.Closes t'.world k ↔ t'.outstanding = [])

theorem Sound.comesBack (ht : Sound s t) (hp : t.world.pool.phase = .shutDown)
    (hl : link ∈ t.leases) {d : Dialogue Unit} {retained : Bool}
    (after : Sound s (t.part T s d link))
    (parts : t.world.Parted link retained
      (d.run (World.answerPatiently T s) t.world).2) :
    ComesBack link retained t (t.part T s d link) := by
  have census := ht.rented.census
  have census' := after.rented.census
  have hlent : link ∈ t.world.pool.lent :=
    ht.rented.lent.symm.subset (List.mem_append_left _ hl)
  have world : (t.part T s d link).world = (d.run (World.answerPatiently T s) t.world).2 := by
    unfold Tenancy.part
    rw [if_pos hl]
    rfl
  rw [← world] at parts
  have last : t.world.pool.lent.erase link = [] ↔ (t.part T s d link).outstanding = [] := by
    rw [← parts.lent]
    exact after.lent_eq_nil_iff
  have idle' : (t.part T s d link).world.pool.idle =
      if (t.part T s d link).outstanding = [] then []
      else if retained then link :: t.world.pool.idle
      else t.world.pool.idle := by
    rw [parts.idle]
    simp only [hp, last, true_and]
  constructor
  · obtain ⟨hopened, hopen, hidle⟩ := census.of_lent hlent
    have gone : link ∉ (t.part T s d link).world.pool.lent := by
      have := census.count_lent_le link
      rw [parts.lent, ← List.count_eq_zero, List.count_erase_self]
      omega
    have closed := census'.closed_iff (parts.opened.symm ▸ hopened) gone
    unfold World.Closes
    rw [closed, idle']
    by_cases hnone : (t.part T s d link).outstanding = []
    · simp [hnone, hopen]
    · cases retained with
      | true => simp [hnone]
      | false => simp [hnone, hopen, hidle]
  · intro k hk
    obtain ⟨hopened, hopen, hnot⟩ := census.of_idle hk
    have gone : k ∉ (t.part T s d link).world.pool.lent := by
      rw [parts.lent]
      exact fun hmem => hnot (List.mem_of_mem_erase hmem)
    have closed := census'.closed_iff (parts.opened.symm ▸ hopened) gone
    unfold World.Closes
    rw [closed, idle']
    by_cases hnone : (t.part T s d link).outstanding = []
    · simp [hnone, hopen]
    · cases retained with
      | true => simp [hnone, hk]
      | false => simp [hnone, hk]

/-- When a shutdown returns, the links that were idle are closed if nothing is outstanding. -/
theorem Sound.shutdown_closes_iff (ht : Sound s t) (hrun : t.isRunning) (ms : Option Nat)
    {k : LinkId} (hk : k ∈ (t.world.awaited T s ms).pool.idle) :
    (t.world.awaited T s ms).Closes (t.step T s (.shutdown ms)).world k ↔
      (t.step T s (.shutdown ms)).outstanding = [] := by
  have after := ht.step (T := T) (.shutdown ms)
  have waited : (t.world.awaited T s ms).Rented s t.leases :=
    World.steady_rented.drain ms
      (ht.rented.congr rfl t.world.pool.alike_close rfl)
  obtain ⟨log, hshut⟩ := World.shutdown_of_running T s hrun ms
  have pool : (t.step T s (.shutdown ms)).world.pool =
      ((t.world.awaited T s ms).settleForsaken T).pool := by
    simp only [Tenancy.step, hold, hshut]
  obtain ⟨opened, idle⟩ := World.settleForsaken_pool (T := T) (t.world.awaited T s ms)
  have lent := World.settleForsaken_lent T (t.world.awaited T s ms)
  rw [← pool] at opened idle lent
  have last : (t.world.awaited T s ms).pool.lent = [] ↔
      (t.step T s (.shutdown ms)).outstanding = [] := by
    rw [← lent]
    exact after.lent_eq_nil_iff
  obtain ⟨hopened, hopen, hnot⟩ := waited.census.of_idle hk
  have closed := after.rented.census.closed_iff (opened.symm ▸ hopened) (lent.symm ▸ hnot)
  unfold World.Closes
  rw [closed, idle]
  simp only [World.awaited_phase, last, true_and]
  by_cases hnone : (t.step T s (.shutdown ms)).outstanding = []
  · simp [hnone, hopen]
  · simp [hnone, hk]

/-- When links are closed by a shutdown, and later on. -/
structure Lateness (T : Transport σ) (s : PoolSettings) (ms : Option Nat) (t ended : Tenancy σ) :
    Prop where
  /-- The links that are idle when the shutdown has waited are closed when it returns, unless some
  are outstanding then. -/
  at_once : t.isRunning → ∀ k ∈ (t.world.awaited T s ms).pool.idle,
    ((t.world.awaited T s ms).Closes (t.step T s (.shutdown ms)).world k ↔
      (t.step T s (.shutdown ms)).outstanding = [])
  /-- Later on, when a link is given back. -/
  released : ∀ link healthy, link ∈ ended.leases →
    ComesBack link (ended.world.retains T s link healthy) ended
      (ended.step T s (.release link healthy))
  /-- Later on, when the holder of a link goes away. -/
  lapsed : ∀ link, link ∈ ended.leases → ComesBack link true ended (ended.step T s (.lapse link))

/-- **When links are closed from the end of a pool on**: idle ones when nothing is outstanding any
more, and one that comes back when it is dropped, or was the last. -/
theorem lateness (T : Transport σ) (s : PoolSettings) (remote : σ) (before later : List (Deed σ))
    (ms : Option Nat) : Lateness T s ms (run T s ⟨{ remote }, []⟩ before)
      (((run T s ⟨{ remote }, []⟩ before).step T s (.shutdown ms)).run T s later) := by
  have sound : Sound s (run T s ⟨{ remote }, []⟩ before) := (sound_start remote).run before
  have sound' := (sound.step (T := T) (.shutdown ms)).run (T := T) later
  have ended := phase_run (T := T) (s := s)
    (t := (run T s ⟨{ remote }, []⟩ before).step T s (.shutdown ms))
    (World.phase_shutdown_pool ms _) later
  refine ⟨fun hrun k hk => sound.shutdown_closes_iff hrun ms hk, ?_, ?_⟩
  · intro link healthy hl
    exact sound'.comesBack ended hl (sound'.step (.release link healthy))
      (World.release_parts link healthy _)
  · intro link hl
    exact sound'.comesBack ended hl (sound'.step (.lapse link)) (World.giveBack_parts link _)

/-- A shutdown that did not wait, with one link idle and two outstanding: the idle link stays open,
and so does the first one that comes back. -/
theorem left_open :
    let t := run ScriptedStore.transport { endpoint := { host := "localhost" }, config := {} }
      ⟨{ remote := {} }, []⟩
      [.startup, .acquire, .acquire, .acquire, .release 0 true, .shutdown (some 0)]
    t.world.pool.idle = [0] ∧ closings t.world.acts 0 = 0 ∧ t.leases = [2, 1] ∧
      closings (t.step ScriptedStore.transport
        { endpoint := { host := "localhost" }, config := {} }
        (.release 1 true)).world.acts 1 = 0 := by
  decide +kernel

end Tenancy

end LogShipper
