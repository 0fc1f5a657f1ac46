import LogShipper.Proofs.World.Rent
import LogShipper.Rehearsal.Pool

/-!
# The end of a pool

`Tenancy` is a pool and the leases of those who have borrowed from it. What is done with a pool is
done as a whole here: a `Tenancy.Deed` is over before the next one begins, and it is answered as one
that waits is answered (`World.answerPatiently`). While somebody waits, links can be given back by
others, to whom their holders have left them before.

A tenancy is sound (`Tenancy.Sound`) if the links that are lent are just those that are outstanding,
and if a pool that was never started has nothing in it, while of one that was shut down nothing is
left once nothing is outstanding.

Covers `startup`, `acquire`, `release`, `shutdown` and `evict_idle`, one after the other.

Results:
* `shutdown_of_running`: the end of a pool that runs.
* `Sound.step`, `Sound.run`: one deed, and any number of them.
* `phase_run`, `outstanding_run`: a pool that was shut down stays so, and lends no more.
* `farewell`: what a shutdown answers, what the pool says from then on, and how often links are
  closed in the end.
-/

namespace LogShipper

open Delivery (Request Dialogue PoolSettings Ledger)

/-! ## Talks about a pool -/

namespace World

variable {σ : Type} (T : Transport σ) (s : PoolSettings) {w : World σ}

/-- Nobody leaves a link to others in a talk. -/
theorem steady_errands (errands : List Errand) :
    Steady T s fun w : World σ => w.errands.Sublist errands where
  clock _ _ hw := hw
  opening w index hw _ := by
    unfold settleOpening
    dsimp only
    split <;> exact hw
  errand w index hw := by
    unfold happen
    dsimp only
    split
    · exact hw
    · rename_i e _
      have kept : ((s.release e.link e.healthy).run (answerNow T s)
          { w with errands := w.errands.eraseIdx index }).2.errands = w.errands.eraseIdx index :=
        (s.release_cares e.link e.healthy).run
          (I := fun v : World σ => v.errands = w.errands.eraseIdx index)
          (fun r v _ hv => (errands_answerNow T s r v).trans hv) rfl
      have sub := (List.eraseIdx_sublist w.errands index).trans hw
      rw [← kept] at sub
      exact sub
  eviction w hw _ := by
    have kept : (s.evict.run (answerNow T s) w).2.errands = w.errands :=
      s.evict_cares.run (I := fun v : World σ => v.errands = w.errands)
        (fun r v _ hv => (errands_answerNow T s r v).trans hv) rfl
    rw [← kept] at hw
    exact hw

theorem errands_run {α : Type} (d : Dialogue α) (w : World σ) :
    (d.run (answerPatiently T s) w).2.errands.Sublist w.errands := by
  refine (Dialogue.Only.all d).run (I := fun v : World σ => v.errands.Sublist w.errands)
    (fun r v _ hv => ?_) (List.Sublist.refl _)
  have steady := steady_errands T s w.errands
  have now (r : Request) : (v.answerNow T s r).2.errands.Sublist w.errands := by
    rw [errands_answerNow]
    exact hv
  cases r with
  | borrow =>
    refine steady.borrow_keeps (fun _ hu => hu) (fun _ hu => hu) (fun u u₁ _ hu hb => ?_) hv
    have same : u₁.errands = u.errands := congrArg Rest.errands hb.rest
    rw [same]
    exact hu
  | drain ms => exact steady.drain ms hv
  | wait token ms => exact steady.wait token ms hv
  | _ => exact now _

theorem startup_of_created (hp : w.pool.phase = .created) :
    ∃ entry, s.startup.run (answerPatiently T s) w =
      (.ok (), ({ w with pool := w.pool.start s.config w.clock } : World σ).raise entry) := by
  simp only [PoolSettings.startup, Dialogue.run, answerPatiently, answerNow, hp]
  exact ⟨_, rfl⟩

theorem startup_of_running (hp : w.pool.phase = .running) :
    ∃ entry, s.startup.run (answerPatiently T s) w = (.ok (), w.raise entry) := by
  simp only [PoolSettings.startup, Dialogue.run, answerPatiently, answerNow, hp]
  exact ⟨_, rfl⟩

theorem startup_of_shutDown (hp : w.pool.phase = .shutDown) :
    s.startup.run (answerPatiently T s) w = (.error .shutDown, w) := by
  simp only [PoolSettings.startup, Dialogue.run, answerPatiently, answerNow, hp]

theorem acquire_of_created (hp : w.pool.phase = .created) :
    Delivery.acquire.run (answerPatiently T s) w = (.error .notStarted, w) := by
  simp only [Delivery.acquire, Dialogue.run, answerPatiently, answerNow, hp]

theorem acquire_of_running (hp : w.pool.phase = .running) :
    Delivery.acquire.run (answerPatiently T s) w =
      ((w.borrow T s).1.mapError .unavailable, (w.borrow T s).2) := by
  simp only [Delivery.acquire, Delivery.borrow, Dialogue.run, answerPatiently, answerNow, hp]
  cases (w.borrow T s).1 <;> rfl

theorem acquire_of_shutDown (hp : w.pool.phase = .shutDown) :
    Delivery.acquire.run (answerPatiently T s) w = (.error .shutDown, w) := by
  simp only [Delivery.acquire, Dialogue.run, answerPatiently, answerNow, hp]

/-- The end of a pool that does not run. -/
theorem shutdown_of_not_running (hp : w.pool.phase ≠ .running) (ms : Option Nat) :
    (s.shutdown ms).run (answerPatiently T s) w = (true, { w with pool := w.pool.close }) := by
  cases hphase : w.pool.phase with
  | running => exact absurd hphase hp
  | _ => simp only [PoolSettings.shutdown, Dialogue.run, answerPatiently, answerNow, hphase]

/-- A world once the end of its pool has waited for the links that are lent. -/
def awaited (ms : Option Nat) (w : World σ) : World σ :=
  (({ w with pool := w.pool.close } : World σ).drain T s ms).2

theorem closeAll_log (links : List LinkId) (w : World σ) (log : List LogEntry) :
    closeAll T links { w with log } = { closeAll T links w with log } := by
  induction links generalizing w with
  | nil => rfl
  | cons link links ih => exact ih (w.close T link)

/-- What is logged makes no difference to the end of a pool. -/
theorem settleForsaken_raise (w : World σ) (before after : LogEntry) :
    ∃ log, ((w.raise before).settleForsaken T).raise after =
      { w.settleForsaken T with log } := by
  refine ⟨after :: before :: w.log, ?_⟩
  unfold raise settleForsaken
  split
  · rw [closeAll_log T _ { w with pool := w.pool.forsake } (before :: w.log)]
  · rfl

/-- **The end of a pool that runs**: it waits, then lets go of the pool, and answers whether no link
was lent when it had waited. -/
theorem shutdown_of_running (hp : w.pool.phase = .running) (ms : Option Nat) :
    ∃ log, (s.shutdown ms).run (answerPatiently T s) w =
      (decide ((w.awaited T s ms).pool.lent.length = 0),
        { (w.awaited T s ms).settleForsaken T with log }) := by
  have answered : (({ w with pool := w.pool.close } : World σ).drain T s ms) =
      ((w.awaited T s ms).pool.lent.length, w.awaited T s ms) := rfl
  by_cases hlent : (w.awaited T s ms).pool.lent.length = 0
  · simp only [PoolSettings.shutdown, Dialogue.run, answerPatiently, answerNow, hp, answered,
      hlent, ne_eq, not_true_eq_false, if_false]
    exact ⟨_, rfl⟩
  · simp only [PoolSettings.shutdown, Dialogue.run, answerPatiently, answerNow, hp, answered]
    rw [if_pos hlent, decide_eq_false hlent]
    exact (settleForsaken_raise T (w.awaited T s ms) _ _).imp fun _ h => Prod.ext rfl h

theorem answerPatiently_of_isCare {r : Request} (hr : r.isCare = true) (w : World σ) :
    w.answerPatiently T s r = w.answerNow T s r := by
  cases r <;> first | rfl | exact absurd hr Bool.false_ne_true

variable {T s}

/-- Taking care of links leaves a pool tended. -/
theorem Tended.run {α : Type} {d : Dialogue α} (hd : d.Cares) (h : w.Tended) :
    (d.run (answerPatiently T s) w).2.Tended := by
  refine hd.run (I := Tended) (fun r v hr hv => ?_) h
  rw [answerPatiently_of_isCare T s hr]
  exact hv.answerNow hr

/-- A pool is set up, unless it is already or was shut down. -/
theorem tended_startup (h : w.Untouched ∨ w.Tended) :
    (s.startup.run (answerPatiently T s) w).2.Tended := by
  cases hp : w.pool.phase with
  | created =>
    obtain ⟨entry, hrun⟩ := startup_of_created T s hp
    rw [hrun]
    exact tended_of_running (refill_phase s.config w.clock _)
  | running =>
    obtain ⟨entry, hrun⟩ := startup_of_running T s hp
    rw [hrun]
    exact tended_of_running hp
  | shutDown =>
    rw [startup_of_shutDown T s hp]
    rcases h with h | h
    · rw [h.1] at hp
      cases hp
    · exact h

theorem awaited_phase (ms : Option Nat) (w : World σ) :
    (w.awaited T s ms).pool.phase = .shutDown :=
  congrArg Phases.pool ((steady_phases T s ⟨w.phase, .shutDown⟩).drain ms rfl)

theorem phase_settleForsaken (w : World σ) : (w.settleForsaken T).pool.phase = w.pool.phase :=
  congrArg Phases.pool (phases_settleForsaken T w)

/-- Whatever a pool has been through, its end leaves it shut down. -/
theorem phase_shutdown_pool (ms : Option Nat) (w : World σ) :
    ((s.shutdown ms).run (answerPatiently T s) w).2.pool.phase = .shutDown := by
  by_cases hp : w.pool.phase = .running
  · obtain ⟨log, hrun⟩ := shutdown_of_running T s hp ms
    rw [hrun]
    exact (phase_settleForsaken (w.awaited T s ms)).trans (awaited_phase ms w)
  · rw [shutdown_of_not_running T s hp]
    rfl

/-- The end of a pool leaves it tended. -/
theorem tended_shutdown (h : w.Untouched ∨ w.Tended) (ms : Option Nat) :
    ((s.shutdown ms).run (answerPatiently T s) w).2.Tended := by
  by_cases hp : w.pool.phase = .running
  · obtain ⟨log, hrun⟩ := shutdown_of_running T s hp ms
    rw [hrun]
    have begun : (w.awaited T s ms).pool.phase ≠ .created := by
      rw [awaited_phase]
      exact PoolPhase.noConfusion
    exact (tended_settleForsaken (T := T) begun).congr rfl
  · rw [shutdown_of_not_running T s hp]
    refine ⟨PoolPhase.noConfusion, fun hf => ?_⟩
    rcases h with h | h
    · rw [h.1]
      exact ⟨rfl, rfl⟩
    · refine h.forsaken (isForsaken_iff.mpr ⟨?_, (isForsaken_iff.mp hf).2⟩)
      cases hphase : w.pool.phase with
      | created => exact absurd hphase h.begun
      | running => exact absurd hphase hp
      | shutDown => rfl

end World

/-! ## Deeds -/

/-- A pool, and the leases of those who have borrowed from it. -/
structure Tenancy (σ : Type) where
  world : World σ
  leases : List LinkId := []

namespace Tenancy

variable {σ : Type} (T : Transport σ) (s : PoolSettings)

/-- Something done with a pool, as a whole. -/
inductive Deed (σ : Type) where
  | startup
  | acquire
  /-- The holder of a lease gives it back. -/
  | release (link : LinkId) (healthy : Bool)
  /-- The holder of a lease goes away. -/
  | lapse (link : LinkId)
  /-- The holder of a lease leaves it to somebody who will give it back some time later. -/
  | entrust (link : LinkId) (delay : Nat) (healthy : Bool)
  | push (link : LinkId) (key : String) (payload : Bytes)
  | evict
  /-- An opening succeeds or fails. -/
  | opening (index : Nat)
  | pass (limit : Nat)
  | shutdown (ms : Option Nat)
  /-- The pool itself is let go of. -/
  | abandon
  /-- The store changes by itself. -/
  | store (remote : σ)

/-- The links that somebody has: those who have borrowed them, and those to whom they left them. -/
def outstanding (t : Tenancy σ) : List LinkId := t.leases ++ t.world.entrusted

/-- Whether the pool runs. -/
def isRunning (t : Tenancy σ) : Prop := t.world.pool.phase = .running

instance (t : Tenancy σ) : Decidable t.isRunning := inferInstanceAs (Decidable (_ = _))

/-- Holds a talk. -/
def hold {α : Type} (d : Dialogue α) (t : Tenancy σ) : Tenancy σ :=
  { t with world := (d.run (World.answerPatiently T s) t.world).2 }

/-- The holder of a lease parts with it in a talk. -/
def part (d : Dialogue Unit) (link : LinkId) (t : Tenancy σ) : Tenancy σ :=
  if link ∈ t.leases then { t.hold T s d with leases := t.leases.erase link } else t

/-- A borrower asks for a link, and has a lease if it gets one. -/
def acquire (t : Tenancy σ) : Tenancy σ :=
  match Delivery.acquire.run (World.answerPatiently T s) t.world with
  | (.ok link, world) => { world, leases := link :: t.leases }
  | (.error _, world) => { t with world }

/-- What a deed does. -/
def step (t : Tenancy σ) : Deed σ → Tenancy σ
  | .startup => t.hold T s s.startup
  | .acquire => t.acquire T s
  | .release link healthy => t.part T s (s.release link healthy) link
  | .lapse link => t.part T s (Delivery.PoolSettings.lapse link) link
  | .entrust link delay healthy =>
    if link ∈ t.leases then
      let errand := { due := t.world.clock + delay, link, healthy }
      { world := { t.world with errands := t.world.errands ++ [errand] }
        leases := t.leases.erase link }
    else t
  | .push link key payload =>
    if link ∈ t.leases then t.hold T s (.request (.push link key payload)) else t
  | .evict => if t.isRunning then t.hold T s s.evict else t
  | .opening index =>
    if index < t.world.pool.openings.length then
      { t with world := t.world.settleOpening T s index }
    else t
  | .pass limit => { t with world := t.world.pass T s limit }
  | .shutdown ms => t.hold T s (s.shutdown ms)
  | .abandon => if t.isRunning then t.hold T s (s.shutdown (some 0)) else t
  | .store remote => { t with world := { t.world with remote } }

/-- One deed after the other. -/
def run (t : Tenancy σ) (deeds : List (Deed σ)) : Tenancy σ := deeds.foldl (step T s) t

/-! ## What every tenancy keeps to -/

/-- The links that are lent are just those that are outstanding; a pool that was never started has
nothing, and of one that was shut down nothing is left once nothing is outstanding. -/
structure Sound (s : PoolSettings) (t : Tenancy σ) : Prop where
  rented : t.world.Rented s t.leases
  kept : t.world.Untouched ∨ t.world.Tended

variable {T s} {t : Tenancy σ}

theorem sound_start (remote : σ) : Sound s ⟨{ remote }, []⟩ where
  rented := ⟨.empty s.config, .refl _⟩
  kept := .inl ⟨rfl, rfl⟩

/-- Whoever holds a lease holds it of a pool that was started. -/
theorem Sound.tended {link : LinkId} (ht : Sound s t) (hl : link ∈ t.leases) :
    t.world.Tended := by
  rcases ht.kept with h | h
  · have hlent : link ∈ t.world.pool.lent :=
      ht.rented.lent.symm.subset (List.mem_append_left _ hl)
    rw [h.1] at hlent
    exact absurd hlent List.not_mem_nil
  · exact h

theorem Sound.lease {link : LinkId} (ht : Sound s t) (hl : link ∈ t.leases) :
    t.world.Rented s (link :: t.leases.erase link) :=
  ht.rented.perm ((List.perm_cons_erase hl).append_right _)

theorem Sound.part {d : Dialogue Unit} {link : LinkId} (ht : Sound s t) (hd : d.Cares)
    (holds : d.Abides Delivery.holder [link] fun _ held' => held'.Perm ([link].erase link)) :
    Sound s (t.part T s d link) := by
  unfold Tenancy.part
  split
  · rename_i hl
    exact ⟨(ht.lease hl).giving World.upholds_rented holds, .inr ((ht.tended hl).run hd)⟩
  · exact ht

theorem Sound.acquire (ht : Sound s t) : Sound s (t.acquire T s) := by
  unfold Tenancy.acquire
  cases hp : t.world.pool.phase with
  | created =>
    rw [World.acquire_of_created T s hp]
    exact ht
  | shutDown =>
    rw [World.acquire_of_shutDown T s hp]
    exact ht
  | running =>
    rw [World.acquire_of_running T s hp]
    have still : (t.world.borrow T s).2.pool.phase = .running :=
      (congrArg Phases.pool (World.phases_answerPatiently T s (r := .borrow) rfl t.world)).trans hp
    have tended := World.tended_of_running still
    have granted := ht.rented.borrow (T := T)
    revert tended granted
    generalize t.world.borrow T s = got
    obtain ⟨x, w⟩ := got
    intro tended granted
    cases x with
    | ok link => exact ⟨granted, .inr tended⟩
    | error reason => exact ⟨granted, .inr tended⟩

theorem Sound.entrust {link : LinkId} (ht : Sound s t) (hl : link ∈ t.leases) (due : Nat)
    (healthy : Bool) :
    Sound s ⟨{ t.world with errands := t.world.errands ++ [⟨due, link, healthy⟩] },
      t.leases.erase link⟩ := by
  refine ⟨⟨ht.rented.census, ?_⟩, .inr ((ht.tended hl).congr rfl)⟩
  have moved : (link :: t.leases.erase link ++ t.world.entrusted).Perm
      (t.leases.erase link ++ (t.world.entrusted ++ [link])) := by
    rw [← List.append_assoc]
    exact (List.perm_append_singleton link _).symm
  refine ((ht.lease hl).lent.trans moved).trans (.of_eq ?_)
  unfold World.entrusted
  rw [List.map_append]
  rfl

/-- **One deed.** -/
theorem Sound.step (ht : Sound s t) (deed : Deed σ) : Sound s (t.step T s deed) := by
  cases deed with
  | startup =>
    exact ⟨ht.rented.settling World.upholds_rented (s.startup_settles _),
      .inr (World.tended_startup ht.kept)⟩
  | acquire => exact ht.acquire
  | release link healthy =>
    exact ht.part (s.release_cares link healthy) (World.release_holds s link healthy)
  | lapse link => exact ht.part (.ask rfl fun _ => .done) (World.lapse_holds link)
  | entrust link delay healthy =>
    simp only [Tenancy.step]
    split
    · rename_i hl
      exact ht.entrust hl _ healthy
    · exact ht
  | push link key payload =>
    simp only [Tenancy.step]
    split
    · rename_i hl
      refine ⟨⟨(ht.rented.census.record rfl).record rfl, ht.rented.lent⟩, .inr ?_⟩
      exact (ht.tended hl).congr rfl
    · exact ht
  | evict =>
    simp only [Tenancy.step]
    split
    · rename_i hrun
      exact ⟨ht.rented.settling World.upholds_rented (s.evict_settles _),
        .inr ((World.tended_of_running hrun).run s.evict_cares)⟩
    · exact ht
  | opening index =>
    simp only [Tenancy.step]
    split
    · rename_i hi
      refine ⟨ht.rented.settleOpening hi, ?_⟩
      exact ht.kept.imp (World.steady_untouched.opening _ index · hi)
        (World.steady_tended.opening _ index · hi)
    · exact ht
  | pass limit =>
    exact ⟨World.steady_rented.pass ht.rented,
      ht.kept.imp World.steady_untouched.pass World.steady_tended.pass⟩
  | shutdown ms =>
    exact ⟨ht.rented.settling World.upholds_rented (s.shutdown_settles ms _),
      .inr (World.tended_shutdown ht.kept ms)⟩
  | abandon =>
    simp only [Tenancy.step]
    split
    · exact ⟨ht.rented.settling World.upholds_rented (s.shutdown_settles _ _),
        .inr (World.tended_shutdown ht.kept _)⟩
    · exact ht
  | store remote =>
    exact ⟨ht.rented.congr rfl ⟨rfl, rfl, rfl, Nat.le_refl _⟩ rfl,
      ht.kept.imp (fun h => h) (·.congr rfl)⟩

/-- **Any number of deeds.** -/
theorem Sound.run (ht : Sound s t) (deeds : List (Deed σ)) : Sound s (t.run T s deeds) := by
  induction deeds generalizing t with
  | nil => exact ht
  | cons deed deeds ih => exact ih (ht.step deed)

/-! ## After the end of a pool -/

/-- Talks that neither start nor stop a pool leave its phase alone. -/
theorem phase_hold {α : Type} {d : Dialogue α} (hd : d.Only Request.isSteady) :
    (t.hold T s d).world.pool.phase = t.world.pool.phase :=
  hd.run (I := fun w : World σ => w.pool.phase = t.world.pool.phase)
    (fun _ w hr hw => (congrArg Phases.pool (World.phases_answerPatiently T s hr w)).trans hw) rfl

theorem phase_part {d : Dialogue Unit} {link : LinkId} (hd : d.Cares) :
    (t.part T s d link).world.pool.phase = t.world.pool.phase := by
  unfold Tenancy.part
  split
  · exact phase_hold (hd.mono fun _ hr =>
      Request.isSteady_of_isSending (Request.isSending_of_isCare hr))
  · rfl

/-- A pool that was shut down is not started again. -/
theorem phase_step (ht : t.world.pool.phase = .shutDown) (deed : Deed σ) :
    (t.step T s deed).world.pool.phase = .shutDown := by
  have stopped : ¬ t.isRunning := by
    unfold isRunning
    rw [ht]
    exact PoolPhase.noConfusion
  have steady := World.steady_phases T s ⟨t.world.phase, .shutDown⟩
  have now : t.world.phases = ⟨t.world.phase, .shutDown⟩ := Phases.ext rfl ht
  cases deed with
  | startup =>
    simp only [Tenancy.step, hold, World.startup_of_shutDown T s ht]
    exact ht
  | acquire =>
    simp only [Tenancy.step, Tenancy.acquire, World.acquire_of_shutDown T s ht]
    exact ht
  | release link healthy => exact (phase_part (s.release_cares link healthy)).trans ht
  | lapse link => exact (phase_part (.ask rfl fun _ => .done)).trans ht
  | entrust link delay healthy =>
    simp only [Tenancy.step]
    split <;> exact ht
  | push link key payload =>
    simp only [Tenancy.step]
    split <;> exact ht
  | evict =>
    simp only [Tenancy.step, if_neg stopped]
    exact ht
  | opening index =>
    simp only [Tenancy.step]
    split
    · rename_i hi
      exact congrArg Phases.pool (steady.opening t.world index now hi)
    · exact ht
  | pass limit => exact congrArg Phases.pool (steady.pass now)
  | shutdown ms => exact World.phase_shutdown_pool ms t.world
  | abandon =>
    simp only [Tenancy.step, if_neg stopped]
    exact ht
  | store remote => exact ht

theorem outstanding_hold {α : Type} (d : Dialogue α) :
    (t.hold T s d).outstanding.Sublist t.outstanding :=
  ((World.errands_run T s d t.world).map _).append_left _

theorem outstanding_part (d : Dialogue Unit) (link : LinkId) :
    (t.part T s d link).outstanding.Sublist t.outstanding := by
  unfold Tenancy.part
  split
  · exact List.erase_sublist.append ((World.errands_run T s d t.world).map _)
  · exact List.Sublist.refl _

/-- A pool that was shut down lends no link: what is outstanding was so before. -/
theorem outstanding_step (ht : t.world.pool.phase = .shutDown) (deed : Deed σ) :
    (t.step T s deed).outstanding ⊆ t.outstanding := by
  cases deed with
  | startup => exact (outstanding_hold _).subset
  | acquire =>
    simp only [Tenancy.step, Tenancy.acquire, World.acquire_of_shutDown T s ht]
    exact List.Subset.refl _
  | release link healthy => exact (outstanding_part _ link).subset
  | lapse link => exact (outstanding_part _ link).subset
  | entrust link delay healthy =>
    simp only [Tenancy.step]
    split
    · rename_i hl
      intro l hmem
      simp only [outstanding, World.entrusted, List.map_append, List.mem_append] at hmem ⊢
      rcases hmem with hmem | hmem | hmem
      · exact .inl (List.mem_of_mem_erase hmem)
      · exact .inr hmem
      · exact .inl (List.mem_singleton.mp hmem ▸ hl)
    · exact List.Subset.refl _
  | push link key payload =>
    simp only [Tenancy.step]
    split
    · exact (outstanding_hold _).subset
    · exact List.Subset.refl _
  | evict =>
    simp only [Tenancy.step]
    split
    · exact (outstanding_hold _).subset
    · exact List.Subset.refl _
  | opening index =>
    simp only [Tenancy.step]
    split
    · rename_i hi
      have kept := (World.steady_errands T s t.world.errands).opening t.world index
        (List.Sublist.refl _) hi
      exact ((kept.map _).append_left _).subset
    · exact List.Subset.refl _
  | pass limit =>
    have kept : (t.world.pass T s limit).errands.Sublist t.world.errands :=
      (World.steady_errands T s t.world.errands).pass (List.Sublist.refl _)
    exact ((kept.map _).append_left _).subset
  | shutdown ms => exact (outstanding_hold _).subset
  | abandon =>
    simp only [Tenancy.step]
    split
    · exact (outstanding_hold _).subset
    · exact List.Subset.refl _
  | store remote => exact List.Subset.refl _

theorem phase_run (ht : t.world.pool.phase = .shutDown) (deeds : List (Deed σ)) :
    (t.run T s deeds).world.pool.phase = .shutDown := by
  induction deeds generalizing t with
  | nil => exact ht
  | cons deed deeds ih => exact ih (phase_step ht deed)

theorem outstanding_run (ht : t.world.pool.phase = .shutDown) (deeds : List (Deed σ)) :
    (t.run T s deeds).outstanding ⊆ t.outstanding := by
  induction deeds generalizing t with
  | nil => exact List.Subset.refl _
  | cons deed deeds ih =>
    exact List.Subset.trans (ih (phase_step ht deed)) (outstanding_step ht deed)

end Tenancy

/-! ## How often links are closed -/

namespace Act

/-- The link that the act opens. -/
def openedLink? : Act → Option LinkId
  | .opened l => some l
  | _ => none

/-- The link that the act closes. -/
def closedLink? : Act → Option LinkId
  | .closed l => some l
  | _ => none

end Act

theorem count_openedLinks (acts : List Act) (l : LinkId) :
    (acts.filterMap Act.openedLink?).count l = openings acts l := by
  induction acts with
  | nil => rfl
  | cons a acts ih =>
    cases a with
    | opened k =>
      rw [openings_opened, ← ih]
      simp [Act.openedLink?, List.count_cons]
    | _ => exact ih

theorem count_closedLinks (acts : List Act) (l : LinkId) :
    (acts.filterMap Act.closedLink?).count l = closings acts l := by
  induction acts with
  | nil => rfl
  | cons a acts ih =>
    cases a with
    | closed k =>
      rw [closings_closed, ← ih]
      simp [Act.closedLink?, List.count_cons]
    | _ => exact ih

theorem tally_eq (acts : List Act) :
    (Rehearsal.Tally.ofActs acts).opened = (acts.filterMap Act.openedLink?).length ∧
      (Rehearsal.Tally.ofActs acts).closed = (acts.filterMap Act.closedLink?).length := by
  suffices counted : ∀ t : Rehearsal.Tally,
      (acts.foldl Rehearsal.Tally.add t).opened =
          t.opened + (acts.filterMap Act.openedLink?).length ∧
        (acts.foldl Rehearsal.Tally.add t).closed =
          t.closed + (acts.filterMap Act.closedLink?).length by
    simpa [Rehearsal.Tally.ofActs] using counted {}
  induction acts with
  | nil => exact fun _ => ⟨rfl, rfl⟩
  | cons a acts ih =>
    intro t
    obtain ⟨hopened, hclosed⟩ := ih (t.add a)
    rw [List.foldl_cons, hopened, hclosed]
    cases a with
    | opened k => exact ⟨by simp [Rehearsal.Tally.add, Act.openedLink?]; omega, rfl⟩
    | closed k => exact ⟨rfl, by simp [Rehearsal.Tally.add, Act.closedLink?]; omega⟩
    | _ => exact ⟨rfl, rfl⟩

/-- If every link was closed as often as it was opened, there were as many closings as openings. -/
theorem tally_balanced {acts : List Act} (h : ∀ l, closings acts l = openings acts l) :
    (Rehearsal.Tally.ofActs acts).closed = (Rehearsal.Tally.ofActs acts).opened := by
  have same : (acts.filterMap Act.closedLink?).Perm (acts.filterMap Act.openedLink?) := by
    refine List.perm_iff_count.mpr fun l => ?_
    rw [count_closedLinks, count_openedLinks, h]
  rw [(tally_eq acts).1, (tally_eq acts).2, same.length_eq]

namespace World

variable {σ : Type}

/-- Nothing is left of a pool: every link that was opened was closed, and only once. -/
structure WoundUp (w : World σ) : Prop where
  idle : w.pool.idle = []
  pending : w.pool.openings = []
  once : ∀ l, openings w.acts l ≤ 1 ∧ closings w.acts l = openings w.acts l
  balanced : (Rehearsal.Tally.ofActs w.acts).closed = (Rehearsal.Tally.ofActs w.acts).opened

end World

/-! ## The end of a pool -/

namespace Tenancy

variable {σ : Type} {T : Transport σ} {s : PoolSettings} {t : Tenancy σ}

/-- What holds of a pool from its end on: it says that it has no links, it neither lends nor starts
again, and nothing is outstanding that was not so at its end. -/
structure Over (T : Transport σ) (s : PoolSettings) (ended t : Tenancy σ) : Prop where
  stated : t.world.stated = (0, 0)
  lends_none : Delivery.acquire.run (World.answerPatiently T s) t.world =
    (.error .shutDown, t.world)
  stays_over : s.startup.run (World.answerPatiently T s) t.world = (.error .shutDown, t.world)
  outstanding : t.outstanding ⊆ ended.outstanding

theorem over_run (ht : t.world.pool.phase = .shutDown) (deeds : List (Deed σ)) :
    Over T s t (t.run T s deeds) := by
  have still : (t.run T s deeds).world.pool.phase = .shutDown := phase_run ht deeds
  refine ⟨?_, World.acquire_of_shutDown T s still, World.startup_of_shutDown T s still,
    outstanding_run ht deeds⟩
  unfold World.stated
  rw [still]
  rfl

/-- Once nothing is outstanding, nothing is left of a pool that does not run. -/
theorem Sound.woundUp (ht : Sound s t) (hstop : ¬ t.isRunning) (hnone : t.outstanding = []) :
    t.world.WoundUp := by
  have hlent : t.world.pool.lent = [] := List.perm_nil.mp (hnone ▸ ht.rented.lent)
  have left : t.world.pool.idle = [] ∧ t.world.pool.openings = [] := by
    rcases ht.kept with h | h
    · rw [h.1]
      exact ⟨rfl, rfl⟩
    · refine h.forsaken (World.isForsaken_iff.mpr ⟨?_, hlent⟩)
      cases hp : t.world.pool.phase with
      | created => exact absurd hp h.begun
      | running => exact absurd hp hstop
      | shutDown => rfl
  have closed (l : LinkId) : closings t.world.acts l = openings t.world.acts l := by
    have hplaced := ht.rented.census.placed l
    rw [left.1, hlent] at hplaced
    exact hplaced.symm
  exact ⟨left.1, left.2, fun l => ⟨ht.rented.census.openings_le l, closed l⟩,
    tally_balanced closed⟩

/-- No link is lent just if nothing is outstanding. -/
theorem Sound.lent_eq_nil_iff (ht : Sound s t) :
    t.world.pool.lent = [] ↔ t.outstanding = [] := by
  have lent : t.world.pool.lent.Perm t.outstanding := ht.rented.lent
  constructor
  · intro hnil
    exact List.perm_nil.mp (hnil ▸ lent).symm
  · intro hnil
    exact List.perm_nil.mp (hnil ▸ lent)

/-- A shutdown answers whether nothing is outstanding when it returns. -/
theorem Sound.drained (ht : Sound s t) (hrun : t.isRunning) (ms : Option Nat) :
    ((s.shutdown ms).run (World.answerPatiently T s) t.world).1 = true ↔
      (t.step T s (.shutdown ms)).outstanding = [] := by
  obtain ⟨log, hshut⟩ := World.shutdown_of_running T s hrun ms
  have lent : (t.step T s (.shutdown ms)).world.pool.lent =
      (t.world.awaited T s ms).pool.lent := by
    simp only [Tenancy.step, hold, hshut]
    exact World.settleForsaken_lent T _
  rw [hshut, decide_eq_true_iff, List.length_eq_zero_iff, ← lent]
  exact (ht.step (.shutdown ms)).lent_eq_nil_iff

/-- How a pool ends. -/
structure Farewell (T : Transport σ) (s : PoolSettings) (t : Tenancy σ) : Prop where
  /-- A shutdown of a pool that runs answers whether nothing is outstanding when it returns. -/
  drained : t.isRunning → ∀ ms,
    (((s.shutdown ms).run (World.answerPatiently T s) t.world).1 = true ↔
      (t.step T s (.shutdown ms)).outstanding = [])
  /-- What holds after a shutdown. -/
  shut : ∀ ms deeds, Over T s (t.step T s (.shutdown ms))
    ((t.step T s (.shutdown ms)).run T s deeds)
  /-- What holds once a pool that ran was let go of. -/
  abandoned : t.isRunning → ∀ deeds, Over T s (t.step T s .abandon)
    ((t.step T s .abandon).run T s deeds)
  /-- Once nothing is outstanding, every link was closed once. -/
  wound_up : ¬ t.isRunning → t.outstanding = [] → t.world.WoundUp

/-- **How a pool ends**, at any time and whatever was done with it before. -/
theorem farewell (T : Transport σ) (s : PoolSettings) (remote : σ) (deeds : List (Deed σ)) :
    Farewell T s (run T s ⟨{ remote }, []⟩ deeds) := by
  have sound : Sound s (run T s ⟨{ remote }, []⟩ deeds) := (sound_start remote).run deeds
  refine ⟨sound.drained, fun ms later => ?_, fun hrun later => ?_, sound.woundUp⟩
  · exact over_run (World.phase_shutdown_pool ms _) later
  · refine over_run ?_ later
    simp only [step, if_pos hrun]
    exact World.phase_shutdown_pool _ _

/-- A pool that ends while somebody else has a link, and waits until it is given back. -/
example :
    let t := run ScriptedStore.transport { endpoint := { host := "localhost" }, config := {} }
      ⟨{ remote := {} }, []⟩
      [.startup, .acquire, .acquire, .entrust 0 40000 true, .release 1 true,
        .shutdown (some 1000)]
    ¬ t.isRunning ∧ t.outstanding = [] ∧ closings t.world.acts 0 = 1 ∧
      closings t.world.acts 1 = 1 := by
  decide +kernel

end Tenancy

end LogShipper
