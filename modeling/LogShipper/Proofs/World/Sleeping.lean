import LogShipper.Proofs.World.Passing

/-!
# Sleeping

A borrower that finds no idle link sleeps until one becomes idle, or until its time is up. Meanwhile
there can be checks of idle links, which find none and only set the time of the next one
(`World.doze`). They are some time apart (`World.checksLeft`).

Results:
* `Asleep.untilFuel_none`: a borrower for whom nothing happens sleeps until its time is up.
* `Asleep.untilFuel_some`: one for whom something happens sleeps until then.
* `Asleep.untilFuel_opening`: a link that is opened wakes it.
-/

namespace LogShipper.World

open Delivery (Request Dialogue PoolSettings)

variable {σ : Type} {T : Transport σ} {s : PoolSettings} {w w₁ : World σ} {limit due seen : Nat}
  {x : Happening}

/-! ## What is due first -/

theorem earliest_isSome {due : List (Nat × Happening)} (h : due ≠ []) :
    ∃ x, earliest due = some x := by
  cases due with
  | nil => exact absurd rfl h
  | cons d rest =>
    unfold earliest
    split
    · exact ⟨_, rfl⟩
    · split <;> exact ⟨_, rfl⟩

/-- Nothing is due before what is due first. -/
theorem earliest_le {due : List (Nat × Happening)} {x y : Nat × Happening}
    (h : earliest due = some x) (hy : y ∈ due) : x.1 ≤ y.1 := by
  induction due generalizing x with
  | nil => exact absurd hy List.not_mem_nil
  | cons d rest ih =>
    unfold earliest at h
    cases hrest : earliest rest with
    | none =>
      rw [hrest] at h
      obtain rfl := Option.some.inj h
      rcases List.mem_cons.mp hy with rfl | hy
      · exact Nat.le_refl _
      · obtain ⟨z, hz⟩ := earliest_isSome (List.ne_nil_of_mem hy)
        rw [hrest] at hz
        cases hz
    | some later =>
      rw [hrest] at h
      dsimp only at h
      split at h
      · obtain rfl := Option.some.inj h
        rcases List.mem_cons.mp hy with rfl | hy
        · exact Nat.le_refl _
        · exact Nat.le_trans ‹_› (ih hrest hy)
      · obtain rfl := Option.some.inj h
        rcases List.mem_cons.mp hy with rfl | hy
        · omega
        · exact ih hrest hy

/-- Of what is due at one time, the last one comes last. -/
theorem earliest_concat (l : List (Nat × Happening)) (e : Nat × Happening) :
    earliest (l ++ [e]) =
      match earliest l with
      | none => some e
      | some d => if d.1 ≤ e.1 then some d else some e := by
  induction l with
  | nil => rfl
  | cons d rest ih =>
    rw [List.cons_append, earliest, ih, earliest]
    cases earliest rest with
    | none => rfl
    | some later =>
      dsimp only
      split <;> split <;> grind

/-! ## With no idle link -/

theorem tryBorrow_of_idle_nil (h : w.pool.idle = []) : w.tryBorrow T s = (none, w) := by
  unfold tryBorrow
  rw [h]
  rfl

/-- A check of idle links finds none. -/
theorem evict_of_idle_nil (h : w.pool.idle = []) :
    s.evict.run (answerNow T s) w = ((), w) := by
  have gathered (n : Nat) :
      (PoolSettings.gather n).run (answerNow T s) w = ([], w) := by
    cases n with
    | zero => rfl
    | succ n =>
      have asked : w.answerNow T s .tryBorrow = (none, w) := tryBorrow_of_idle_nil h
      unfold PoolSettings.gather Dialogue.run
      rw [asked]
      rfl
  show Dialogue.run _ (Dialogue.bind (PoolSettings.gather _) _) w = _
  rw [Dialogue.run_bind, gathered]
  rfl

/-- A world as it is later, with nothing done but that idle links were checked, and there was
none. -/
def doze (now : Nat) (next : Option Nat) (w : World σ) : World σ :=
  { w with clock := now, pool := { w.pool with nextEviction := next } }

/-- A check in the background only sets the time of the next one. -/
theorem happen_eviction_of_idle_nil (h : w.pool.idle = []) :
    w.happen T s .eviction =
      w.doze w.clock (some (w.clock + s.config.evictionIntervalMs.toNat * 1000)) := by
  unfold happen quietly
  dsimp only
  rw [evict_of_idle_nil h, hush_self]
  rfl

/-- How many checks of idle links can come before some time, and one more. -/
def checksLeft (limit : Nat) (w : World σ) : Nat :=
  match w.pool.nextEviction with
  | none => 0
  | some due => if due ≤ limit then limit + 1 - max w.clock due + 1 else 0

theorem checksLeft_congr (hnext : w₁.pool.nextEviction = w.pool.nextEviction)
    (hclock : w₁.clock = w.clock) : checksLeft limit w₁ = checksLeft limit w := by
  unfold checksLeft
  rw [hnext, hclock]

/-- Checks are some time apart, so that each leaves fewer to come. -/
theorem checksLeft_happen_eviction (h : w.pool.idle = [])
    (hevicts : s.config.evicts = true) (hnext : w.pool.nextEviction = some due)
    (hdue : due ≤ limit) :
    checksLeft limit (({ w with clock := max w.clock due } : World σ).happen T s .eviction) <
      checksLeft limit w := by
  have apart : 0 < s.config.evictionIntervalMs.toNat := by
    unfold PoolConfig.evicts at hevicts
    simp only [Bool.and_eq_true, decide_eq_true_eq] at hevicts
    exact hevicts.1.2
  rw [happen_eviction_of_idle_nil (w := { w with clock := max w.clock due }) h]
  unfold checksLeft
  rw [hnext]
  dsimp only [doze]
  rw [if_pos hdue]
  split <;> omega

/-- Who waits for what holds already does not wait. -/
theorem untilFuel_of_goal {goal : World σ → Bool} (h : goal w = true) (fuel : Nat) :
    untilFuel T s limit goal fuel w = (true, w) := by
  cases fuel with
  | zero => exact Prod.ext h rfl
  | succ fuel => exact if_pos h

theorem checksLeft_le (limit : Nat) (w : World σ) :
    checksLeft limit w ≤ limit + 1 - w.clock + 1 := by
  unfold checksLeft
  split
  · exact Nat.zero_le _
  · split <;> omega

/-- There is always time to look twice. -/
theorem exists_busyFuel (s : PoolSettings) (limit : Nat) (w : World σ) :
    ∃ n, w.busyFuel s limit = n + 2 := by
  have : 1 * 2 ≤ w.busyFuel s limit := Nat.mul_le_mul (by omega) (by omega)
  exact ⟨w.busyFuel s limit - 2, by omega⟩

/-- There is time for all checks, and for something else. -/
theorem checksLeft_succ_lt_busyFuel (s : PoolSettings) (limit : Nat) (w : World σ) :
    checksLeft limit w + 1 < w.busyFuel s limit := by
  have hle := checksLeft_le limit w
  have hcapacity := s.config.one_le_capacity
  have hlt : (limit + 1 - w.clock + 1) * 3 ≤ w.busyFuel s limit :=
    Nat.mul_le_mul_left _ (by omega)
  omega

/-! ## Sleeping -/

/-- All that is due some time but checks of idle links. -/
def chores (T : Transport σ) (w : World σ) : List (Nat × Happening) :=
  w.pool.openings.mapIdx (fun i o => (T.due o, .opening i)) ++
    w.errands.mapIdx fun i e => (e.due, .errand i)

theorem agenda_eq (T : Transport σ) (w : World σ) :
    w.agenda T = w.chores T ++ (w.pool.nextEviction.map fun due => (due, .eviction)).toList := rfl

/-- A borrower sleeps: no link is idle, and it was not woken. -/
structure Asleep (s : PoolSettings) (seen : Nat) (w : World σ) : Prop where
  idle : w.pool.idle = []
  wakeups : w.pool.wakeups = seen
  checks : w.pool.nextEviction ≠ none → s.config.evicts = true

theorem Asleep.unwoken (h : Asleep s seen w) : ¬ (w.pool.wakeups != seen) = true := by
  rw [h.wakeups, bne_self_eq_false]
  exact Bool.false_ne_true

theorem Asleep.later (h : Asleep s seen w) (now : Nat) {next : Option Nat}
    (hnext : next ≠ none → s.config.evicts = true) : Asleep s seen (w.doze now next) :=
  ⟨h.idle, h.wakeups, hnext⟩

/-- A borrower sleeps until the next thing happens. -/
theorem Asleep.untilFuel_succ {n : Nat} (h : Asleep s seen w)
    (hfirst : earliest (w.agenda T) = some (due, x)) (hdue : due ≤ limit) :
    untilFuel T s limit (fun v => v.pool.wakeups != seen) (n + 1) w =
      untilFuel T s limit (fun v => v.pool.wakeups != seen) n
        (({ w with clock := max w.clock due } : World σ).happen T s x) := by
  rw [untilFuel, if_neg h.unwoken, next?, hfirst]
  dsimp only
  rw [if_pos hdue]

/-- It sleeps on if that is a check of idle links. -/
theorem Asleep.untilFuel_check {n : Nat} (h : Asleep s seen w)
    (hfirst : earliest (w.agenda T) = some (due, .eviction)) (hdue : due ≤ limit) :
    ∃ next, Asleep s seen (w.doze (max w.clock due) next) ∧
      checksLeft limit (w.doze (max w.clock due) next) < checksLeft limit w ∧
      untilFuel T s limit (fun v => v.pool.wakeups != seen) (n + 1) w =
        untilFuel T s limit (fun v => v.pool.wakeups != seen) n
          (w.doze (max w.clock due) next) := by
  have hnext := nextEviction_of_mem (earliest_mem hfirst)
  have evicts := h.checks (by rw [hnext]; exact Option.some_ne_none due)
  have after := happen_eviction_of_idle_nil (T := T) (s := s)
    (w := { w with clock := max w.clock due }) h.idle
  have less := checksLeft_happen_eviction (T := T) h.idle evicts hnext hdue
  have goes := h.untilFuel_succ (T := T) (n := n) hfirst hdue
  rw [after] at less goes
  exact ⟨_, h.later _ fun _ => evicts, less, goes⟩

/-- **A borrower for whom nothing happens** sleeps until its time is up. The induction is on the
steps that time takes, which are checks of no links. -/
theorem Asleep.untilFuel_none {fuel : Nat} (h : Asleep s seen w)
    (hlate : ∀ c ∈ w.chores T, limit < c.1) (hfuel : checksLeft limit w < fuel) :
    ∃ now next, untilFuel T s limit (fun v => v.pool.wakeups != seen) fuel w =
      (false, w.doze now next) := by
  induction fuel generalizing w with
  | zero => exact absurd hfuel (Nat.not_lt_zero _)
  | succ fuel ih =>
    by_cases hcheck : ∃ check, earliest (w.agenda T) = some (check, .eviction) ∧ check ≤ limit
    · obtain ⟨check, hfirst, hdue⟩ := hcheck
      obtain ⟨next, asleep, less, goes⟩ := h.untilFuel_check (T := T) (n := fuel) hfirst hdue
      rw [goes]
      exact ih asleep hlate (by omega)
    · have nothing : w.next? T s limit = none := by
        unfold next?
        split
        · rfl
        · rename_i due x hfirst
          refine if_neg fun hdue => ?_
          have hmem := earliest_mem hfirst
          rw [agenda_eq] at hmem
          rcases List.mem_append.mp hmem with hchore | hmem
          · exact absurd (hlate _ hchore) (Nat.not_lt.mpr hdue)
          · obtain ⟨_, -, heq⟩ := Option.map_eq_some_iff.mp (Option.mem_toList.mp hmem)
            obtain ⟨rfl, rfl⟩ := Prod.mk.inj heq
            exact hcheck ⟨_, hfirst, hdue⟩
      rw [untilFuel, if_neg h.unwoken, nothing]
      exact ⟨_, _, rfl⟩

/-- **A borrower for whom something happens** sleeps until then. The induction is on the checks of
no links that come before. -/
theorem Asleep.untilFuel_some {fuel n : Nat} (h : Asleep s seen w)
    (hfirst : earliest (w.chores T) = some (due, x)) (hdue : due ≤ limit)
    (hfuel : checksLeft limit w + n < fuel) :
    ∃ next fuel', checksLeft limit (w.doze (max w.clock due) next) + n ≤ fuel' ∧
      Asleep s seen (w.doze (max w.clock due) next) ∧
      untilFuel T s limit (fun v => v.pool.wakeups != seen) fuel w =
        untilFuel T s limit (fun v => v.pool.wakeups != seen) fuel'
          ((w.doze (max w.clock due) next).happen T s x) := by
  induction fuel generalizing w with
  | zero => exact absurd hfuel (Nat.not_lt_zero _)
  | succ fuel ih =>
    -- if a check comes first, what is due besides is the same after it
    by_cases hcheck : ∃ check, w.pool.nextEviction = some check ∧ check < due
    · obtain ⟨check, hnext, hbefore⟩ := hcheck
      have hagenda : earliest (w.agenda T) = some (check, .eviction) := by
        rw [agenda_eq, hnext, Option.map_some, Option.toList_some, earliest_concat, hfirst]
        exact if_neg (Nat.not_le.mpr hbefore)
      obtain ⟨next, asleep, less, goes⟩ :=
        h.untilFuel_check (T := T) (n := fuel) hagenda (show check ≤ limit by omega)
      obtain ⟨next', fuel', hgoes⟩ := ih asleep hfirst (by omega)
      have clock : max (w.doze (max w.clock check) next).clock due = max w.clock due := by
        show max (max w.clock check) due = _
        omega
      rw [clock] at hgoes
      exact ⟨next', fuel', hgoes.1, hgoes.2.1, goes.trans hgoes.2.2⟩
    · have hagenda : earliest (w.agenda T) = some (due, x) := by
        rw [agenda_eq]
        cases hnext : w.pool.nextEviction with
        | none => rw [Option.map_none, Option.toList_none, List.append_nil, hfirst]
        | some check =>
          rw [Option.map_some, Option.toList_some, earliest_concat, hfirst]
          exact if_pos (Nat.le_of_not_lt fun hlt => hcheck ⟨check, hnext, hlt⟩)
      have fewer : checksLeft limit (w.doze (max w.clock due) w.pool.nextEviction) ≤
          checksLeft limit w := by
        unfold checksLeft doze
        dsimp only
        split
        · exact Nat.le_refl 0
        · split <;> omega
      exact ⟨w.pool.nextEviction, fuel, by omega, h.later _ h.checks,
        h.untilFuel_succ hagenda hdue⟩

/-- **A link that is opened wakes a borrower.** -/
theorem Asleep.untilFuel_opening {fuel index : Nat} (h : Asleep s seen w)
    (hfirst : earliest (w.chores T) = some (due, .opening index)) (hdue : due ≤ limit)
    (hfuel : checksLeft limit w < fuel)
    (hopens : (T.connect w.pool.opened s.endpoint w.remote).1 = .ok ()) :
    ∃ v, untilFuel T s limit (fun v => v.pool.wakeups != seen) fuel w = (true, v) ∧
      v.pool.idle = [w.pool.opened] ∧
      v.remote = (T.connect w.pool.opened s.endpoint w.remote).2 := by
  obtain ⟨next, fuel', -, -, hgoes⟩ := h.untilFuel_some (T := T) (n := 0) hfirst hdue hfuel
  have arrived : (w.doze (max w.clock due) next).happen T s (.opening index) =
      ({ w.doze (max w.clock due) next with
        remote := (T.connect w.pool.opened s.endpoint w.remote).2
        pool := (w.doze (max w.clock due) next).pool.arrive index } : World σ).record
          (.opened w.pool.opened) := by
    have same : T.connect w.pool.opened s.endpoint w.remote =
        (.ok (), (T.connect w.pool.opened s.endpoint w.remote).2) := Prod.ext hopens rfl
    unfold happen settleOpening doze
    dsimp only
    rw [same]
  rw [hgoes, arrived]
  refine ⟨_, untilFuel_of_goal ?_ _, ?_, rfl⟩
  · show (w.pool.wakeups + 1 != seen) = true
    rw [h.wakeups]
    exact bne_iff_ne.mpr (Nat.succ_ne_self seen)
  · show w.pool.opened :: w.pool.idle = _
    rw [h.idle]

end LogShipper.World
