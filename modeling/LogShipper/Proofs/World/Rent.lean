import LogShipper.Proofs.Pool.Traffic
import LogShipper.Proofs.World.Lifecycle

/-!
# Links that are lent, and what is left of a pool

The links that are lent are at any time just those that are leased, and those that others will give
back (`World.Rented`): whatever is asked for, and while time passes. Of a pool that was shut down
nothing is left once no link is lent (`World.Tended`); before it is started there is nothing in it
(`World.Untouched`).

Results:
* `upholds_rented`, `steady_rented`: what is lent, through any talk and while time passes.
* `Rented.borrow`: what is lent once a borrower comes back.
* `Tended.answerNow`, `steady_tended`: what is left of a pool that was shut down.
-/

namespace LogShipper

open Delivery (Request Dialogue PoolSettings Ledger)
open Delivery.Dialogue (Upholds)

/-! ## Links that are lent -/

namespace World

variable {σ : Type} {T : Transport σ} {s : PoolSettings} {w w₁ : World σ}
  {held leases : List LinkId}

/-- The links that others will give back. -/
def entrusted (w : World σ) : List LinkId := w.errands.map (·.link)

/-- The links that are lent are just those that are leased and those that others will give back. -/
def Rented (s : PoolSettings) (leases : List LinkId) (w : World σ) : Prop :=
  w.LentTo s (leases ++ w.entrusted)

theorem entrusted_eq (h : w₁.errands = w.errands) : w₁.entrusted = w.entrusted :=
  congrArg (List.map Errand.link) h

theorem Rented.congr (h : w.Rented s leases) (hacts : w₁.acts = w.acts)
    (hpool : w.pool.Alike w₁.pool) (herrands : w₁.errands = w.errands) : w₁.Rented s leases := by
  unfold Rented
  rw [entrusted_eq herrands]
  exact LentTo.congr h hacts hpool

/-- Requests that are answered without letting time pass. -/
theorem upholds_rented_now : Upholds Delivery.holder
    (fun held w => w.Rented s (held ++ leases)) (answerNow (σ := σ) T s) := by
  intro held r w hw hr
  have others : w.LentTo s (held ++ (leases ++ w.entrusted)) := by
    rw [← List.append_assoc]
    exact hw
  obtain ⟨admits, after⟩ := others.answerNow (T := T) hr
  refine ⟨admits, ?_⟩
  show LentTo s (_ ++ leases ++ (w.answerNow T s r).2.entrusted) _
  rw [entrusted_eq (errands_answerNow T s r w), List.append_assoc]
  exact after

/-- A link that was opened, or was not. -/
theorem Rented.settleOpening (h : w.Rented s leases) {index : Nat}
    (hi : index < w.pool.openings.length) : (w.settleOpening T s index).Rented s leases := by
  have errands : (w.settleOpening T s index).errands = w.errands := by
    unfold World.settleOpening
    dsimp only
    split <;> rfl
  rw [Rented, entrusted_eq errands]
  exact LentTo.settleOpening h hi

/-- A link that somebody holds is given back, and nothing else is lent then. -/
theorem Rented.giving {answer : (r : Request) → World σ → r.Answer × World σ}
    {d : Dialogue Unit} {link : LinkId}
    (hu : Upholds Delivery.holder (fun held w => w.Rented s (held ++ leases)) answer)
    (hd : d.Abides Delivery.holder [link] fun _ held' => held'.Perm ([link].erase link))
    (h : w.Rented s (link :: leases)) : (d.run answer w).2.Rented s leases := by
  obtain ⟨held', hnil, after⟩ := hd.run hu h
  rw [List.erase_cons_head] at hnil
  obtain rfl := List.perm_nil.mp hnil
  exact after

/-- Whoever borrows nothing in the end leaves what is lent as it was. -/
theorem Rented.settling {answer : (r : Request) → World σ → r.Answer × World σ} {α : Type}
    {d : Dialogue α}
    (hu : Upholds Delivery.holder (fun held w => w.Rented s (held ++ leases)) answer)
    (hd : d.Settles fun _ => .away) (h : w.Rented s leases) :
    (d.run answer w).2.Rented s leases := by
  obtain ⟨held', hnil, after⟩ := (hd.holds Ledger.held_nil).run hu h
  obtain rfl := List.perm_nil.mp hnil
  exact after

theorem release_holds (s : PoolSettings) (link : LinkId) (healthy : Bool) :
    (s.release link healthy).Abides Delivery.holder [link] fun _ held' =>
      held'.Perm ([link].erase link) := by
  have sound : Ledger.set (fun _ => .away) link .sound link = .sound := Ledger.set_self _ _ _
  have lent := Ledger.ne_away_of_sound sound
  exact (s.release_returns lent fun _ => sound).holds (Ledger.held_one link) lent

theorem lapse_holds (link : LinkId) :
    (Delivery.PoolSettings.lapse link).Abides Delivery.holder [link] fun _ held' =>
      held'.Perm ([link].erase link) := by
  have sound : Ledger.set (fun _ => .away) link .sound link = .sound := Ledger.set_self _ _ _
  exact (Delivery.PoolSettings.lapse_returns sound).holds (Ledger.held_one link)
    (Ledger.ne_away_of_sound sound)

/-- **While time passes** what is lent stays leased or entrusted to others. -/
theorem steady_rented : Steady T s fun w : World σ => w.Rented s leases where
  clock _ _ hw := hw.congr rfl ⟨rfl, rfl, rfl, Nat.le_refl _⟩ rfl
  opening _ _ hw hi := hw.settleOpening hi
  errand w index hw := by
    unfold happen
    dsimp only
    split
    · exact hw
    · rename_i e he
      have taken : w.entrusted.Perm (e.link :: (w.errands.eraseIdx index).map (·.link)) :=
        (Traffic.perm_cons_eraseIdx he).map _
      have held : ({ w with errands := w.errands.eraseIdx index } : World σ).Rented s
          (e.link :: leases) := by
        refine ⟨hw.census, hw.lent.trans ((taken.append_left leases).trans ?_)⟩
        exact List.perm_middle
      have given := held.giving (upholds_rented_now (T := T)) (release_holds s e.link e.healthy)
      exact given.congr rfl ⟨rfl, rfl, rfl, Nat.le_refl _⟩ rfl
  eviction w hw _ := by
    have checked := hw.settling (upholds_rented_now (T := T)) (s.evict_settles _)
    exact checked.congr rfl ⟨rfl, rfl, rfl, Nat.le_refl _⟩ rfl

theorem Rented.borrowed {x : Option LinkId} (h : w.Rented s leases) (hb : Borrowed T s w x w₁) :
    w₁.Rented s (x.toList ++ leases) := by
  refine ⟨h.census.borrowed hb, ?_⟩
  rw [hb.lent, entrusted_eq (congrArg Rest.errands hb.rest), List.append_assoc]
  exact h.lent.append_left _

/-- A borrower comes back with a link that is lent besides, or without one. -/
theorem Rented.borrow (h : w.Rented s leases) :
    Steady.Granted (Rented s leases) (fun link => Rented s (link :: leases)) (w.borrow T s) := by
  refine steady_rented.borrow (fun v hv => ?_) (fun v hv => ?_) (fun v v₁ x hv hb => ?_) h
  · refine ⟨hv.census.openOne v.clock, ?_⟩
    show (Pool.openOne _ _ _).lent.Perm _
    rw [Pool.openOne_lent]
    exact hv.lent
  · exact hv.congr rfl v.alike_giveUp rfl
  · have borrowed := hv.borrowed hb
    cases x with
    | none => exact borrowed
    | some link => exact borrowed

/-- **Requests that are answered while time passes.** -/
theorem upholds_rented : Upholds Delivery.holder
    (fun held w => w.Rented s (held ++ leases)) (answerPatiently (σ := σ) T s) := by
  intro held r w hw hr
  cases r with
  | borrow =>
    refine (hw.borrow (T := T)).elim (P := fun got => Delivery.holder.admits held .borrow got.1 ∧
      got.2.Rented s (Delivery.holder.after held .borrow got.1 ++ leases)) ?_ ?_
    · intro link w₁ lent
      refine ⟨fun hmem => ?_, lent⟩
      exact LentTo.not_mem lent (List.mem_append_left _ (List.mem_append_left _ hmem))
    · intro reason w₁ kept
      exact ⟨trivial, kept⟩
  | drain ms => exact ⟨trivial, steady_rented.drain ms hw⟩
  | wait token ms => exact ⟨trivial, steady_rented.wait token ms hw⟩
  | _ => exact upholds_rented_now (T := T) held _ w hw hr

/-! ## What is left of a pool that was shut down -/

/-- A pool that was never started, with nobody to give anything back to it. -/
def Untouched (w : World σ) : Prop := w.pool = {} ∧ w.errands = []

/-- A pool of which nothing is left once it was shut down and nothing is lent. -/
structure Tended (w : World σ) : Prop where
  begun : w.pool.phase ≠ .created
  forsaken : w.pool.isForsaken = true → w.pool.idle = [] ∧ w.pool.openings = []

theorem isForsaken_iff {p : Pool} : p.isForsaken = true ↔ p.phase = .shutDown ∧ p.lent = [] := by
  simp [Pool.isForsaken]

theorem tended_of_running (h : w.pool.phase = .running) : w.Tended := by
  refine ⟨by rw [h]; exact PoolPhase.noConfusion, fun hf => ?_⟩
  rw [(isForsaken_iff.mp hf).1] at h
  cases h

/-- As long as a link is lent, something is left. -/
theorem tended_of_lent (h : w.pool.phase ≠ .created) (hl : w.pool.lent ≠ []) : w.Tended :=
  ⟨h, fun hf => absurd (isForsaken_iff.mp hf).2 hl⟩

theorem Tended.congr (h : w.Tended) (hpool : w₁.pool = w.pool) : w₁.Tended := by
  refine ⟨?_, ?_⟩
  · rw [hpool]
    exact h.begun
  · rw [hpool]
    exact h.forsaken

/-- Whatever ends by looking whether anything holds the pool leaves it tended. -/
theorem tended_settleForsaken (h : w.pool.phase ≠ .created) : (w.settleForsaken T).Tended := by
  unfold settleForsaken
  split
  · refine ⟨?_, fun _ => ?_⟩
    · rw [closeAll_pool]
      exact h
    · rw [closeAll_pool]
      exact ⟨rfl, rfl⟩
  · rename_i hf
    exact ⟨h, fun hf' => absurd hf' hf⟩

theorem tended_giveBack (link : LinkId) (h : w.pool.phase ≠ .created) :
    (w.giveBack T link).Tended :=
  tended_settleForsaken h

theorem tended_discard (link : LinkId) (h : w.pool.phase ≠ .created) :
    (w.discard T s link).Tended := by
  refine tended_settleForsaken ?_
  show (Pool.refill _ _ _).phase ≠ _
  rw [refill_phase]
  exact h

theorem Tended.borrowed {x : Option LinkId} (h : w.Tended) (hb : Borrowed T s w x w₁) :
    w₁.Tended := by
  have still : w₁.pool.phase = w.pool.phase := congrArg Phases.pool hb.phases
  have begun : w₁.pool.phase ≠ .created := still ▸ h.begun
  cases x with
  | some link =>
    refine tended_of_lent begun ?_
    rw [hb.lent]
    exact List.cons_ne_nil _ _
  | none =>
    -- either nothing was idle, or the last link that was tried was dropped
    cases hlast : w.pool.isForsaken with
    | true =>
      have nothing : w.pool.idle = [] := (h.forsaken hlast).1
      cases hb with
      | none => exact h
      | failed ht =>
        have := (Pool.take_spec ht).1
        rw [nothing] at this
        cases this
    | false =>
      refine ⟨begun, fun hf => ?_⟩
      obtain ⟨hphase, hlent⟩ := isForsaken_iff.mp hf
      rw [hb.lent] at hlent
      have : w.pool.isForsaken = true := isForsaken_iff.mpr ⟨still ▸ hphase, hlent⟩
      rw [hlast] at this
      cases this

/-- Taking care of links leaves a pool tended. -/
theorem Tended.answerNow (h : w.Tended) {r : Request} (hr : r.isCare = true) :
    (w.answerNow T s r).2.Tended := by
  cases r with
  | tryBorrow => exact h.borrowed (borrowed_tryBorrow T s w)
  | giveBack link => exact tended_giveBack link h.begun
  | discard link => exact tended_discard link h.begun
  | ping link => exact h.congr rfl
  | reset link => exact h.congr rfl
  | idleCount => exact h
  | log entry => exact h.congr rfl
  | _ => exact absurd hr Bool.false_ne_true

/-- **While time passes** a pool stays tended. -/
theorem steady_tended : Steady T s (Tended (σ := σ)) := by
  refine .of_care (fun _ _ hw => hw.congr rfl) (fun w index hw hi => ?_)
    (fun _ _ hr hw => hw.answerNow hr) (fun _ _ _ _ hw => hw.congr rfl)
    fun _ v _ _ _ hv => ⟨hv.begun, hv.forsaken⟩
  -- a link is being opened, so something is left of the pool
  have still : (w.settleOpening T s index).pool.phase = w.pool.phase := by
    unfold settleOpening
    dsimp only
    split <;> rfl
  refine ⟨still ▸ hw.begun, fun hf => ?_⟩
  rw [isForsaken_iff, still, settleOpening_lent] at hf
  have nothing := (hw.forsaken (isForsaken_iff.mpr hf)).2
  rw [nothing] at hi
  exact absurd hi (Nat.not_lt_zero _)

/-- Nothing happens to a pool that was never started. -/
theorem steady_untouched : Steady T s (Untouched (σ := σ)) where
  clock _ _ hw := hw
  opening _ index hw hi := by
    rw [hw.1] at hi
    exact absurd hi (Nat.not_lt_zero index)
  errand w index hw := by
    unfold happen
    rw [hw.2]
    exact hw
  eviction _ hw hne := by
    rw [hw.1] at hne
    exact absurd rfl hne

end World

end LogShipper
