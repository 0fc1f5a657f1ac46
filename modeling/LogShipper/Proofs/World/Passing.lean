import LogShipper.Proofs.Delivery.Requests
import LogShipper.Proofs.World.Frame

/-!
# What the passing of time keeps

While time passes links are opened, errands are run and idle links are checked, in the order in
which they are due. Whatever each of these keeps (`Steady`) holds on however much time passes, and
while somebody waits.

Results:
* `Steady.pass`, `Steady.passUntil`, `Steady.drain`, `Steady.wait`: as long as time passes.
* `Steady.borrow`, `Steady.borrow_keeps`: while a borrower waits, and when it has a link.
* `Steady.of_rest`: the tokens and the phase of an engine do not change as time passes.
* `answer_eq_patiently`: calls from inside come with pushes only.
* `calls_keep`: what each call from inside a push keeps, all of them keep.
-/

namespace LogShipper.World

open Delivery (Request PoolSettings Engine Call Reply)

variable {σ : Type} {T : Transport σ} {s : PoolSettings} {I : World σ → Prop}
  {w w₁ : World σ} {limit : Nat}

/-- Whatever happens in the background keeps `I`. -/
structure Steady (T : Transport σ) (s : PoolSettings) (I : World σ → Prop) : Prop where
  clock : ∀ (w : World σ) (t : Nat), I w → I { w with clock := max w.clock t }
  opening : ∀ (w : World σ) (index : Nat), I w → index < w.pool.openings.length →
    I (w.settleOpening T s index)
  errand : ∀ (w : World σ) (index : Nat), I w → I (w.happen T s (.errand index))
  eviction : ∀ w : World σ, I w → w.pool.nextEviction ≠ none → I (w.happen T s .eviction)

/-- It is enough that taking care of links keeps `I`, if `I` depends neither on errands nor on what
was logged. -/
theorem Steady.of_care
    (hclock : ∀ (w : World σ) (t : Nat), I w → I { w with clock := max w.clock t })
    (hopening : ∀ (w : World σ) (index : Nat), I w → index < w.pool.openings.length →
      I (w.settleOpening T s index))
    (hcare : ∀ (r : Request) (w : World σ), r.isCare = true → I w → I (w.answerNow T s r).2)
    (haside : ∀ (w : World σ) (errands : List Errand) (log aside : List LogEntry), I w →
      I { w with errands, log, aside })
    (hnext : ∀ (w v : World σ) (due : Nat), I w → w.pool.nextEviction ≠ none → I v →
      I { v with pool := { v.pool with nextEviction := some due } }) : Steady T s I where
  clock := hclock
  opening := hopening
  errand w index hw := by
    unfold happen
    dsimp only
    split
    · exact hw
    · rename_i e _
      have released := (s.release_cares e.link e.healthy).run hcare
        (haside w (w.errands.eraseIdx index) w.log w.aside hw)
      exact haside _ _ w.log _ released
  eviction w hw hne := by
    have evicted := s.evict_cares.run hcare hw
    exact hnext w _ _ hw hne (haside _ _ w.log _ evicted)

/-! ## What is due -/

theorem earliest_mem {due : List (Nat × Happening)} {x : Nat × Happening}
    (h : earliest due = some x) : x ∈ due := by
  induction due with
  | nil => exact absurd h (Option.some_ne_none x).symm
  | cons d rest ih =>
    unfold earliest at h
    split at h
    · rw [← Option.some.inj h]
      exact List.mem_cons_self
    · rename_i later hl
      split at h
      · rw [← Option.some.inj h]
        exact List.mem_cons_self
      · rw [Option.some.inj h] at hl
        exact List.mem_cons_of_mem d (ih hl)

/-- What can be due: an opening of the pool, an errand of the world, or the pool's next check of
idle links. -/
theorem agenda_cases {due : Nat} {happening : Happening} (h : (due, happening) ∈ w.agenda T) :
    (∃ i, i < w.pool.openings.length ∧ happening = .opening i) ∨
      (∃ i, i < w.errands.length ∧ happening = .errand i) ∨
      (w.pool.nextEviction = some due ∧ happening = .eviction) := by
  unfold agenda at h
  rcases List.mem_append.mp h with h | h
  · rcases List.mem_append.mp h with h | h
    · obtain ⟨i, hi, heq⟩ := List.mem_mapIdx.mp h
      exact .inl ⟨i, hi, (Prod.mk.inj heq).2.symm⟩
    · obtain ⟨i, hi, heq⟩ := List.mem_mapIdx.mp h
      exact .inr (.inl ⟨i, hi, (Prod.mk.inj heq).2.symm⟩)
  · obtain ⟨due', hnext, heq⟩ := Option.map_eq_some_iff.mp (Option.mem_toList.mp h)
    obtain ⟨rfl, rfl⟩ := Prod.mk.inj heq
    exact .inr (.inr ⟨hnext, rfl⟩)

/-- An opening that is due is one of the pool's. -/
theorem lt_of_opening_mem {due index : Nat} (h : (due, .opening index) ∈ w.agenda T) :
    index < w.pool.openings.length := by
  rcases agenda_cases h with ⟨i, hi, heq⟩ | ⟨i, _, heq⟩ | ⟨_, heq⟩
  · rw [Happening.opening.inj heq]
    exact hi
  · exact Happening.noConfusion heq
  · exact Happening.noConfusion heq

/-- A check of idle links that is due is the pool's next one. -/
theorem nextEviction_of_mem {due : Nat} (h : (due, .eviction) ∈ w.agenda T) :
    w.pool.nextEviction = some due := by
  rcases agenda_cases h with ⟨i, _, heq⟩ | ⟨i, _, heq⟩ | ⟨hnext, _⟩
  · exact Happening.noConfusion heq
  · exact Happening.noConfusion heq
  · exact hnext

/-! ## Letting time pass -/

namespace Steady

theorem next (hs : Steady T s I) (hw : I w) (h : w.next? T s limit = some w₁) : I w₁ := by
  unfold next? at h
  split at h
  · exact absurd h (Option.some_ne_none w₁).symm
  · rename_i due happening he
    split at h
    · rw [← Option.some.inj h]
      have hclock := hs.clock w due hw
      cases happening with
      | opening index => exact hs.opening _ index hclock (lt_of_opening_mem (earliest_mem he))
      | errand index => exact hs.errand _ index hclock
      | eviction =>
        have hnext := nextEviction_of_mem (earliest_mem he)
        exact hs.eviction _ hclock (by rw [hnext]; exact Option.some_ne_none due)
    · exact absurd h (Option.some_ne_none w₁).symm

theorem passFuel (hs : Steady T s I) (fuel : Nat) (hw : I w) :
    I (World.passFuel T s limit fuel w) := by
  induction fuel generalizing w with
  | zero => exact hw
  | succ fuel ih =>
    unfold World.passFuel
    split
    · exact hs.clock w limit hw
    · rename_i w₁ hn
      exact ih (hs.next hw hn)

/-- However much time passes. -/
theorem pass (hs : Steady T s I) (hw : I w) : I (w.pass T s limit) := hs.passFuel _ hw

theorem untilFuel (hs : Steady T s I) {goal : World σ → Bool} (fuel : Nat) (hw : I w) :
    I (World.untilFuel T s limit goal fuel w).2 := by
  induction fuel generalizing w with
  | zero => exact hw
  | succ fuel ih =>
    unfold World.untilFuel
    split
    · exact hw
    · split
      · exact hs.clock w limit hw
      · rename_i w₁ hn
        exact ih (hs.next hw hn)

/-- Until something holds. -/
theorem passUntil (hs : Steady T s I) {goal : World σ → Bool} (hw : I w) :
    I (w.passUntil T s limit goal).2 := hs.untilFuel _ hw

/-- While the end of a pool waits for the links it has lent. -/
theorem drain (hs : Steady T s I) (ms : Option Nat) (hw : I w) : I (w.drain T s ms).2 :=
  hs.passUntil hw

/-- While a try waits for its turn. -/
theorem wait (hs : Steady T s I) (token : Cancel.TokenId) (ms : Nat) (hw : I w) :
    I (w.wait T s token ms).2 := by
  unfold World.wait
  split
  · exact hw
  · exact hs.pass hw

/-! ## Waiting for a link -/

/-- What holds when a borrower comes back: with a link, or without one. -/
def Granted (I : World σ → Prop) (J : LinkId → World σ → Prop) :
    Except String LinkId × World σ → Prop
  | (.ok link, w) => J link w
  | (.error _, w) => I w

theorem Granted.elim {J : LinkId → World σ → Prop} {P : Except String LinkId × World σ → Prop}
    {got : Except String LinkId × World σ} (h : Granted I J got)
    (hok : ∀ link w, J link w → P (.ok link, w)) (herror : ∀ reason w, I w → P (.error reason, w)) :
    P got := by
  obtain ⟨x, w⟩ := got
  cases x with
  | ok link => exact hok link w h
  | error reason => exact herror reason w h

/-- **While a borrower waits, and when it has a link.** -/
theorem borrow {J : LinkId → World σ → Prop} (hs : Steady T s I)
    (hopen : ∀ w : World σ, I w → I { w with pool := w.pool.openOne s.config w.clock })
    (hquit : ∀ w : World σ, I w → I w.giveUp.2)
    (htry : ∀ (w w₁ : World σ) (x : Option LinkId), I w → Borrowed T s w x w₁ →
      match x with
      | some link => J link w₁
      | none => I w₁)
    (hw : I w) : Granted I J (w.borrow T s) := by
  suffices fuelled : ∀ fuel deadline, Granted I J (borrowFuel T s deadline fuel w) from
    fuelled _ _
  intro fuel deadline
  induction fuel generalizing w with
  | zero => exact hquit w hw
  | succ fuel ih =>
    have tried := htry w _ _ hw (borrowed_tryBorrow T s w)
    unfold borrowFuel
    split
    · rename_i link w₁ hx
      rw [hx] at tried
      exact tried
    · rename_i w₁ hx
      rw [hx] at tried
      have waited : I (World.passUntil T s deadline
          (fun v => v.pool.wakeups != (w₁.pool.openOne s.config w₁.clock).wakeups)
          { w₁ with pool := w₁.pool.openOne s.config w₁.clock }).2 :=
        hs.passUntil (hopen w₁ tried)
      dsimp only
      split
      · rename_i w₂ hp
        rw [hp] at waited
        exact ih waited
      · rename_i w₂ hp
        rw [hp] at waited
        exact hquit w₂ waited

/-- What holds whether a borrower has a link or not. -/
theorem borrow_keeps (hs : Steady T s I)
    (hopen : ∀ w : World σ, I w → I { w with pool := w.pool.openOne s.config w.clock })
    (hquit : ∀ w : World σ, I w → I w.giveUp.2)
    (htry : ∀ (w w₁ : World σ) (x : Option LinkId), I w → Borrowed T s w x w₁ → I w₁)
    (hw : I w) : I (w.borrow T s).2 := by
  have granted : Granted I (fun _ => I) (w.borrow T s) := by
    refine hs.borrow hopen hquit (fun v v₁ x hv hb => ?_) hw
    have tried := htry v v₁ x hv hb
    cases x <;> exact tried
  exact granted.elim (P := fun got => I got.2) (fun _ _ h => h) fun _ _ h => h

end Steady

/-! ## What no passing of time changes -/

/-- Whatever depends on the tokens, the phase and the name of batches only is kept. -/
theorem Steady.of_rest
    (h : ∀ w w₁ : World σ, w₁.handles = w.handles → w₁.phase = w.phase →
      w₁.batchName = w.batchName → I w → I w₁) : Steady T s I := by
  refine .of_care (fun w _ hw => h w _ rfl rfl rfl hw) (fun w index hw _ => ?_)
    (fun r w hr hw => ?_) (fun w _ _ _ hw => h w _ rfl rfl rfl hw)
    fun _ v _ _ _ hv => h v _ rfl rfl rfl hv
  · refine h w _ ?_ ?_ ?_ hw <;>
    · unfold settleOpening
      dsimp only
      split <;> rfl
  · have aside : r.isAside = true := by
      cases r <;> first | rfl | exact absurd hr Bool.false_ne_true
    have hrest := rest_answerNow T s aside w
    exact h w _ (congrArg Rest.handles hrest) (congrArg Rest.phase hrest)
      (congrArg Rest.batchName hrest) hw

/-! ## Calls from inside pushes -/

section Inside

variable (T) (e : Engine) (depth : Nat)

/-- Calls from inside come with pushes only. -/
theorem answer_eq_patiently {r : Request} (hr : ∀ link key payload, r ≠ .push link key payload)
    (w : World σ) : w.answer T e depth r = w.answerPatiently T e.pool r := by
  cases depth with
  | zero => rfl
  | succ depth =>
    cases r with
    | push link key payload => exact absurd rfl (hr link key payload)
    | _ => rfl

theorem answer_phase (w : World σ) : w.answer T e depth .phase = (w.phase, w) :=
  answer_eq_patiently T e depth (fun _ _ _ => Request.noConfusion) w

theorem answer_poolPhase (w : World σ) : w.answer T e depth .poolPhase = (w.pool.phase, w) :=
  answer_eq_patiently T e depth (fun _ _ _ => Request.noConfusion) w

end Inside

/-- What does not depend on what was logged holds, whoever hears that. -/
theorem overheard_keeps
    (hlog : ∀ (v : World σ) (log aside : List LogEntry), I v → I { v with log, aside }) {c : Call} {x : Reply × World σ} (hx : I x.2) : I (overheard c w x).2 := by
  unfold overheard
  split
  · exact hx
  · exact hlog x.2 w.log _ hx

/-- Calls from inside a push, one after the other. -/
theorem calls_keep (call : Call → World σ → Reply × World σ)
    (hcall : ∀ c v, I v → I (call c v).2) (hcalled : ∀ v reply, I v → I (v.record (.called reply)))
    (calls : List Call) (hw : I w) :
    I (calls.foldl (fun v c => (call c v).2.record (.called (call c v).1)) w) := by
  induction calls generalizing w with
  | nil => exact hw
  | cons c calls ih => exact ih (hcalled _ _ (hcall c w hw))

end LogShipper.World
