import LogShipper.Proofs.World.Lifecycle
import Mathlib.Data.List.Nodup

/-!
# Checks of idle links in the background

A check takes a batch of links off the stack of idle ones, the way a borrower takes one, pings all
of them, and gives back those that are in order. Two things follow from this.

A pool that pings a link before it lends it does so for a check too. So a link that is in order is
pinged twice, and one that is not is dropped and makes room for the next one in the batch: only the
second ping of a link counts towards the size of the batch.

And the links that a check gives back are on top of the stack again, in the opposite order. So the
next check finds the same ones, and those below are not looked at before somebody borrows a link.

Covers `evict_idle`, and `try_get` and `recycle` in it.

Results:
* `inspected_evict`: which links one check takes, which of them it pings, and what is idle then.
* `evict_spends`: when a check keeps to its budget.
* `evictions_reach_iff`: which links the checks reach that follow one another.
-/

namespace LogShipper

open Delivery (Request Dialogue PoolSettings)

/-! ## Pings -/

/-- A link that was checked, and how it answered. -/
structure Check where
  link : LinkId
  answer : Except LinkError Unit

namespace Check

/-- Whether the link is in order. -/
def passes (c : Check) : Bool := c.answer.toBool

/-- The links that were checked. -/
def links (cs : List Check) : List LinkId := cs.map (·.link)

/-- The links that are in order. -/
def passing (cs : List Check) : List LinkId := links (cs.filter passes)

/-- The links that are not in order. -/
def failing (cs : List Check) : List LinkId := links (cs.filter fun c => !c.passes)

variable {cs : List Check}

theorem length_links (cs : List Check) : (links cs).length = cs.length :=
  List.length_map _

theorem links_append (cs ds : List Check) : links (cs ++ ds) = links cs ++ links ds :=
  List.map_append

/-- A link that is in order is among those that were checked. -/
theorem passing_subset (cs : List Check) : passing cs ⊆ links cs := fun _ hl => by
  obtain ⟨c, hc, rfl⟩ := List.mem_map.mp hl
  exact List.mem_map_of_mem (List.mem_filter.mp hc).1

theorem passing_eq_nil : passing cs = [] ↔ ∀ c ∈ cs, c.passes = false := by
  unfold passing links
  rw [List.map_eq_nil_iff, List.filter_eq_nil_iff]
  exact forall₂_congr fun c _ => iff_of_eq (Bool.not_eq_true _)

/-- If all links are in order, none is not. -/
theorem eq_of_passes (h : ∀ c ∈ cs, c.passes = true) : passing cs = links cs ∧ failing cs = [] := by
  unfold passing failing
  rw [List.filter_eq_self.mpr h, List.filter_eq_nil_iff.mpr fun c hc => by simp [h c hc]]
  exact ⟨rfl, rfl⟩

end Check

open Check (links passing failing)

/-- The check that an act is. -/
def Act.check? : Act → Option Check
  | .pinged link answer => some ⟨link, answer⟩
  | _ => none

namespace World

variable {σ : Type} {T : Transport σ} {s : PoolSettings} {w w₁ w₂ : World σ} {link : LinkId}
  {n : Nat} {cs : List Check}

/-- All pings so far. -/
def pings (w : World σ) : List Check := (w.acts.filterMap Act.check?).reverse

/-- The pings from one state of a world to a later one. -/
def pingsSince (w w₁ : World σ) : List Check := w₁.pings.drop w.pings.length

theorem pingsSince_eq (h : w₁.pings = w.pings ++ cs) : w.pingsSince w₁ = cs := by
  rw [pingsSince, h, List.drop_left]

/-- A ping is added to those so far. -/
theorem ping_pings {x : Except LinkError Unit} (h : w.ping T link = (x, w₁)) :
    w₁.pings = w.pings ++ [⟨link, x⟩] := by
  unfold pings
  rw [(ping_spec h).2.1]
  simp [Act.check?]

/-! ## In a pool that runs -/

/-- A link that is dropped is closed, and not pinged. -/
theorem discard_frame (link : LinkId) (h : w.pool.phase = .running) :
    (w.discard T s link).pool.idle = w.pool.idle ∧
      (w.discard T s link).pool.phase = .running ∧ (w.discard T s link).pings = w.pings := by
  rw [discard_of_running link h]
  obtain ⟨os, hos⟩ := Pool.refill_eq s.config w.clock { w.pool with lent := w.pool.lent.erase link }
  have dropped : w.pool.drop s.config w.clock link = _ := hos
  refine ⟨?_, ?_, rfl⟩
  · simp only [close, record, dropped]
  · simp only [close, record, dropped, h]

theorem dismiss_frame (link : LinkId) (e : LinkError) (h : w.pool.phase = .running) :
    (w.dismiss T s link e).pool.idle = w.pool.idle ∧
      (w.dismiss T s link e).pool.phase = .running ∧ (w.dismiss T s link e).pings = w.pings :=
  discard_frame link (w := { w.raise (checkFailed s e) with pool := w.pool.blame e.message }) h

/-! ## Taking idle links -/

/-- Idle links were taken, each with a check before it if the pool is set to, until so many of them
were in order or none was left. -/
structure Sifted (s : PoolSettings) (n : Nat) (w : World σ) (cs : List Check) (w₁ : World σ) :
    Prop where
  phase : w₁.pool.phase = .running
  idle : w.pool.idle = links cs ++ w₁.pool.idle
  pings : w₁.pings = w.pings ++ if s.config.testOnBorrow then cs else []
  unchecked : s.config.testOnBorrow = false → ∀ c ∈ cs, c.passes = true
  le : (passing cs).length ≤ n
  enough : w₁.pool.idle = [] ∨ (passing cs).length = n
  none_of_zero : n = 0 → cs = []

namespace Sifted

theorem none (hrun : w.pool.phase = .running) (h : w.pool.idle = [] ∨ n = 0) :
    Sifted s n w [] w where
  phase := hrun
  idle := rfl
  pings := by simp
  unchecked _ c hc := absurd hc List.not_mem_nil
  le := Nat.zero_le n
  enough := h.imp_right Eq.symm
  none_of_zero _ := rfl

variable {pool : Pool}

/-- The next link is taken without a check. -/
theorem unchecked_cons (hcheck : s.config.testOnBorrow = false)
    (ht : w.pool.take s.config w.clock = some (link, pool))
    (h : Sifted s n { w with pool } cs w₁) : Sifted s (n + 1) w (⟨link, .ok ()⟩ :: cs) w₁ where
  phase := h.phase
  idle := by
    rw [(Pool.take_spec ht).1]
    exact congrArg (link :: ·) h.idle
  pings := by
    have pings := h.pings
    rw [hcheck] at pings ⊢
    exact pings
  unchecked _ c hc := by
    rcases List.mem_cons.mp hc with rfl | hc
    · rfl
    · exact h.unchecked hcheck c hc
  le := Nat.succ_le_succ h.le
  enough := h.enough.imp_right (congrArg (· + 1))
  none_of_zero hn := absurd hn (Nat.succ_ne_zero n)

/-- The next link passes its check. -/
theorem passed_cons (hcheck : s.config.testOnBorrow = true)
    (ht : w.pool.take s.config w.clock = some (link, pool))
    (hp : ({ w with pool } : World σ).ping T link = (.ok (), w₁))
    (h : Sifted s n w₁ cs w₂) : Sifted s (n + 1) w (⟨link, .ok ()⟩ :: cs) w₂ where
  phase := h.phase
  idle := by
    have taken := h.idle
    rw [(ping_spec hp).1] at taken
    rw [(Pool.take_spec ht).1]
    exact congrArg (link :: ·) taken
  pings := by
    have before : ({ w with pool } : World σ).pings = w.pings := rfl
    rw [h.pings, ping_pings hp, before, hcheck, if_pos rfl, if_pos rfl, List.append_assoc]
    rfl
  unchecked hno := by rw [hcheck] at hno; cases hno
  le := Nat.succ_le_succ h.le
  enough := h.enough.imp_right (congrArg (· + 1))
  none_of_zero hn := absurd hn (Nat.succ_ne_zero n)

/-- The next link does not pass its check and is dropped. -/
theorem failed_cons (hrun : w.pool.phase = .running) (hcheck : s.config.testOnBorrow = true)
    (ht : w.pool.take s.config w.clock = some (link, pool)) {e : LinkError}
    (hp : ({ w with pool } : World σ).ping T link = (.error e, w₁))
    (h : Sifted s (n + 1) (w₁.dismiss T s link e) cs w₂) :
    Sifted s (n + 1) w (⟨link, .error e⟩ :: cs) w₂ := by
  obtain ⟨idle, -, pings⟩ := dismiss_frame (T := T) (s := s) (w := w₁) link e
    (by rw [(ping_spec hp).1]; exact (take_phase ht).trans hrun)
  refine ⟨h.phase, ?_, ?_, fun hno => ?_, h.le, h.enough,
    fun hn => absurd hn (Nat.succ_ne_zero n)⟩
  · have taken := h.idle
    rw [idle, (ping_spec hp).1] at taken
    rw [(Pool.take_spec ht).1]
    exact congrArg (link :: ·) taken
  · have before : ({ w with pool } : World σ).pings = w.pings := rfl
    rw [h.pings, pings, ping_pings hp, before, hcheck, if_pos rfl, if_pos rfl, List.append_assoc]
    rfl
  · rw [hcheck] at hno
    cases hno

end Sifted

theorem take_eq_none (h : w.pool.take s.config w.clock = none) : w.pool.idle = [] := by
  unfold Pool.take at h
  split at h
  · assumption
  · cases h

/-- The rest of a batch, behind one link of it if there is one. -/
def gatherOn (T : Transport σ) (s : PoolSettings) (n : Nat) :
    Option LinkId × World σ → List LinkId × World σ
  | (none, w) => ([], w)
  | (some link, w) =>
    (link :: ((PoolSettings.gather n).run (answerNow T s) w).1,
      ((PoolSettings.gather n).run (answerNow T s) w).2)

theorem run_gather (n : Nat) (w : World σ) :
    (PoolSettings.gather (n + 1)).run (answerNow T s) w = gatherOn T s n (w.tryBorrow T s) := by
  have answered : w.answerNow T s .tryBorrow = w.tryBorrow T s := rfl
  unfold PoolSettings.gather Dialogue.run
  rw [answered]
  generalize w.tryBorrow T s = got
  obtain ⟨x, w₁⟩ := got
  cases x with
  | none => rfl
  | some link => exact Dialogue.run_bind _ _ _ _

/-- Taking the next link of a batch, if taking the rest is known. The induction is on the links that
are taken and dropped before it. -/
theorem sifted_tryBorrow (hrest : ∀ w : World σ, w.pool.phase = .running →
      ∃ cs, Sifted s n w cs ((PoolSettings.gather n).run (answerNow T s) w).2 ∧
        ((PoolSettings.gather n).run (answerNow T s) w).1 = passing cs)
    (fuel : Nat) (hfuel : w.pool.idle.length ≤ fuel) (hrun : w.pool.phase = .running) :
    ∃ cs, Sifted s (n + 1) w cs (gatherOn T s n (tryBorrowFuel T s fuel w)).2 ∧
      (gatherOn T s n (tryBorrowFuel T s fuel w)).1 = passing cs := by
  induction fuel generalizing w with
  | zero =>
    have empty := List.length_eq_zero_iff.mp (Nat.le_zero.mp hfuel)
    exact ⟨[], .none hrun (.inl empty), rfl⟩
  | succ fuel ih =>
    unfold tryBorrowFuel
    split
    · rename_i ht
      exact ⟨[], .none hrun (.inl (take_eq_none ht)), rfl⟩
    · rename_i link pool ht
      have running : pool.phase = .running := (take_phase ht).trans hrun
      dsimp only
      split
      · rename_i hcheck
        split
        · rename_i w₁ hp
          obtain ⟨cs, hsifted, hlinks⟩ := hrest w₁ (by rw [(ping_spec hp).1]; exact running)
          exact ⟨_, hsifted.passed_cons hcheck ht hp, congrArg (link :: ·) hlinks⟩
        · rename_i e w₁ hp
          have pinged : w₁.pool.phase = .running := by rw [(ping_spec hp).1]; exact running
          obtain ⟨idle, phase, -⟩ := dismiss_frame (T := T) (s := s) link e pinged
          have fewer : (w₁.dismiss T s link e).pool.idle.length ≤ fuel := by
            have taken := congrArg List.length (Pool.take_spec ht).1
            rw [List.length_cons] at taken
            rw [idle, (ping_spec hp).1]
            dsimp only
            omega
          obtain ⟨cs, hsifted, hlinks⟩ := ih fewer phase
          exact ⟨_, hsifted.failed_cons hrun hcheck ht hp, hlinks⟩
      · rename_i hcheck
        obtain ⟨cs, hsifted, hlinks⟩ := hrest { w with pool } running
        exact ⟨_, hsifted.unchecked_cons (Bool.eq_false_iff.mpr hcheck) ht,
          congrArg (link :: ·) hlinks⟩

/-- **Taking the links of a batch.** The induction is on its size. -/
theorem sifted_gather (n : Nat) (hrun : w.pool.phase = .running) :
    ∃ cs, Sifted s n w cs ((PoolSettings.gather n).run (answerNow T s) w).2 ∧
      ((PoolSettings.gather n).run (answerNow T s) w).1 = passing cs := by
  induction n generalizing w with
  | zero => exact ⟨[], .none hrun (.inr rfl), rfl⟩
  | succ n ih =>
    rw [run_gather]
    exact sifted_tryBorrow (fun w hw => ih hw) _ (Nat.le_refl _) hrun

/-! ## Pinging a batch, and letting go of it -/

/-- **Pinging the links of a batch.** The induction is on the batch. -/
theorem run_probe (batch : List LinkId) (w : World σ) :
    ∃ cs, links cs = batch ∧ ((s.probe batch).run (answerNow T s) w).1 = failing cs ∧
      ((s.probe batch).run (answerNow T s) w).2.pool = w.pool ∧
      ((s.probe batch).run (answerNow T s) w).2.pings = w.pings ++ cs := by
  induction batch generalizing w with
  | nil => exact ⟨[], rfl, rfl, rfl, (List.append_nil _).symm⟩
  | cons link rest ih =>
    have answered : w.answerNow T s (.ping link) = w.ping T link := rfl
    unfold PoolSettings.probe Dialogue.run
    rw [answered]
    cases hp : w.ping T link with
    | mk x w₁ =>
      have pool := (ping_spec hp).1
      have pings := ping_pings hp
      cases x with
      | ok _ =>
        obtain ⟨cs, hlinks, hfailed, hpool, hpings⟩ := ih w₁
        refine ⟨⟨link, .ok ()⟩ :: cs, congrArg (link :: ·) hlinks, hfailed, hpool.trans pool, ?_⟩
        rw [hpings, pings, List.append_assoc]
        rfl
      | error e =>
        let entry : LogEntry := ⟨.debug, .pool, "Evicting idle connection",
          [("endpoint", s.endpoint.display), ("error", e.message)]⟩
        have onward := Dialogue.run_bind (answerNow T s) (s.probe rest)
          (fun failed => .done (link :: failed)) (w₁.raise entry)
        obtain ⟨cs, hlinks, hfailed, hpool, hpings⟩ := ih (w₁.raise entry)
        refine ⟨⟨link, .error e⟩ :: cs, congrArg (link :: ·) hlinks, ?_, ?_, ?_⟩
        · exact (congrArg Prod.fst onward).trans (congrArg (link :: ·) hfailed)
        · exact (congrArg (·.2.pool) onward).trans (hpool.trans pool)
        · refine (congrArg (·.2.pings) onward).trans (hpings.trans ?_)
          show w₁.pings ++ cs = _
          rw [pings, List.append_assoc]
          rfl

/-- **Letting go of a batch.** The induction is on the batch. -/
theorem run_disband (failed batch : List LinkId) (hrun : w.pool.phase = .running) :
    ((PoolSettings.disband failed batch).run (answerNow T s) w).2.pool.idle =
        (batch.filter fun l => !failed.contains l).reverse ++ w.pool.idle ∧
      ((PoolSettings.disband failed batch).run (answerNow T s) w).2.pool.phase = .running ∧
      ((PoolSettings.disband failed batch).run (answerNow T s) w).2.pings = w.pings := by
  induction batch generalizing w with
  | nil => exact ⟨rfl, hrun, rfl⟩
  | cons link rest ih =>
    unfold PoolSettings.disband Dialogue.run
    cases hlink : failed.contains link with
    | true =>
      obtain ⟨idle, phase, pings⟩ := discard_frame (T := T) (s := s) link hrun
      obtain ⟨hidle, hphase, hpings⟩ := ih phase
      refine ⟨?_, hphase, hpings.trans pings⟩
      rw [List.filter_cons_of_neg (by rw [hlink]; exact Bool.false_ne_true), ← idle]
      exact hidle
    | false =>
      have given := giveBack_of_running (T := T) link hrun
      have phase : (w.giveBack T link).pool.phase = .running := by rw [given]; exact hrun
      have idle : (w.giveBack T link).pool.idle = link :: w.pool.idle := by rw [given]; rfl
      obtain ⟨hidle, hphase, hpings⟩ := ih phase
      refine ⟨?_, hphase, hpings.trans (by rw [given]; rfl)⟩
      rw [List.filter_cons_of_pos (by rw [hlink]; rfl), List.reverse_cons, List.append_assoc]
      exact hidle.trans (congrArg (_ ++ ·) idle)

/-! ## One check -/

/-- One check of idle links: those it took off the stack, each checked then if the pool is set to,
those of them that it pinged together, and what was left. -/
structure Inspected (s : PoolSettings) (w : World σ) (taken tested : List Check)
    (left : List LinkId) (w₁ : World σ) : Prop where
  idle : w.pool.idle = links taken ++ left
  unchecked : s.config.testOnBorrow = false → ∀ c ∈ taken, c.passes = true
  le : (passing taken).length ≤ s.config.evictionBatchSize.toNat
  enough : left = [] ∨ (passing taken).length = s.config.evictionBatchSize.toNat
  none_of_zero : s.config.evictionBatchSize.toNat = 0 → taken = []
  together : links tested = passing taken
  pings : w₁.pings = w.pings ++ ((if s.config.testOnBorrow then taken else []) ++ tested)
  after : w₁.pool.idle =
    ((passing taken).filter fun l => !(failing tested).contains l).reverse ++ left
  phase : w₁.pool.phase = .running

/-- The parts of a check, with nothing between them but a log entry. -/
theorem run_evict (T : Transport σ) (s : PoolSettings) (w : World σ) :
    let gathered := (PoolSettings.gather s.config.evictionBatchSize.toNat).run (answerNow T s) w
    let probed := (s.probe gathered.1).run (answerNow T s) gathered.2
    ∃ log, (s.evict.run (answerNow T s) w).2 =
      ((PoolSettings.disband probed.1 gathered.1).run (answerNow T s)
        { probed.2 with log }).2 := by
  intro gathered probed
  have parts : s.evict.run (answerNow T s) w = Dialogue.run (answerNow T s) _ probed.2 :=
    (Dialogue.run_bind _ (PoolSettings.gather _) _ w).trans
      (Dialogue.run_bind _ (s.probe gathered.1) _ gathered.2)
  rw [parts]
  dsimp only
  split
  · exact ⟨_, rfl⟩
  · exact ⟨probed.2.log, rfl⟩

/-- **One check of idle links.** -/
theorem inspected_evict (T : Transport σ) (hrun : w.pool.phase = .running) :
    ∃ taken tested left, Inspected s w taken tested left (w.happen T s .eviction) := by
  obtain ⟨log, hevict⟩ := run_evict T s w
  obtain ⟨taken, hsifted, htaken⟩ :=
    sifted_gather (T := T) (s := s) s.config.evictionBatchSize.toNat hrun
  rw [htaken] at hevict
  obtain ⟨tested, hlinks, hfailed, hpool, hpings⟩ := run_probe (T := T) (s := s) (passing taken)
    ((PoolSettings.gather s.config.evictionBatchSize.toNat).run (answerNow T s) w).2
  rw [hfailed] at hevict
  revert hsifted hevict hpool hpings
  generalize ((PoolSettings.gather s.config.evictionBatchSize.toNat).run (answerNow T s) w).2 = w₁
  generalize ((s.probe (passing taken)).run (answerNow T s) w₁).2 = w₂
  intro hsifted hevict hpool hpings
  obtain ⟨idle, phase, pings⟩ := run_disband (T := T) (s := s) (failing tested) (passing taken)
    (w := { w₂ with log }) (by rw [← hsifted.phase, ← hpool])
  rw [← hevict] at idle phase pings
  refine ⟨taken, tested, w₁.pool.idle, hsifted.idle, hsifted.unchecked, hsifted.le,
    hsifted.enough, hsifted.none_of_zero, hlinks, ?_, ?_, phase⟩
  · have all : (w.happen T s .eviction).pings = w₂.pings := pings
    rw [all, hpings, hsifted.pings, List.append_assoc]
  · have same : ({ w₂ with log } : World σ).pool.idle = w₁.pool.idle := congrArg Pool.idle hpool
    rw [same] at idle
    exact idle

/-! ## What a check spends -/

/-- Checks within a budget: no more than it allows, and none of a link twice. -/
structure InBudget (budget : Nat) (cs : List Check) : Prop where
  few : cs.length ≤ budget
  once : (links cs).Nodup

namespace Inspected

variable {taken tested : List Check} {left : List LinkId}

theorem sent (h : Inspected s w taken tested left w₁) :
    w.pingsSince w₁ = (if s.config.testOnBorrow then taken else []) ++ tested :=
  pingsSince_eq h.pings

/-- If all links that are taken are in order, they are those on top of the stack. -/
theorem links_taken (h : Inspected s w taken tested left w₁)
    (hpass : ∀ c ∈ taken, c.passes = true) :
    links taken = w.pool.idle.take s.config.evictionBatchSize.toNat ∧
      left = w.pool.idle.drop s.config.evictionBatchSize.toNat := by
  have le := h.le
  have enough := h.enough
  rw [(Check.eq_of_passes hpass).1] at le enough
  rw [h.idle]
  rcases enough with rfl | hlength
  · rw [List.append_nil, List.take_of_length_le le, List.drop_of_length_le le]
    exact ⟨rfl, rfl⟩
  · rw [List.take_left' hlength, List.drop_left' hlength]
    exact ⟨rfl, rfl⟩

/-- If no link is in order when it is taken, none is pinged a second time. -/
theorem tested_eq_nil (h : Inspected s w taken tested left w₁) (hnone : passing taken = []) :
    tested = [] := by
  have together := h.together
  rw [hnone] at together
  exact List.map_eq_nil_iff.mp together

/-- **A pool that checks links before it lends them** keeps to the budget of a check only if the
check finds no link in order. -/
theorem inBudget_of_checked (h : Inspected s w taken tested left w₁)
    (hcheck : s.config.testOnBorrow = true) (hnodup : w.pool.idle.Nodup) :
    InBudget s.config.evictionBatchSize.toNat (w.pingsSince w₁) ↔
      s.config.evictionBatchSize.toNat = 0 ∨ ((∀ c ∈ w.pingsSince w₁, c.passes = false) ∧
        w.pool.idle.length ≤ s.config.evictionBatchSize.toNat) := by
  have sent := h.sent
  rw [hcheck, if_pos rfl] at sent
  rw [sent]
  constructor
  · rintro ⟨few, once⟩
    by_cases hpos : s.config.evictionBatchSize.toNat = 0
    · exact .inl hpos
    refine .inr ?_
    -- a link that is in order when it is taken is pinged once more with the batch
    have none : passing taken = [] := by
      refine List.eq_nil_iff_forall_not_mem.mpr fun l hl => ?_
      rw [Check.links_append, h.together] at once
      exact (List.nodup_append.mp once).2.2 l (Check.passing_subset taken hl) l hl rfl
    have nothing := h.tested_eq_nil none
    subst nothing
    rw [List.append_nil] at few ⊢
    refine ⟨Check.passing_eq_nil.mp none, ?_⟩
    rcases h.enough with rfl | hfull
    · rw [h.idle, List.append_nil, Check.length_links]
      exact few
    · rw [none] at hfull
      exact absurd hfull.symm hpos
  · rintro (hzero | ⟨hfail, hfew⟩)
    · obtain rfl := h.none_of_zero hzero
      rw [h.tested_eq_nil rfl]
      exact ⟨Nat.zero_le _, List.nodup_nil⟩
    · have none : passing taken = [] :=
        Check.passing_eq_nil.mpr fun c hc => hfail c (List.mem_append_left _ hc)
      rw [h.tested_eq_nil none, List.append_nil]
      rw [h.idle] at hfew hnodup
      rw [List.length_append, Check.length_links] at hfew
      exact ⟨by omega, (List.nodup_append.mp hnodup).1⟩

end Inspected

/-- What one check of idle links spends in pings. -/
structure Spends (s : PoolSettings) (w w₁ : World σ) : Prop where
  /-- Links that are taken unchecked are pinged once each. -/
  unchecked : s.config.testOnBorrow = false →
    links (w.pingsSince w₁) = w.pool.idle.take s.config.evictionBatchSize.toNat
  /-- Links that are checked when they are taken are pinged then, and once more if they are in
  order. Links are taken until there are enough of these or none is left. -/
  checked : s.config.testOnBorrow = true → ∃ taken tested left,
    w.pingsSince w₁ = taken ++ tested ∧ links tested = passing taken ∧
      w.pool.idle = links taken ++ left ∧
      (passing taken).length ≤ s.config.evictionBatchSize.toNat ∧
      (left = [] ∨ (passing taken).length = s.config.evictionBatchSize.toNat)
  inBudget_iff : InBudget s.config.evictionBatchSize.toNat (w.pingsSince w₁) ↔
    s.config.testOnBorrow = false ∨ s.config.evictionBatchSize.toNat = 0 ∨
      ((∀ c ∈ w.pingsSince w₁, c.passes = false) ∧
        w.pool.idle.length ≤ s.config.evictionBatchSize.toNat)

/-- **What one check of idle links spends**, whatever is answered to its pings: it keeps to its
budget if links are lent unchecked, and else only if it finds no link in order. -/
theorem evict_spends (T : Transport σ) (hrun : w.pool.phase = .running)
    (hnodup : w.pool.idle.Nodup) : Spends s w (w.happen T s .eviction) := by
  obtain ⟨taken, tested, left, h⟩ := inspected_evict (s := s) T hrun
  have sent := h.sent
  cases hcheck : s.config.testOnBorrow with
  | true =>
    rw [hcheck, if_pos rfl] at sent
    refine ⟨fun hno => ?_, fun _ => ?_, ?_⟩
    · rw [hcheck] at hno
      cases hno
    · exact ⟨taken, tested, left, sent, h.together, h.idle, h.le, h.enough⟩
    · rw [h.inBudget_of_checked hcheck hnodup, hcheck]
      simp
  | false =>
    rw [hcheck, if_neg Bool.false_ne_true, List.nil_append] at sent
    have pass := h.unchecked hcheck
    have once : links (w.pingsSince (w.happen T s .eviction)) =
        w.pool.idle.take s.config.evictionBatchSize.toNat := by
      rw [sent, h.together, (Check.eq_of_passes pass).1, (h.links_taken pass).1]
    refine ⟨fun _ => once, fun hyes => ?_, ⟨fun _ => .inl hcheck, fun _ => ⟨?_, ?_⟩⟩⟩
    · rw [hcheck] at hyes
      cases hyes
    · rw [← Check.length_links, once]
      exact List.length_take_le _ _
    · rw [once]
      exact hnodup.sublist (List.take_sublist _ _)

/-- A check that has a budget of one pings a single idle link twice if it is in order, and of two
idle links it pings both if they are not. -/
theorem pinged_twice :
    let s : PoolSettings :=
      { endpoint := { host := "localhost" }, config := { evictionBatchSize := 1 } }
    let one : World ScriptedStore :=
      { remote := {}, pool := { phase := .running, idle := [0], opened := 1 } }
    let two : World ScriptedStore :=
      { remote := { pingFailures := .always }
        pool := { phase := .running, idle := [1, 0], opened := 2 } }
    links (one.pingsSince (one.happen ScriptedStore.transport s .eviction)) = [0, 0] ∧
      links (two.pingsSince (two.happen ScriptedStore.transport s .eviction)) = [1, 0] := by
  decide +kernel

theorem evict_spends_of_one_idle :
    let s : PoolSettings :=
      { endpoint := { host := "localhost" }, config := { evictionBatchSize := 1 } }
    let w : World ScriptedStore :=
      { remote := {}, pool := { phase := .running, idle := [0], opened := 1 } }
    w.pool.phase = .running ∧ w.pool.idle.Nodup ∧
      Spends s w (w.happen ScriptedStore.transport s .eviction) := by
  intro s w
  exact ⟨rfl, by decide, evict_spends _ rfl (by decide)⟩

/-! ## One check after the other -/

/-- So many checks, with nothing between them. -/
def evictions (T : Transport σ) (s : PoolSettings) : Nat → World σ → World σ
  | 0, w => w
  | n + 1, w => evictions T s n (w.happen T s .eviction)

/-- A stack on which the top has been turned round has the same links on top. -/
theorem take_turned (b : Nat) (idle : List LinkId) :
    ((idle.take b).reverse ++ idle.drop b).take b = (idle.take b).reverse := by
  by_cases hb : b ≤ idle.length
  · exact List.take_left' (by rw [List.length_reverse, List.length_take, Nat.min_eq_left hb])
  · rw [List.drop_of_length_le (by omega), List.append_nil, List.take_of_length_le]
    rw [List.length_reverse, List.length_take]
    exact Nat.min_le_left b _

/-- A check in which no ping fails pings the links on top of the stack, and turns them round. -/
theorem Inspected.turned {taken tested : List Check} {left : List LinkId}
    (h : Inspected s w taken tested left w₁)
    (hpass : ∀ c ∈ w.pingsSince w₁, c.passes = true) :
    (∀ l, l ∈ links (w.pingsSince w₁) ↔
        l ∈ w.pool.idle.take s.config.evictionBatchSize.toNat) ∧
      w₁.pool.idle = (w.pool.idle.take s.config.evictionBatchSize.toNat).reverse ++
        w.pool.idle.drop s.config.evictionBatchSize.toNat := by
  rw [h.sent] at hpass ⊢
  have first : ∀ c ∈ taken, c.passes = true := fun c hc => by
    cases hcheck : s.config.testOnBorrow with
    | true => exact hpass c (List.mem_append_left _ (by rwa [hcheck]))
    | false => exact h.unchecked hcheck c hc
  have second : ∀ c ∈ tested, c.passes = true := fun c hc => hpass c (List.mem_append_right _ hc)
  obtain ⟨htaken, hleft⟩ := h.links_taken first
  have together := h.together
  rw [(Check.eq_of_passes first).1, htaken] at together
  constructor
  · intro l
    rw [Check.links_append, List.mem_append, together]
    cases s.config.testOnBorrow with
    | true =>
      rw [if_pos rfl, htaken]
      exact or_self_iff
    | false => exact ⟨fun hl => hl.resolve_left List.not_mem_nil, .inr⟩
  · rw [h.after, (Check.eq_of_passes first).1, (Check.eq_of_passes second).2, htaken, hleft]
    congr 2
    exact List.filter_eq_self.mpr fun _ _ => rfl

/-- **Checks reach the top of the stack only.** The induction is on the checks: each of them finds
the same links on top. -/
theorem evictions_reach (T : Transport σ) (k : Nat) (hrun : w.pool.phase = .running) :
    ∃ cs, (w.evictions T s k).pings = w.pings ++ cs ∧ ((∀ c ∈ cs, c.passes = true) →
      ∀ l, l ∈ links cs ↔ 0 < k ∧ l ∈ w.pool.idle.take s.config.evictionBatchSize.toNat) := by
  induction k generalizing w with
  | zero => exact ⟨[], (List.append_nil _).symm, fun _ l => by simp [links]⟩
  | succ k ih =>
    obtain ⟨taken, tested, left, h⟩ := inspected_evict (s := s) T hrun
    obtain ⟨cs, hpings, hreach⟩ := ih h.phase
    refine ⟨w.pingsSince (w.happen T s .eviction) ++ cs, ?_, fun hpass l => ?_⟩
    · rw [h.sent, ← List.append_assoc, ← h.pings]
      exact hpings
    · obtain ⟨reached, turned⟩ := h.turned fun c hc => hpass c (List.mem_append_left _ hc)
      rw [Check.links_append, List.mem_append, reached,
        hreach fun c hc => hpass c (List.mem_append_right _ hc), turned, take_turned,
        List.mem_reverse]
      constructor
      · rintro (hl | ⟨-, hl⟩)
        · exact ⟨Nat.succ_pos k, hl⟩
        · exact ⟨Nat.succ_pos k, hl⟩
      · exact fun hl => .inl hl.2

/-- **Which links the checks in the background reach**: if nothing else is done with the pool and no
ping fails, those of the first batch and no others, however many checks there are. -/
theorem evictions_reach_iff (T : Transport σ) {k : Nat} (hrun : w.pool.phase = .running)
    (hnodup : w.pool.idle.Nodup) (hbatch : 1 ≤ s.config.evictionBatchSize.toNat)
    (hk : (w.pool.idle.length + s.config.evictionBatchSize.toNat - 1) /
      s.config.evictionBatchSize.toNat ≤ k)
    (hpass : ∀ c ∈ w.pingsSince (w.evictions T s k), c.passes = true) :
    (∀ l ∈ w.pool.idle, (l ∈ links (w.pingsSince (w.evictions T s k)) ↔
        l ∈ w.pool.idle.take s.config.evictionBatchSize.toNat)) ∧
      ((∀ l ∈ w.pool.idle, l ∈ links (w.pingsSince (w.evictions T s k))) ↔
        w.pool.idle.length ≤ s.config.evictionBatchSize.toNat) := by
  obtain ⟨cs, hpings, hreach⟩ := evictions_reach (s := s) T k hrun
  rw [pingsSince_eq hpings] at hpass ⊢
  have reached := hreach hpass
  have each : ∀ l ∈ w.pool.idle, (l ∈ links cs ↔
      l ∈ w.pool.idle.take s.config.evictionBatchSize.toNat) := by
    intro l hl
    have hidle := List.length_pos_of_mem hl
    have hpos : 0 < k := Nat.lt_of_lt_of_le (Nat.div_pos (by omega) hbatch) hk
    rw [reached]
    exact and_iff_right hpos
  refine ⟨each, fun hall => ?_, fun hle l hl => ?_⟩
  · -- the link right below the first batch is not reached
    refine Nat.le_of_not_lt fun hlt => ?_
    have below := (each _ (List.getElem_mem hlt)).mp (hall _ (List.getElem_mem hlt))
    obtain ⟨i, hi, heq⟩ := List.getElem_of_mem below
    rw [List.getElem_take] at heq
    rw [List.length_take] at hi
    have := (List.Nodup.getElem_inj_iff hnodup).mp heq
    omega
  · rw [each l hl, List.take_of_length_le hle]
    exact hl

/-- Two checks that have a budget of one, with two idle links that are in order: it is the one on
top that is pinged both times. -/
theorem never_checked :
    let s : PoolSettings :=
      { endpoint := { host := "localhost" }
        config := { testOnBorrow := false, evictionBatchSize := 1 } }
    let w : World ScriptedStore :=
      { remote := {}, pool := { phase := .running, idle := [1, 0], opened := 2 } }
    links (w.pingsSince (w.evictions ScriptedStore.transport s 2)) = [1, 1] ∧
      ∀ c ∈ w.pingsSince (w.evictions ScriptedStore.transport s 2), c.passes = true := by
  decide +kernel

theorem evictions_reach_iff_of_two_idle :
    let s : PoolSettings :=
      { endpoint := { host := "localhost" }
        config := { testOnBorrow := false, evictionBatchSize := 1 } }
    let w : World ScriptedStore :=
      { remote := {}, pool := { phase := .running, idle := [1, 0], opened := 2 } }
    (∀ l ∈ w.pool.idle,
      (l ∈ links (w.pingsSince (w.evictions ScriptedStore.transport s 2)) ↔ l ∈ [1])) ∧
      ((∀ l ∈ w.pool.idle, l ∈ links (w.pingsSince (w.evictions ScriptedStore.transport s 2))) ↔
        2 ≤ 1) := by
  intro s w
  exact evictions_reach_iff ScriptedStore.transport rfl (by decide) (by decide) (by decide)
    (by decide +kernel)

end World

end LogShipper
