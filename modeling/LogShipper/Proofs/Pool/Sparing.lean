import LogShipper.Proofs.Pool.Eviction
import LogShipper.Proofs.Pool.Floor
import LogShipper.Proofs.Pool.Tenancy

/-!
# What a background check leaves of the idle links

A check takes a batch of idle links, holds them together and lets go of each: a link that has passed
all its pings is idle again, and one that has failed a ping is closed. It does nothing to links
but ping and close them (`World.did_evict`). By the census the links that were idle are therefore
those that are idle after it and those that it closed, with none missing and none twice.

Covers `evict_idle`.

Results:
* `tryBorrowFuel_eq`: the search for an idle link ends.
* `Inspected.idle_iff`: a link is idle after a check if it was before and has failed no ping.
* `Census.idle_perm`: what was idle is idle or closed, as long as links are only pinged and closed.
* `evict_spares`: where the idle links are after a check.
-/

namespace LogShipper

open Delivery (Request Dialogue PoolSettings Ledger)
open Check (links passing failing)

/-- Whether the act pings or closes a link. -/
def Act.isCheck : Act → Bool
  | .pinged _ _ => true
  | .closed _ => true
  | _ => false

/-! ## Links that failed -/

namespace Check

variable {cs ds : List Check} {l : LinkId}

theorem failing_append (cs ds : List Check) : failing (cs ++ ds) = failing cs ++ failing ds := by
  unfold failing
  rw [List.filter_append, links_append]

theorem failing_subset (cs : List Check) : failing cs ⊆ links cs := fun _ hl => by
  obtain ⟨c, hc, rfl⟩ := List.mem_map.mp hl
  exact List.mem_map_of_mem (List.mem_filter.mp hc).1

/-- A link that was checked is in order or is not. -/
theorem mem_passing_or_failing (h : l ∈ links cs) : l ∈ passing cs ∨ l ∈ failing cs := by
  obtain ⟨c, hc, rfl⟩ := List.mem_map.mp h
  cases hp : c.passes with
  | true => exact .inl (List.mem_map_of_mem (List.mem_filter.mpr ⟨hc, hp⟩))
  | false => exact .inr (List.mem_map_of_mem (List.mem_filter.mpr ⟨hc, by rw [hp]; rfl⟩))

/-- A link that was checked once does not both pass and fail. -/
theorem not_mem_failing (hn : (links cs).Nodup) (h : l ∈ passing cs) : l ∉ failing cs := by
  intro hf
  obtain ⟨c, hc, rfl⟩ := List.mem_map.mp h
  obtain ⟨d, hd, hdc⟩ := List.mem_map.mp hf
  obtain ⟨hc, hpass⟩ := List.mem_filter.mp hc
  obtain ⟨hd, hfail⟩ := List.mem_filter.mp hd
  obtain rfl : d = c := List.inj_on_of_nodup_map hn hd hc hdc
  rw [hpass] at hfail
  exact absurd hfail Bool.false_ne_true

end Check

namespace World

variable {σ : Type} {T : Transport σ} {s : PoolSettings} {w w₁ w₂ : World σ} {l : LinkId}

/-! ## What is done to links -/

/-- What was done to links from one state of a world to a later one, the latest act first. -/
def actsSince (w w₁ : World σ) : List Act := w₁.acts.take (w₁.acts.length - w.acts.length)

/-- The links that were closed from one state of a world to a later one. -/
def closedSince (w w₁ : World σ) : List LinkId := (w.actsSince w₁).filterMap Act.closedLink?

/-- From one state of a world to a later one nothing was done to links but such acts. -/
def Did (kind : Act → Bool) (w w₁ : World σ) : Prop :=
  ∃ acts, w₁.acts = acts ++ w.acts ∧ ∀ a ∈ acts, kind a = true

namespace Did

variable {kind : Act → Bool}

theorem of_eq (h : w₁.acts = w.acts) : Did kind w w₁ := ⟨[], h, fun _ ha => nomatch ha⟩

theorem trans (h : Did kind w w₁) (h' : Did kind w₁ w₂) : Did kind w w₂ := by
  obtain ⟨acts, hacts, hkind⟩ := h
  obtain ⟨acts', hacts', hkind'⟩ := h'
  refine ⟨acts' ++ acts, ?_, List.forall_mem_append.mpr ⟨hkind', hkind⟩⟩
  rw [hacts', hacts, List.append_assoc]

theorem of_cons {a : Act} (ha : kind a = true) (h : w₁.acts = a :: w.acts) : Did kind w w₁ :=
  ⟨[a], h, fun b hb => by rwa [List.mem_singleton.mp hb]⟩

theorem acts_eq (h : Did kind w w₁) :
    w₁.acts = w.actsSince w₁ ++ w.acts ∧ ∀ a ∈ w.actsSince w₁, kind a = true := by
  obtain ⟨acts, hacts, hkind⟩ := h
  have since : w.actsSince w₁ = acts := by
    unfold actsSince
    rw [hacts, List.length_append, Nat.add_sub_cancel_right, List.take_left]
  rw [since]
  exact ⟨hacts, hkind⟩

/-- The pings among what was done. -/
theorem pingsSince_eq (h : Did kind w w₁) :
    w.pingsSince w₁ = ((w.actsSince w₁).filterMap Act.check?).reverse := by
  refine World.pingsSince_eq ?_
  unfold pings
  rw [h.acts_eq.1, List.filterMap_append, List.reverse_append]

theorem closings_eq (h : Did kind w w₁) (l : LinkId) :
    closings w₁.acts l = (w.closedSince w₁).count l + closings w.acts l := by
  unfold closedSince
  rw [count_closedLinks]
  show closings w₁.acts l = closings (w.actsSince w₁) l + closings w.acts l
  rw [h.acts_eq.1]
  exact List.countP_append

theorem openings_eq (h : Did Act.isCheck w w₁) (l : LinkId) :
    openings w₁.acts l = openings w.acts l := by
  obtain ⟨hacts, hkind⟩ := h.acts_eq
  have none : (w.actsSince w₁).countP (·.opens l) = 0 := by
    refine List.countP_eq_zero.mpr fun a ha => ?_
    have := hkind a ha
    cases a <;> first | exact Bool.false_ne_true | exact absurd this Bool.false_ne_true
  unfold openings
  rw [hacts, List.countP_append, none, Nat.zero_add]

end Did

section Checks

variable (T s)

theorem did_closeAll (links : List LinkId) (w : World σ) :
    Did Act.isCheck w (closeAll T links w) := by
  induction links generalizing w with
  | nil => exact .of_eq rfl
  | cons link links ih => exact (Did.of_cons rfl rfl).trans (ih (w.close T link))

theorem did_settleForsaken (w : World σ) : Did Act.isCheck w (w.settleForsaken T) := by
  unfold settleForsaken
  split
  · exact did_closeAll T w.pool.idle { w with pool := w.pool.forsake }
  · exact .of_eq rfl

theorem did_discard (link : LinkId) (w : World σ) : Did Act.isCheck w (w.discard T s link) :=
  (Did.of_cons rfl rfl).trans (did_settleForsaken T
    (({ w with pool := w.pool.drop s.config w.clock link } : World σ).close T link))

variable {T s}

theorem Borrowed.did {x : Option LinkId} (h : Borrowed T s w x w₁) : Did Act.isCheck w w₁ := by
  induction h with
  | none w => exact .of_eq rfl
  | unchecked ht => exact .of_eq rfl
  | passed ht hp => exact .of_cons rfl (ping_spec hp).2.1
  | @failed w w₁ w₂ link pool e x ht hp _ ih =>
    have pinged : Did Act.isCheck w w₁ := .of_cons rfl (ping_spec hp).2.1
    have dismissed : Did Act.isCheck w₁ (w₁.dismiss T s link e) :=
      did_discard T s link { w₁.raise (checkFailed s e) with pool := w₁.pool.blame e.message }
    exact (pinged.trans dismissed).trans ih

theorem did_answerNow {r : Request} (hr : r.isCheck = true) (w : World σ) :
    Did Act.isCheck w (w.answerNow T s r).2 := by
  cases r with
  | tryBorrow => exact (borrowed_tryBorrow T s w).did
  | ping link => exact .of_cons rfl rfl
  | giveBack link => exact did_settleForsaken T { w with pool := w.pool.putBack link }
  | discard link => exact did_discard T s link w
  | log entry => exact .of_eq rfl
  | _ => exact absurd hr Bool.false_ne_true

/-- **A check only pings and closes links.** -/
theorem did_evict (T : Transport σ) (s : PoolSettings) (w : World σ) :
    Did Act.isCheck w (w.happen T s .eviction) :=
  s.evict_checks.run (I := fun v => Did Act.isCheck w v)
    (fun _ v hr hv => hv.trans (did_answerNow hr v)) (.of_eq rfl)

end Checks

/-! ## Links being opened -/

/-- Of a pool that misses no idle link, a link is dropped and none is opened for it. -/
theorem discard_openings (link : LinkId) (hrun : w.pool.phase = .running)
    (hle : s.config.floor ≤ w.pool.idle.length) :
    (w.discard T s link).pool.openings = w.pool.openings := by
  rw [discard_of_running link hrun]
  show (w.pool.drop s.config w.clock link).openings = _
  rw [Pool.drop_of_floor_le link w.clock hle]

theorem Borrowed.openings {x : Option LinkId} (hb : Borrowed T s w x w₁)
    (hrun : w.pool.phase = .running) (hfloor : s.config.floor = 0) :
    w₁.pool.openings = w.pool.openings := by
  have enough (p : Pool) : s.config.floor ≤ p.idle.length := hfloor ▸ Nat.zero_le _
  induction hb with
  | none w => rfl
  | unchecked ht => exact Pool.take_openings ht (enough _)
  | passed ht hp =>
    rw [(ping_spec hp).1]
    exact Pool.take_openings ht (enough _)
  | @failed w w₁ w₂ link pool e x ht hp hb ih =>
    have still : w₁.pool.phase = .running := by
      rw [(ping_spec hp).1]
      exact (take_phase ht).trans hrun
    have dismissed : (w₁.dismiss T s link e).pool.openings = w₁.pool.openings :=
      discard_openings (w := { w₁.raise (checkFailed s e) with pool := w₁.pool.blame e.message })
        link still (enough _)
    rw [ih (dismiss_frame link e still).2.1, dismissed, (ping_spec hp).1]
    exact Pool.take_openings ht (enough _)

/-- **No link is opened for a check** if none are to be kept open unasked. -/
theorem openings_evict (hrun : w.pool.phase = .running) (hfloor : s.config.floor = 0) :
    (w.happen T s .eviction).pool.openings = w.pool.openings := by
  have checked : (s.evict.run (answerNow T s) w).2.pool.phase = .running ∧
      (s.evict.run (answerNow T s) w).2.pool.openings = w.pool.openings := by
    refine s.evict_checks.run (I := fun v : World σ =>
      v.pool.phase = .running ∧ v.pool.openings = w.pool.openings)
      (fun r v hr hv => ⟨?_, ?_⟩) ⟨hrun, rfl⟩
    · have steady : r.isSteady = true :=
        Request.isSteady_of_isSending (Request.isSending_of_isCare (Request.isCare_of_isCheck hr))
      exact (congrArg Phases.pool (phases_answerNow T s steady v)).trans hv.1
    · cases r with
      | tryBorrow => exact ((borrowed_tryBorrow T s v).openings hv.1 hfloor).trans hv.2
      | ping link => exact hv.2
      | giveBack link =>
        show (v.giveBack T link).pool.openings = _
        rw [giveBack_of_running link hv.1]
        exact hv.2
      | discard link =>
        exact (discard_openings link hv.1 (hfloor ▸ Nat.zero_le _)).trans hv.2
      | log entry => exact hv.2
      | _ => exact absurd hr Bool.false_ne_true
  exact checked.2

/-! ## Which links are idle afterwards -/

namespace Inspected

variable {taken tested : List Check} {left : List LinkId}

/-- The links that failed a ping: when they were taken, or with the batch. -/
theorem failing_sent (h : Inspected s w taken tested left w₁) :
    failing (w.pingsSince w₁) = failing taken ++ failing tested := by
  rw [h.sent]
  cases hcheck : s.config.testOnBorrow with
  | true => rw [if_pos rfl, Check.failing_append]
  | false =>
    rw [if_neg Bool.false_ne_true, List.nil_append,
      (Check.eq_of_passes (h.unchecked hcheck)).2, List.nil_append]

/-- Only idle links are pinged. -/
theorem links_sent (h : Inspected s w taken tested left w₁) :
    links (w.pingsSince w₁) ⊆ w.pool.idle := by
  intro l hl
  have of_taken (ht : l ∈ links taken) : l ∈ w.pool.idle := by
    rw [h.idle]
    exact List.mem_append_left left ht
  rw [h.sent, Check.links_append, List.mem_append, h.together] at hl
  rcases hl with hl | hl
  · split at hl
    · exact of_taken hl
    · exact absurd hl List.not_mem_nil
  · exact of_taken (Check.passing_subset taken hl)

/-- There are at most two pings for each idle link. -/
theorem length_sent_le (h : Inspected s w taken tested left w₁) :
    (w.pingsSince w₁).length ≤ 2 * w.pool.idle.length := by
  have first : (if s.config.testOnBorrow then taken else []).length ≤ taken.length := by
    split
    · exact Nat.le_refl _
    · exact Nat.zero_le _
  have second : tested.length ≤ taken.length := by
    rw [← Check.length_links, h.together]
    exact Nat.le_trans (Nat.le_of_eq (List.length_map _)) (List.length_filter_le _ _)
  rw [h.sent, h.idle, List.length_append, List.length_append, Check.length_links]
  omega

/-- **A link is idle after a check** if it was before and has failed no ping. -/
theorem idle_iff (h : Inspected s w taken tested left w₁) (hn : w.pool.idle.Nodup) (l : LinkId) :
    l ∈ w₁.pool.idle ↔ l ∈ w.pool.idle ∧ l ∉ failing (w.pingsSince w₁) := by
  rw [h.idle] at hn
  obtain ⟨once, -, apart⟩ := List.nodup_append.mp hn
  have of_tested : failing tested ⊆ passing taken := by
    rw [← h.together]
    exact Check.failing_subset tested
  rw [h.failing_sent, h.after, h.idle, List.mem_append, List.mem_append, List.mem_append,
    List.mem_reverse, List.mem_filter]
  constructor
  · rintro (⟨hpass, hkept⟩ | hleft)
    · refine ⟨.inl (Check.passing_subset taken hpass), ?_⟩
      rintro (hfail | hfail)
      · exact Check.not_mem_failing once hpass hfail
      · rw [List.contains_iff_mem.mpr hfail] at hkept
        exact Bool.false_ne_true hkept
    · refine ⟨.inr hleft, ?_⟩
      rintro (hfail | hfail)
      · exact apart l (Check.failing_subset taken hfail) l hleft rfl
      · exact apart l (Check.passing_subset taken (of_tested hfail)) l hleft rfl
  · rintro ⟨htaken | hleft, hkept⟩
    · refine .inl ⟨(Check.mem_passing_or_failing htaken).resolve_right fun hf => hkept (.inl hf), ?_⟩
      rw [Bool.not_eq_true', ← Bool.not_eq_true, List.contains_iff_mem]
      exact fun hf => hkept (.inr hf)
    · exact .inr hleft

end Inspected

/-! ## The search for an idle link -/

/-- A link that is discarded does not become idle. -/
theorem length_idle_discard_le (T : Transport σ) (s : PoolSettings) (link : LinkId) (w : World σ) :
    (w.discard T s link).pool.idle.length ≤ w.pool.idle.length := by
  obtain ⟨os, hos⟩ := Pool.refill_eq s.config w.clock
    { w.pool with lent := w.pool.lent.erase link }
  have same := congrArg Pool.idle hos
  unfold discard settleForsaken
  split
  · rw [closeAll_pool]
    exact Nat.zero_le _
  · exact Nat.le_of_eq (congrArg List.length same)

/-- **The search for an idle link ends**: it takes one off the stack each time, and were it to go on
for longer, it would find no other. -/
theorem tryBorrowFuel_eq (T : Transport σ) (s : PoolSettings) {fuel : Nat}
    (h : w.pool.idle.length ≤ fuel) : tryBorrowFuel T s fuel w = w.tryBorrow T s := by
  suffices more : ∀ n m (v : World σ), v.pool.idle.length ≤ n → v.pool.idle.length ≤ m →
      tryBorrowFuel T s n v = tryBorrowFuel T s m v from more _ _ w h (Nat.le_refl _)
  have stuck (v : World σ) (hv : v.pool.idle.length ≤ 0) (m : Nat) :
      tryBorrowFuel T s m v = (none, v) := by
    have empty : v.pool.take s.config v.clock = none := by
      unfold Pool.take
      rw [List.length_eq_zero_iff.mp (Nat.le_zero.mp hv)]
    cases m with
    | zero => rfl
    | succ m => rw [tryBorrowFuel, empty]
  intro n
  induction n with
  | zero =>
    intro m v hv _
    rw [stuck v hv, stuck v hv]
  | succ n ih =>
    intro m v hn hm
    cases m with
    | zero => rw [stuck v hm, stuck v hm]
    | succ m =>
      unfold tryBorrowFuel
      split
      · rfl
      · rename_i link pool ht
        dsimp only
        split
        · split
          · rfl
          · rename_i e w₁ hp
            have fewer : (w₁.dismiss T s link e).pool.idle.length + 1 ≤ v.pool.idle.length := by
              have dropped : (w₁.dismiss T s link e).pool.idle.length ≤ w₁.pool.idle.length :=
                length_idle_discard_le T s link
                  { w₁.raise (checkFailed s e) with pool := w₁.pool.blame e.message }
              rw [(ping_spec hp).1] at dropped
              rw [(Pool.take_spec ht).1, List.length_cons]
              exact Nat.succ_le_succ dropped
            exact ih m (w₁.dismiss T s link e) (by omega) (by omega)
        · rfl

end World

/-! ## Where the links are -/

namespace Census

variable {c : PoolConfig} {acts : List Act} {p : Pool}

theorem idle_nodup (h : Census c acts p) : p.idle.Nodup :=
  List.nodup_iff_count.mpr fun l => by
    have := h.placed l
    have := h.openings_le l
    omega

/-- **As long as links are only pinged and closed** and the same ones are lent, those that were idle
are idle or were closed. -/
theorem idle_perm {σ : Type} {w w₁ : World σ} (h : Census c w.acts w.pool)
    (h₁ : Census c w₁.acts w₁.pool) (hdid : World.Did Act.isCheck w w₁)
    (hlent : w₁.pool.lent = w.pool.lent) :
    w.pool.idle.Perm (w₁.pool.idle ++ w.closedSince w₁) := by
  refine List.perm_iff_count.mpr fun l => ?_
  have before := h.placed l
  have after := h₁.placed l
  rw [hdid.openings_eq, hdid.closings_eq, hlent] at after
  rw [List.count_append]
  omega

end Census

namespace World

variable {σ : Type} {T : Transport σ} {s : PoolSettings} {w w₁ : World σ}

/-- Whoever holds some of the links that are lent leaves the others where they are. -/
theorem upholds_lent (T : Transport σ) (s : PoolSettings) (others : List LinkId) :
    Dialogue.Upholds Delivery.holder (fun held v =>
      v.LentTo s (held ++ others) ∧ v.pool.lent = held ++ others) (answerNow T s) := by
  rintro held r v ⟨hv, heq⟩ hr
  obtain ⟨admits, after⟩ := hv.answerNow (T := T) hr
  refine ⟨admits, after, ?_⟩
  rw [answerNow_lent, heq]
  exact Request.holding_append hr _ others

/-- A check leaves every link in one place, and those that are lent as they are. -/
theorem census_evict (T : Transport σ) (hc : Census s.config w.acts w.pool) :
    Census s.config (w.happen T s .eviction).acts (w.happen T s .eviction).pool ∧
      (w.happen T s .eviction).pool.lent = w.pool.lent := by
  obtain ⟨held, hnil, after, lent⟩ := ((s.evict_settles _).holds Ledger.held_nil).run
    (upholds_lent T s w.pool.lent) (w := w) ⟨⟨hc, .refl _⟩, rfl⟩
  obtain rfl := List.perm_nil.mp hnil
  exact ⟨after.census.congr ⟨rfl, rfl, rfl, Nat.le_refl _⟩, lent⟩

/-- What a check leaves of the links of a pool. -/
structure Spares (T : Transport σ) (s : PoolSettings) (w w₁ : World σ) : Prop where
  /-- A link that was idle is idle again, once, or it failed a ping and was closed, once. -/
  idle_or_closed : ∀ l ∈ w.pool.idle,
    (w₁.pool.idle.count l = 1 ∧ l ∉ w.closedSince w₁) ∨
      (l ∈ failing (w.pingsSince w₁) ∧ (w.closedSince w₁).count l = 1 ∧ l ∉ w₁.pool.idle)
  /-- The links that were closed are those that failed a ping. -/
  closed_iff : ∀ l, l ∈ w.closedSince w₁ ↔ l ∈ failing (w.pingsSince w₁)
  /-- No link becomes idle that was not. -/
  idle_subset : w₁.pool.idle ⊆ w.pool.idle
  /-- The links that are lent are the same, and nothing was done to any link but those that were
  idle: these were pinged and closed. -/
  lent : w₁.pool.lent = w.pool.lent
  about_idle : w₁.acts = w.actsSince w₁ ++ w.acts ∧ ∀ a ∈ w.actsSince w₁,
    ∃ l ∈ w.pool.idle, (∃ answer, a = .pinged l answer) ∨ a = .closed l
  /-- The links became fewer by those that were closed. -/
  connections : w₁.pool.connections + (w.closedSince w₁).length = w.pool.connections
  /-- If none are to be kept open unasked, no more links are being opened than before. -/
  openings : s.config.minIdle = 0 → w₁.pool.openings = w.pool.openings
  /-- No search for an idle link would find another one if it went on, and there are at most two
  pings for each idle link. -/
  ends : (∀ v : World σ, ∀ fuel, v.pool.idle.length ≤ fuel →
      tryBorrowFuel T s fuel v = v.tryBorrow T s) ∧
    (w.pingsSince w₁).length ≤ 2 * w.pool.idle.length

/-- **What a background check leaves of the links of a pool**, whatever is answered to its pings and
however large its batch is. The links of every pool in use are so accounted for
(`Traffic.Balanced.run`). -/
theorem evict_spares (T : Transport σ) (s : PoolSettings) (hc : Census s.config w.acts w.pool)
    (hrun : w.pool.phase = .running) : Spares T s w (w.happen T s .eviction) := by
  obtain ⟨taken, tested, left, h⟩ := inspected_evict (s := s) T hrun
  obtain ⟨hc₁, hlent⟩ := census_evict T hc
  have hdid := did_evict T s w
  have hfloor (hmin : s.config.minIdle = 0) : s.config.floor = 0 := by
    simp [PoolConfig.floor, hmin]
  have hopenings (hmin : s.config.minIdle = 0) := openings_evict (T := T) hrun (hfloor hmin)
  revert h hc₁ hlent hdid hopenings
  generalize w.happen T s .eviction = w₁
  intro h hc₁ hlent hdid hopenings
  have hperm := hc.idle_perm hc₁ hdid hlent
  have kept := h.idle_iff hc.idle_nodup
  obtain ⟨hidle, hclosed, apart⟩ := List.nodup_append.mp (hperm.nodup_iff.mp hc.idle_nodup)
  have closed (l : LinkId) : l ∈ w.closedSince w₁ ↔ l ∈ failing (w.pingsSince w₁) := by
    constructor
    · intro hl
      by_contra hpass
      have before : l ∈ w.pool.idle := hperm.symm.subset (List.mem_append_right _ hl)
      exact apart l ((kept l).mpr ⟨before, hpass⟩) l hl rfl
    · intro hfail
      have before : l ∈ w.pool.idle := h.links_sent (Check.failing_subset _ hfail)
      refine (List.mem_append.mp (hperm.subset before)).resolve_left fun hl => ?_
      exact ((kept l).mp hl).2 hfail
  refine ⟨fun l hl => ?_, closed, fun l hl => ((kept l).mp hl).1, hlent, ⟨hdid.acts_eq.1, ?_⟩, ?_,
    hopenings, fun _ _ => tryBorrowFuel_eq T s, h.length_sent_le⟩
  · by_cases hfail : l ∈ failing (w.pingsSince w₁)
    · exact .inr ⟨hfail, List.count_eq_one_of_mem hclosed ((closed l).mpr hfail),
        fun hi => ((kept l).mp hi).2 hfail⟩
    · exact .inl ⟨List.count_eq_one_of_mem hidle ((kept l).mpr ⟨hl, hfail⟩),
        fun hcl => hfail ((closed l).mp hcl)⟩
  · intro a ha
    have kind := hdid.acts_eq.2 a ha
    cases a with
    | pinged l answer =>
      have sent : (⟨l, answer⟩ : Check) ∈ w.pingsSince w₁ := by
        rw [hdid.pingsSince_eq, List.mem_reverse]
        exact List.mem_filterMap.mpr ⟨_, ha, rfl⟩
      exact ⟨l, h.links_sent (List.mem_map_of_mem sent), .inl ⟨answer, rfl⟩⟩
    | closed l =>
      have gone : l ∈ w.closedSince w₁ := List.mem_filterMap.mpr ⟨_, ha, rfl⟩
      exact ⟨l, hperm.symm.subset (List.mem_append_right _ gone), .inr rfl⟩
    | _ => exact absurd kind Bool.false_ne_true
  · have := hperm.length_eq
    rw [List.length_append] at this
    unfold Pool.connections
    rw [hlent]
    omega

/-- A pool that keeps no links open unasked and checks two at a time. -/
def twoAtATime : PoolSettings :=
  { endpoint := { host := "localhost" }, config := { minIdle := 0, evictionBatchSize := 2 } }

/-- Two links are borrowed and left idle, and one of them breaks. -/
def breaking : List (Traffic.Event ScriptedStore) :=
  [.startup, .advance 0 false, .advance 0 false, .advance 0 false, .advance 0 false,
    .acquire, .advance 0 false, .advance 0 true, .opening 0, .advance 0 true, .advance 0 false,
    .acquire, .advance 0 false, .advance 0 true, .opening 0, .advance 0 true, .advance 0 false,
    .lapse 0, .advance 0 false, .advance 0 false, .lapse 1, .advance 0 false, .advance 0 false,
    .store { broken := [1] }]

/-- A pool with two idle links of which one is broken. -/
def halfBroken : World ScriptedStore :=
  (Traffic.run ScriptedStore.transport twoAtATime ⟨{ remote := {} }, [], []⟩ breaking).world

theorem evict_spares_of_halfBroken :
    let w₁ := halfBroken.happen ScriptedStore.transport twoAtATime .eviction
    Census twoAtATime.config halfBroken.acts halfBroken.pool ∧
      halfBroken.pool.phase = .running ∧ halfBroken.pool.idle = [1, 0] ∧
      w₁.pool.idle = [0] ∧ halfBroken.closedSince w₁ = [1] ∧
      Spares ScriptedStore.transport twoAtATime halfBroken w₁ := by
  have start : Traffic.Balanced twoAtATime (⟨{ remote := {} }, [], []⟩ : Traffic ScriptedStore) :=
    Traffic.balanced_start _
  have census : Census twoAtATime.config halfBroken.acts halfBroken.pool :=
    (start.run (T := ScriptedStore.transport) breaking).census
  have running : halfBroken.pool.phase = .running := by decide +kernel
  exact ⟨census, running, by decide +kernel, by decide +kernel, by decide +kernel,
    evict_spares ScriptedStore.transport twoAtATime census running⟩

end World

end LogShipper
