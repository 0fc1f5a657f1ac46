import LogShipper.Proofs.World.Frame

/-!
# Every link has one place

The record of acts tells which links were opened and which were closed. A `Census` says what the
pool makes of it: every link that was opened is closed, or idle, or lent, once and in one place
only; links are opened one after the other; and with the links being opened there are never more
than the pool has room for.

Every step of a pool keeps the census, as long as only lent links are given back or dropped.

Results:
* `Census.take`, `Census.putBack`, `Census.drop`, `Census.arrive`, `Census.forsake`: one lemma per
  step of a pool.
* `Census.answerNow`: any request.
-/

namespace LogShipper

/-! ## What acts do to a link -/

namespace Act

/-- The act opens a link. -/
def opens (l : LinkId) : Act → Bool
  | .opened k => k == l
  | _ => false

/-- The act closes a link. -/
def closes (l : LinkId) : Act → Bool
  | .closed k => k == l
  | _ => false

/-- Whether the act neither opens nor closes a link. -/
def isPassing : Act → Bool
  | .opened _ => false
  | .closed _ => false
  | _ => true

theorem opens_of_isPassing {a : Act} (h : a.isPassing = true) (l : LinkId) :
    a.opens l = false := by
  cases a <;> first | rfl | exact absurd h Bool.false_ne_true

theorem closes_of_isPassing {a : Act} (h : a.isPassing = true) (l : LinkId) :
    a.closes l = false := by
  cases a <;> first | rfl | exact absurd h Bool.false_ne_true

end Act

/-- How often a link was opened. -/
def openings (acts : List Act) (l : LinkId) : Nat := acts.countP (·.opens l)

/-- How often a link was closed. -/
def closings (acts : List Act) (l : LinkId) : Nat := acts.countP (·.closes l)

theorem openings_opened (k : LinkId) (acts : List Act) (l : LinkId) :
    openings (.opened k :: acts) l = openings acts l + if k = l then 1 else 0 := by
  simp [openings, Act.opens, List.countP_cons]

theorem closings_closed (k : LinkId) (acts : List Act) (l : LinkId) :
    closings (.closed k :: acts) l = closings acts l + if k = l then 1 else 0 := by
  simp [closings, Act.closes, List.countP_cons]

theorem openings_closed (k : LinkId) (acts : List Act) (l : LinkId) :
    openings (.closed k :: acts) l = openings acts l :=
  List.countP_cons_of_neg Bool.false_ne_true

theorem closings_opened (k : LinkId) (acts : List Act) (l : LinkId) :
    closings (.opened k :: acts) l = closings acts l :=
  List.countP_cons_of_neg Bool.false_ne_true

/-! ## The census -/

/-- Two pools do not differ in their links, and no more are being opened in the second one. -/
structure Pool.Alike (p q : Pool) : Prop where
  idle : q.idle = p.idle
  lent : q.lent = p.lent
  opened : q.opened = p.opened
  openings : q.openings.length ≤ p.openings.length

namespace Pool

theorem alike_close (p : Pool) : p.Alike p.close := ⟨rfl, rfl, rfl, Nat.le_refl _⟩

theorem alike_blame (p : Pool) (reason : String) : p.Alike (p.blame reason) :=
  ⟨rfl, rfl, rfl, Nat.le_refl _⟩

theorem alike_postpone (c : PoolConfig) (p : Pool) (now index : Nat) (reason : String) :
    p.Alike (p.postpone c now index reason) :=
  ⟨rfl, rfl, rfl, Nat.le_of_eq (List.length_modify _ _ _)⟩

end Pool

theorem World.alike_giveUp {σ : Type} (w : World σ) : w.pool.Alike w.giveUp.2.pool :=
  ⟨rfl, rfl, rfl, Nat.le_refl _⟩

/-- Every link that was opened has one place. -/
structure Census (c : PoolConfig) (acts : List Act) (p : Pool) : Prop where
  fits : p.connections + p.openings.length ≤ c.capacity
  opened : ∀ l : Nat, openings acts l = if l < p.opened then 1 else 0
  placed : ∀ l : Nat, openings acts l = closings acts l + p.idle.count l + p.lent.count l

namespace Census

variable {c : PoolConfig} {acts : List Act} {p : Pool} {l : LinkId}

theorem empty (c : PoolConfig) : Census c [] {} where
  fits := Nat.zero_le _
  opened _ := rfl
  placed _ := rfl

theorem openings_le (h : Census c acts p) (l : Nat) : openings acts l ≤ 1 := by
  rw [h.opened]
  split <;> omega

theorem count_lent_le (h : Census c acts p) (l : LinkId) : p.lent.count l ≤ 1 := by
  have := h.openings_le l
  have := h.placed l
  omega

/-- A link that is lent was opened, and is neither closed nor idle. -/
theorem of_lent (h : Census c acts p) (hl : l ∈ p.lent) :
    l < p.opened ∧ closings acts l = 0 ∧ l ∉ p.idle := by
  have hpos := List.count_pos_iff.mpr hl
  have hle := h.openings_le l
  have hplaced := h.placed l
  have hopened := h.opened l
  refine ⟨?_, by omega, fun hi => ?_⟩
  · split at hopened
    · assumption
    · omega
  · have := List.count_pos_iff.mpr hi
    omega

/-- A link that is idle was opened, and is neither closed nor lent. -/
theorem of_idle (h : Census c acts p) (hl : l ∈ p.idle) :
    l < p.opened ∧ closings acts l = 0 ∧ l ∉ p.lent := by
  have hpos := List.count_pos_iff.mpr hl
  have hle := h.openings_le l
  have hplaced := h.placed l
  have hopened := h.opened l
  refine ⟨?_, by omega, fun hlent => ?_⟩
  · split at hopened
    · assumption
    · omega
  · have := List.count_pos_iff.mpr hlent
    omega

/-- A link that was opened and is not lent is either closed or idle. -/
theorem closed_iff (h : Census c acts p) (hl : l < p.opened) (hlent : l ∉ p.lent) :
    closings acts l = 1 ↔ l ∉ p.idle := by
  have hplaced := h.placed l
  have hopened := h.opened l
  rw [if_pos hl] at hopened
  rw [List.count_eq_zero.mpr hlent] at hplaced
  rw [← List.count_eq_zero]
  omega

/-- An act that neither opens nor closes a link. -/
theorem record (h : Census c acts p) {a : Act} (ha : a.isPassing = true) :
    Census c (a :: acts) p := by
  have hopen (l : LinkId) : openings (a :: acts) l = openings acts l := by
    simp [openings, Act.opens_of_isPassing ha]
  have hclose (l : LinkId) : closings (a :: acts) l = closings acts l := by
    simp [closings, Act.closes_of_isPassing ha]
  refine ⟨h.fits, fun l => ?_, fun l => ?_⟩
  · rw [hopen, h.opened]
  · rw [hopen, hclose, h.placed]

theorem congr (h : Census c acts p) {q : Pool} (hq : p.Alike q) : Census c acts q where
  fits := by
    have hfits := h.fits
    have hle := hq.openings
    unfold Pool.connections at *
    rw [hq.idle, hq.lent]
    omega
  opened l := by rw [hq.opened, h.opened]
  placed l := by rw [hq.idle, hq.lent, h.placed]

/-! ## Steps of a pool -/

theorem openOne (h : Census c acts p) (now : Nat) : Census c acts (p.openOne c now) := by
  have hfits : (p.openOne c now).connections + (p.openOne c now).openings.length ≤ c.capacity :=
    Pool.openOne_le h.fits
  obtain ⟨os, hos⟩ := Pool.openOne_eq c now p
  rw [hos] at hfits ⊢
  exact ⟨hfits, h.opened, h.placed⟩

theorem openMany (h : Census c acts p) (now n : Nat) : Census c acts (Pool.openMany c now n p) := by
  induction n generalizing p with
  | zero => exact h
  | succ n ih => exact ih (h.openOne now)

theorem refill (h : Census c acts p) (now : Nat) : Census c acts (p.refill c now) :=
  h.openMany now _

theorem start (h : Census c acts p) (now : Nat) : Census c acts (p.start c now) := by
  refine refill (p := { p with phase := .running, nextEviction := _ }) ?_ now
  exact h.congr ⟨rfl, rfl, rfl, Nat.le_refl _⟩

/-- An idle link is lent. -/
theorem take (h : Census c acts p) {now : Nat} {q : Pool} (ht : p.take c now = some (l, q)) :
    Census c acts q := by
  obtain ⟨idle, hi, rfl⟩ := Pool.take_eq ht
  have moved : Census c acts { p with idle, lent := l :: p.lent } := by
    refine ⟨?_, h.opened, fun m => ?_⟩
    · have := h.fits
      simp only [Pool.connections, hi, List.length_cons] at this ⊢
      omega
    · have := h.placed m
      rw [hi] at this
      simp only [List.count_cons] at this ⊢
      omega
  exact moved.refill now

/-- A lent link is idle again. -/
theorem putBack (h : Census c acts p) (hl : l ∈ p.lent) : Census c acts (p.putBack l) where
  fits := by
    rw [Pool.putBack_connections hl]
    exact h.fits
  opened := h.opened
  placed m := by
    have := h.placed m
    have hpos := List.count_pos_iff.mpr hl
    unfold Pool.putBack
    rw [List.count_cons, List.count_erase]
    simp only [beq_iff_eq] at *
    by_cases hm : l = m
    · subst hm
      simp only [if_true]
      omega
    · simp only [if_neg hm]
      omega

/-- A lent link is dropped and closed. -/
theorem drop (h : Census c acts p) (hl : l ∈ p.lent) (now : Nat) :
    Census c (.closed l :: acts) (p.drop c now l) := by
  have dropped : Census c (.closed l :: acts) { p with lent := p.lent.erase l } := by
    refine ⟨?_, fun m => ?_, fun m => ?_⟩
    · have := h.fits
      have := List.length_erase_of_mem hl
      simp only [Pool.connections] at *
      omega
    · rw [openings_closed, h.opened]
    · have := h.placed m
      have hpos := List.count_pos_iff.mpr hl
      rw [openings_closed, closings_closed, List.count_erase, this]
      simp only [beq_iff_eq]
      by_cases hm : l = m
      · subst hm
        simp only [if_true]
        omega
      · simp only [if_neg hm]
        omega
  exact dropped.refill now

/-- A link is opened and idle. -/
theorem arrive (h : Census c acts p) {index : Nat} (hi : index < p.openings.length) :
    Census c (.opened p.opened :: acts) (p.arrive index) := by
  refine ⟨?_, fun m => ?_, fun m => ?_⟩
  · have := h.fits
    have := List.length_eraseIdx_of_lt hi
    simp only [Pool.arrive, Pool.connections, List.length_cons] at *
    omega
  · have := h.opened m
    show LogShipper.openings _ m = if m < p.opened + 1 then 1 else 0
    rw [openings_opened, this]
    by_cases hm : p.opened = m
    · subst hm
      simp
    · rw [if_neg hm, Nat.add_zero]
      simp only [show m < p.opened + 1 ↔ m < p.opened by omega]
  · have := h.placed m
    show _ = _ + (p.opened :: p.idle).count m + p.lent.count m
    rw [openings_opened, closings_opened, List.count_cons, this]
    simp only [beq_iff_eq]
    omega

/-- All idle links are closed. -/
theorem forsake (h : Census c acts p) {acts' : List Act}
    (hopen : ∀ m, LogShipper.openings acts' m = LogShipper.openings acts m)
    (hclose : ∀ m, closings acts' m = closings acts m + p.idle.count m) :
    Census c acts' p.forsake where
  fits := by
    have := h.fits
    simp only [Pool.forsake, Pool.connections, List.length_nil] at *
    omega
  opened m := by
    rw [hopen]
    exact h.opened m
  placed m := by
    have := h.placed m
    rw [hopen, hclose]
    simp only [Pool.forsake, List.count_nil]
    omega

end Census

/-! ## Steps of a world -/

open Delivery (Request PoolSettings)

variable {σ : Type} {T : Transport σ} {s : PoolSettings} {w w₁ : World σ}

theorem openings_closeAll (links : List LinkId) (w : World σ) (m : LinkId) :
    openings (World.closeAll T links w).acts m = openings w.acts m := by
  induction links generalizing w with
  | nil => rfl
  | cons link links ih =>
    rw [World.closeAll, ih]
    exact openings_closed link w.acts m

theorem closings_closeAll (links : List LinkId) (w : World σ) (m : LinkId) :
    closings (World.closeAll T links w).acts m = closings w.acts m + links.count m := by
  induction links generalizing w with
  | nil => rfl
  | cons link links ih =>
    have hclose : closings (w.close T link).acts m =
        closings w.acts m + if link = m then 1 else 0 :=
      closings_closed link w.acts m
    rw [World.closeAll, ih, hclose, List.count_cons]
    simp only [beq_iff_eq]
    omega

namespace Census

variable {l : LinkId}

theorem settleForsaken (h : Census s.config w.acts w.pool) :
    Census s.config (w.settleForsaken T).acts (w.settleForsaken T).pool := by
  unfold World.settleForsaken
  split
  · rw [World.closeAll_pool]
    exact h.forsake (openings_closeAll _ _) (closings_closeAll _ _)
  · exact h

theorem giveBack (h : Census s.config w.acts w.pool) (hl : l ∈ w.pool.lent) :
    Census s.config (w.giveBack T l).acts (w.giveBack T l).pool :=
  settleForsaken (w := { w with pool := w.pool.putBack l }) (h.putBack hl)

theorem discard (h : Census s.config w.acts w.pool) (hl : l ∈ w.pool.lent) :
    Census s.config (w.discard T s l).acts (w.discard T s l).pool :=
  settleForsaken (w := ({ w with pool := w.pool.drop s.config w.clock l } : World σ).close T l)
    (h.drop hl w.clock)

theorem dismiss (h : Census s.config w.acts w.pool) (hl : l ∈ w.pool.lent) (e : LinkError) :
    Census s.config (w.dismiss T s l e).acts (w.dismiss T s l e).pool :=
  discard (w := { w.raise (World.checkFailed s e) with pool := w.pool.blame e.message })
    (h.congr (w.pool.alike_blame e.message)) hl

/-- Borrowing an idle link. -/
theorem borrowed {x : Option LinkId} (hb : World.Borrowed T s w x w₁)
    (h : Census s.config w.acts w.pool) : Census s.config w₁.acts w₁.pool := by
  induction hb with
  | none w => exact h
  | unchecked ht => exact h.take ht
  | passed ht hp =>
    obtain ⟨hpool, hacts, -⟩ := World.ping_spec hp
    rw [hpool, hacts]
    exact (h.take ht).record rfl
  | failed ht hp _ ih =>
    obtain ⟨hpool, hacts, -⟩ := World.ping_spec hp
    refine ih (dismiss ?_ ?_ _)
    · rw [hpool, hacts]
      exact (h.take ht).record rfl
    · rw [hpool]
      show _ ∈ Pool.lent _
      rw [Pool.take_lent ht]
      exact List.mem_cons_self

/-- **Any request**, as long as only lent links are given back or dropped. -/
theorem answerNow (h : Census s.config w.acts w.pool) (r : Request)
    (hr : ∀ l, r = .giveBack l ∨ r = .discard l → l ∈ w.pool.lent) :
    Census s.config (w.answerNow T s r).2.acts (w.answerNow T s r).2.pool := by
  cases r with
  | borrow =>
    exact World.answerNow_borrow T s
      (P := fun got => Census s.config got.2.acts got.2.pool) w
      (fun _ _ hb => h.borrowed hb) fun w₁ hb => (h.borrowed hb).congr w₁.alike_giveUp
  | tryBorrow => exact h.borrowed (World.borrowed_tryBorrow T s w)
  | openPool => exact h.start w.clock
  | closePool => exact h.congr w.pool.alike_close
  | forsakePool => exact h.settleForsaken
  | giveBack l => exact h.giveBack (hr l (.inl rfl))
  | discard l => exact h.discard (hr l (.inr rfl))
  | push l key payload => exact (h.record rfl).record rfl
  | ping l => exact h.record rfl
  | reset l => exact h.record rfl
  | newToken name parent => cases parent <;> exact h
  | _ => exact h

/-- **An opening succeeds or fails.** -/
theorem settleOpening (h : Census s.config w.acts w.pool) {index : Nat}
    (hi : index < w.pool.openings.length) :
    Census s.config (w.settleOpening T s index).acts (w.settleOpening T s index).pool := by
  unfold World.settleOpening
  dsimp only
  split
  · exact h.arrive hi
  · exact (h.congr (w.pool.alike_postpone s.config _ _ _)).record rfl

end Census

end LogShipper
