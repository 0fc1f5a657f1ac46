import LogShipper.World.Time

/-!
# What dealing with links leaves alone

Borrowing links, using them and giving them back changes the pool, the store, the record and the
log. The rest stays as it is (`World.rest`): the clock, the errands, the tokens, the phase of the
engine. Which links are lent changes as the requests and their answers say (`Request.holding`).

Results:
* `borrowed_tryBorrow`: borrowing takes idle links until one of them is in order.
* `rest_answerNow`: requests about links leave the rest alone.
* `answerNow_lent`: what a request does to the links that are lent.
-/

namespace LogShipper

/-! ## Pools -/

namespace Pool

variable (c : PoolConfig) (now : Nat)

theorem openOne_eq (p : Pool) : ∃ os, p.openOne c now = { p with openings := os } := by
  unfold openOne
  split
  · exact ⟨_, rfl⟩
  · exact ⟨p.openings, rfl⟩

theorem openMany_eq (n : Nat) (p : Pool) :
    ∃ os, openMany c now n p = { p with openings := os } := by
  induction n generalizing p with
  | zero => exact ⟨p.openings, rfl⟩
  | succ n ih =>
    obtain ⟨os, hos⟩ := openOne_eq c now p
    obtain ⟨os', hos'⟩ := ih (p.openOne c now)
    rw [hos] at hos'
    refine ⟨os', ?_⟩
    show openMany c now n (p.openOne c now) = _
    rw [hos, hos']

/-- Refilling a pool changes nothing but the links being opened. -/
theorem refill_eq (p : Pool) : ∃ os, p.refill c now = { p with openings := os } :=
  openMany_eq c now _ p

@[simp] theorem openOne_lent (p : Pool) : (p.openOne c now).lent = p.lent := by
  obtain ⟨os, hos⟩ := openOne_eq c now p
  rw [hos]

@[simp] theorem refill_lent (p : Pool) : (p.refill c now).lent = p.lent := by
  obtain ⟨os, hos⟩ := refill_eq c now p
  rw [hos]

variable {c now}

/-- Taking a link moves it from the idle ones to the lent ones. -/
theorem take_spec {p q : Pool} {link : LinkId} (h : p.take c now = some (link, q)) :
    p.idle = link :: q.idle ∧ q.lent = link :: p.lent ∧ q.opened = p.opened := by
  obtain ⟨idle, hi, rfl⟩ := take_eq h
  obtain ⟨os, hos⟩ := refill_eq c now { p with idle, lent := link :: p.lent }
  rw [hos]
  exact ⟨hi, rfl, rfl⟩

theorem take_lent {p q : Pool} {link : LinkId} (h : p.take c now = some (link, q)) :
    q.lent = link :: p.lent := (take_spec h).2.1

end Pool

namespace World

variable {σ : Type} {T : Transport σ} {s : Delivery.PoolSettings} {w w₁ w₂ : World σ}

/-! ## The rest of a world -/

/-- All of a world but the store, the pool, the record and the log. -/
structure Rest where
  clock : Nat
  errands : List Errand
  handles : Cancel.Handles
  phase : Phase
  batchName : String

/-- The rest of a world. -/
def rest (w : World σ) : Rest := ⟨w.clock, w.errands, w.handles, w.phase, w.batchName⟩

variable (T s)

variable {T} in
/-- A ping is recorded, and changes the store besides. -/
theorem ping_spec {link : LinkId} {x : Except LinkError Unit} (h : w.ping T link = (x, w₁)) :
    w₁.pool = w.pool ∧ w₁.acts = .pinged link x :: w.acts ∧ w₁.rest = w.rest := by
  obtain ⟨rfl, rfl⟩ := Prod.mk.inj h
  exact ⟨rfl, rfl, rfl⟩

@[simp] theorem rest_closeAll (links : List LinkId) (w : World σ) :
    (closeAll T links w).rest = w.rest := by
  induction links generalizing w with
  | nil => rfl
  | cons link links ih => exact ih (w.close T link)

@[simp] theorem rest_settleForsaken (w : World σ) : (w.settleForsaken T).rest = w.rest := by
  unfold settleForsaken
  split
  · rw [rest_closeAll]
    rfl
  · rfl

@[simp] theorem rest_giveBack (link : LinkId) (w : World σ) :
    (w.giveBack T link).rest = w.rest := by
  unfold giveBack
  rw [rest_settleForsaken]
  rfl

@[simp] theorem rest_discard (link : LinkId) (w : World σ) :
    (w.discard T s link).rest = w.rest := by
  unfold discard
  rw [rest_settleForsaken]
  rfl

/-! ## Borrowing an idle link -/

/-- A link that has not passed its check is dropped. -/
def dismiss (link : LinkId) (e : LinkError) (w : World σ) : World σ :=
  { w.raise (checkFailed s e) with pool := w.pool.blame e.message }.discard T s link

/-- How an idle link is borrowed: none is idle, or the first one is lent unchecked, or it passes
its check, or it does not and is dropped for the next one. -/
inductive Borrowed : World σ → Option LinkId → World σ → Prop where
  | none (w : World σ) : Borrowed w none w
  | unchecked {w : World σ} {link : LinkId} {pool : Pool}
      (ht : w.pool.take s.config w.clock = some (link, pool)) :
      Borrowed w (some link) { w with pool }
  | passed {w w₁ : World σ} {link : LinkId} {pool : Pool}
      (ht : w.pool.take s.config w.clock = some (link, pool))
      (hp : ({ w with pool } : World σ).ping T link = (.ok (), w₁)) :
      Borrowed w (some link) w₁
  | failed {w w₁ w₂ : World σ} {link : LinkId} {pool : Pool} {e : LinkError} {x : Option LinkId}
      (ht : w.pool.take s.config w.clock = some (link, pool))
      (hp : ({ w with pool } : World σ).ping T link = (.error e, w₁))
      (h : Borrowed (w₁.dismiss T s link e) x w₂) : Borrowed w x w₂

theorem borrowed_tryBorrowFuel (fuel : Nat) (w : World σ) :
    Borrowed T s w (tryBorrowFuel T s fuel w).1 (tryBorrowFuel T s fuel w).2 := by
  induction fuel generalizing w with
  | zero => exact .none w
  | succ fuel ih =>
    unfold tryBorrowFuel
    split
    · exact .none w
    · rename_i link pool ht
      dsimp only
      split
      · split
        · rename_i w₁ hp
          exact .passed ht hp
        · rename_i e w₁ hp
          exact .failed ht hp (ih _)
      · exact .unchecked ht

theorem borrowed_tryBorrow (w : World σ) :
    Borrowed T s w (w.tryBorrow T s).1 (w.tryBorrow T s).2 :=
  borrowed_tryBorrowFuel T s _ w

/-- How a borrower comes back at once: with an idle link, or giving up. -/
theorem answerNow_borrow {P : Except String LinkId × World σ → Prop} (w : World σ)
    (hsome : ∀ link w₁, Borrowed T s w (some link) w₁ → P (.ok link, w₁))
    (hnone : ∀ w₁, Borrowed T s w none w₁ → P w₁.giveUp) : P (w.answerNow T s .borrow) := by
  have hb := borrowed_tryBorrow T s w
  unfold answerNow
  dsimp only
  split
  · rename_i link w₁ heq
    rw [heq] at hb
    exact hsome link w₁ hb
  · rename_i w₁ heq
    rw [heq] at hb
    exact hnone w₁ hb

@[simp] theorem rest_dismiss (link : LinkId) (e : LinkError) (w : World σ) :
    (w.dismiss T s link e).rest = w.rest := by
  unfold dismiss
  rw [rest_discard]
  rfl

variable {T s}

theorem Borrowed.rest {x : Option LinkId} (h : Borrowed T s w x w₁) : w₁.rest = w.rest := by
  induction h with
  | none w => rfl
  | unchecked ht => rfl
  | passed ht hp =>
    rw [(ping_spec hp).2.2]
    rfl
  | failed ht hp _ ih =>
    rw [ih, rest_dismiss, (ping_spec hp).2.2]
    rfl

/-! ## Which links are lent -/

variable (T s)

@[simp] theorem closeAll_pool (links : List LinkId) (w : World σ) :
    (closeAll T links w).pool = w.pool := by
  induction links generalizing w with
  | nil => rfl
  | cons link links ih => exact ih (w.close T link)

@[simp] theorem settleForsaken_lent (w : World σ) :
    (w.settleForsaken T).pool.lent = w.pool.lent := by
  unfold settleForsaken
  split
  · rw [closeAll_pool]
    rfl
  · rfl

@[simp] theorem giveBack_lent (link : LinkId) (w : World σ) :
    (w.giveBack T link).pool.lent = w.pool.lent.erase link := by
  unfold giveBack
  rw [settleForsaken_lent]
  rfl

@[simp] theorem discard_lent (link : LinkId) (w : World σ) :
    (w.discard T s link).pool.lent = w.pool.lent.erase link := by
  unfold discard
  rw [settleForsaken_lent]
  exact Pool.refill_lent s.config w.clock _

@[simp] theorem dismiss_lent (link : LinkId) (e : LinkError) (w : World σ) :
    (w.dismiss T s link e).pool.lent = w.pool.lent.erase link := by
  unfold dismiss
  rw [discard_lent]
  rfl

variable {T s}

theorem Borrowed.lent {x : Option LinkId} (h : Borrowed T s w x w₁) :
    w₁.pool.lent = x.toList ++ w.pool.lent := by
  induction h with
  | none w => rfl
  | unchecked ht => exact Pool.take_lent ht
  | passed ht hp =>
    rw [(ping_spec hp).1]
    exact Pool.take_lent ht
  | failed ht hp _ ih =>
    rw [ih, dismiss_lent, (ping_spec hp).1, Pool.take_lent ht, List.erase_cons_head]

end World

namespace Delivery.Request

/-- Whether a request leaves the rest of a world alone. -/
def isAside : Request → Bool
  | .markStarted => false
  | .markStopped => false
  | .cancel _ => false
  | .newToken _ _ => false
  | _ => true

/-- The links that someone holds after a request, if they held these before. -/
def holding (held : List LinkId) : (r : Request) → r.Answer → List LinkId
  | .borrow, .ok link => link :: held
  | .tryBorrow, some link => link :: held
  | .giveBack link, _ => held.erase link
  | .discard link, _ => held.erase link
  | _, _ => held

end Delivery.Request

namespace World

open Delivery (Request)

variable {σ : Type} (T : Transport σ) (s : Delivery.PoolSettings)

/-- Requests that are about links leave the rest of a world alone. -/
theorem rest_answerNow {r : Request} (hr : r.isAside = true) (w : World σ) :
    (w.answerNow T s r).2.rest = w.rest := by
  cases r with
  | markStarted => exact absurd hr Bool.false_ne_true
  | markStopped => exact absurd hr Bool.false_ne_true
  | cancel _ => exact absurd hr Bool.false_ne_true
  | newToken _ _ => exact absurd hr Bool.false_ne_true
  | borrow =>
    exact answerNow_borrow T s (P := fun got => got.2.rest = w.rest) w
      (fun _ _ hb => hb.rest) fun _ hb => hb.rest
  | tryBorrow => exact (borrowed_tryBorrow T s w).rest
  | forsakePool => exact rest_settleForsaken T w
  | giveBack link => exact rest_giveBack T link w
  | discard link => exact rest_discard T s link w
  | _ => rfl

theorem settleOpening_lent (index : Nat) (w : World σ) :
    (w.settleOpening T s index).pool.lent = w.pool.lent := by
  unfold settleOpening
  dsimp only
  split <;> rfl

/-- No request changes what others are to give back. -/
theorem errands_answerNow (r : Request) (w : World σ) :
    (w.answerNow T s r).2.errands = w.errands := by
  cases hr : r.isAside with
  | true => exact congrArg Rest.errands (rest_answerNow T s hr w)
  | false =>
    cases r with
    | newToken name parent => cases parent <;> rfl
    | markStarted => rfl
    | markStopped => rfl
    | cancel _ => rfl
    | _ => exact absurd hr.symm Bool.false_ne_true

/-- **What a request does to the links that are lent.** -/
theorem answerNow_lent (r : Request) (w : World σ) :
    (w.answerNow T s r).2.pool.lent = r.holding w.pool.lent (w.answerNow T s r).1 := by
  cases r with
  | borrow =>
    exact answerNow_borrow T s
      (P := fun got => got.2.pool.lent = Request.holding w.pool.lent .borrow got.1) w
      (fun _ _ hb => hb.lent) fun _ hb => hb.lent
  | tryBorrow =>
    have hb := (borrowed_tryBorrow T s w).lent
    show (w.tryBorrow T s).2.pool.lent = Request.holding _ .tryBorrow (w.tryBorrow T s).1
    cases hx : (w.tryBorrow T s).1 with
    | none =>
      rw [hx] at hb
      exact hb
    | some link =>
      rw [hx] at hb
      exact hb
  | forsakePool => exact settleForsaken_lent T w
  | giveBack link => exact giveBack_lent T link w
  | discard link => exact discard_lent T s link w
  | openPool => exact Pool.refill_lent s.config w.clock _
  | newToken name parent => cases parent <;> rfl
  | _ => rfl

end World

end LogShipper
