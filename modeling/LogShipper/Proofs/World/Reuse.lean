import LogShipper.Proofs.Config.Layers
import LogShipper.Proofs.Config.Rules
import LogShipper.Proofs.Pool.Reuse
import LogShipper.Proofs.World.Borrowing
import LogShipper.Proofs.World.Senders

/-!
# How many links one sender opens

A sender that makes its calls one after the other holds one link at a time, and if no link fails, the
links it has given back are there for its next calls. Whether it gets by with as many links as the
pool has room for depends on how many the pool opens unasked: if it opens fewer than it keeps, or
keeps all it has room for, the sender does, and otherwise every call can open one link and close
one.

Covers `send`, `send_with_cancel` and `send_bulk`, one after the other.

Out of scope: links that expire by age (`World/Time.lean`).

Results:
* `World.serves_answerNow`: all that an answer can do to a pool, if no link fails.
* `Senders.GetsBy.step`: what one event keeps at a pool with links enough.
* `Senders.Squanders.send`: a send that opens a link and closes one.
* `Senders.opened_le_iff`: when a sender gets by with the links that a pool has room for.
-/

namespace LogShipper

open Cancel (TokenId)
open Delivery (Request Dialogue Engine Reply Duty PoolSettings Tenure thrift admits_push)

/-! ## Answers of a world -/

namespace World

variable {σ V : Type} {T : Transport σ} {tame : σ → Prop} {memory : σ → V}
  {reply : V → String → Bytes → Except String Unit × V} {s : PoolSettings} {w w₁ : World σ}

/-- What shows of a tame world. -/
theorem shows_self (hw : tame w.remote) :
    Shows tame memory ⟨memory w.remote, attempts w.acts, w.handles⟩ w :=
  ⟨hw, rfl, rfl, rfl⟩

section Obliging

variable (hT : T.Obliging tame memory reply)
include hT

/-- If every link passes its check, the first idle link is borrowed, or there is none. -/
theorem Borrowed.first {x : Option LinkId} (hb : Borrowed T s w x w₁) (hw : tame w.remote) :
    x.elim (w₁ = w) fun link => w.pool.take s.config w.clock = some (link, w₁.pool) := by
  cases hb with
  | none => exact rfl
  | unchecked ht => exact ht
  | passed ht hp =>
    rw [(ping_spec hp).1]
    exact ht
  | @failed w w₁ w₂ link pool e x ht hp hb =>
    have answered : (T.ping link w.remote).1 = .ok () := (hT.ping link w.remote hw).1
    have failed : (T.ping link w.remote).1 = .error e := congrArg Prod.fst hp
    rw [answered] at failed
    cases failed

/-- A push that has begun is answered. -/
theorem serves_push {most : Nat} (t : Tenure) (link : LinkId) (key : String) (payload : Bytes)
    (hw : tame w.remote) :
    let got := w.answerBegun T s (.push link key payload)
    (thrift most).admits t (.push link key payload) got.1 ∧ tame got.2.remote ∧
      w.pool.Serves s.config w.clock (.push link key payload) got.1 got.2.pool := by
  obtain ⟨answered, ended, -⟩ := hT.endPush link key payload _ hw
  have pushed : (w.answerBegun T s (.push link key payload)).1 = Except.mapError .command _ :=
    answered
  dsimp only
  rw [pushed]
  exact ⟨admits_push _, ended, .atRest rfl _⟩

/-- **All that an answer can do to a pool** that runs, if no link fails. -/
theorem serves_answerNow {most : Nat} {t : Tenure} {r : Request} (hw : tame w.remote)
    (hrun : w.pool.phase = .running) (hr : (thrift most).allows t r) :
    (thrift most).admits t r (w.answerNow T s r).1 ∧ tame (w.answerNow T s r).2.remote ∧
      w.pool.Serves s.config w.clock r (w.answerNow T s r).1 (w.answerNow T s r).2.pool := by
  have shown : Shows tame memory ⟨memory w.remote, attempts w.acts, w.handles⟩ w := shows_self hw
  have care (hcare : r.isCare = true) : tame (w.answerNow T s r).2.remote :=
    (shows_care hT hcare shown).tame
  cases r with
  | borrow =>
    refine ⟨trivial, ?_⟩
    by_cases hidle : w.pool.idle = []
    · have refused : w.answerNow T s .borrow = w.giveUp := by
        unfold answerNow
        rw [tryBorrow_of_idle_nil hidle]
      rw [refused]
      exact ⟨hw, .refused _ hidle⟩
    · obtain ⟨link, w₁, hgot⟩ := tryBorrow_of_idle (s := s) hT hw hidle
      have borrowed := borrowed_tryBorrow T s w
      rw [hgot] at borrowed
      have lent : w.answerNow T s .borrow = (.ok link, w₁) := by
        unfold answerNow
        rw [hgot]
      rw [lent]
      exact ⟨(borrowed.shows hT shown).tame, .lent (borrowed.first hT hw)⟩
  | push link key payload =>
    obtain ⟨-, begun, -⟩ := hT.beginPush link key payload w.remote hw
    rw [← answerBegun_beginning]
    exact serves_push (w := w.beginning T (.push link key payload)) hT t link key payload begun
  | ping link =>
    have pinged : (w.answerNow T s (.ping link)).1 = .ok () := (hT.ping link w.remote hw).1
    rw [pinged]
    exact ⟨trivial, care rfl, .atRest rfl _⟩
  | reset link =>
    have cleared : (w.answerNow T s (.reset link)).1 = .ok () := (hT.reset link w.remote hw).1
    rw [cleared]
    exact ⟨trivial, care rfl, .atRest rfl _⟩
  | idleCount => exact ⟨trivial, hw, .counted⟩
  | giveBack link =>
    refine ⟨trivial, care rfl, ?_⟩
    show Pool.Serves _ _ _ (.giveBack link) () (w.giveBack T link).pool
    rw [giveBack_of_running link hrun]
    exact .returned link
  | discard link =>
    refine ⟨trivial, care rfl, ?_⟩
    show Pool.Serves _ _ _ (.discard link) () (w.discard T s link).pool
    rw [discard_of_running link hrun]
    exact .dropped link
  | phase => exact ⟨trivial, hw, .atRest rfl _⟩
  | poolPhase => exact ⟨trivial, hw, .atRest rfl _⟩
  | wait token ms => exact ⟨trivial, hw, .atRest rfl _⟩
  | batchName => exact ⟨trivial, hw, .atRest rfl _⟩
  | log entry => exact ⟨trivial, hw, .atRest rfl _⟩
  | _ => exact absurd hr Bool.false_ne_true

theorem serves_answerBegun {most : Nat} {t : Tenure} {r : Request} (hw : tame w.remote)
    (hrun : w.pool.phase = .running) (hr : (thrift most).allows t r) :
    (thrift most).admits t r (w.answerBegun T s r).1 ∧ tame (w.answerBegun T s r).2.remote ∧
      w.pool.Serves s.config w.clock r (w.answerBegun T s r).1 (w.answerBegun T s r).2.pool := by
  cases r with
  | push link key payload => exact serves_push hT t link key payload hw
  | _ => exact serves_answerNow hT hw hrun hr

/-- A link that is opened has arrived. -/
theorem settleOpening_obliging (index : Nat) (hw : tame w.remote) :
    tame (w.settleOpening T s index).remote ∧
      (w.settleOpening T s index).pool = w.pool.arrive index := by
  obtain ⟨opened, htame, -⟩ := hT.connect w.pool.opened s.endpoint w.remote hw
  unfold settleOpening
  dsimp only
  split
  · rename_i remote hc
    rw [hc] at htame
    exact ⟨htame, rfl⟩
  · rename_i e remote hc
    rw [hc] at opened
    cases opened

end Obliging

theorem beginning_pool (T : Transport σ) (r : Request) (w : World σ) :
    (w.beginning T r).pool = w.pool := by
  cases r <;> rfl

theorem beginning_tame (hT : T.Obliging tame memory reply) (r : Request) (hw : tame w.remote) :
    tame (w.beginning T r).remote := by
  cases r with
  | push link key payload => exact (hT.beginPush link key payload w.remote hw).2.1
  | _ => exact hw

end World

/-- A store that nobody has scripted is tame. -/
theorem ScriptedStore.isTame_silent : ({} : ScriptedStore).IsTame where
  broken := rfl
  refusing := rfl
  connectFailures := rfl
  pingFailures := rfl
  resetFailures := rfl
  hooks := rfl
  kind _ _ h := by cases h

namespace Senders

variable {σ V : Type} {T : Transport σ} {tame : σ → Prop} {memory : σ → V}
  {reply : V → String → Bytes → Except String Unit × V} {e : Engine} {k : Senders σ}

/-! ## One sender -/

/-- An event of senders that make no background checks. -/
def Event.isSend : Event → Bool
  | .call _ .check => false
  | _ => true

/-- A sender in the middle of a call keeps to the rules of somebody who borrows one link; between
two calls it holds none. -/
def Heeds (e : Engine) (t : Tenure) (s : Sender) : Prop :=
  s.doing.elim (t.links = []) fun c =>
    c.talk.Abides (thrift e.pool.config.maxIdle.toNat) t fun _ t' => t'.links = []

/-- One sender, which keeps to the rules, at a pool. -/
structure Single (tame : σ → Prop) (e : Engine) (t : Tenure) (s : Sender) (k : Senders σ) :
    Prop where
  one : k.senders = [s]
  heeds : Heeds e t s
  tame : tame k.world.remote

theorem eq_of_one {s s' : Sender} {i : Nat} (hs : k.senders = [s])
    (hi : k.senders[i]? = some s') : i = 0 ∧ s' = s := by
  rw [hs, List.getElem?_singleton] at hi
  split at hi
  · exact ⟨‹_›, (Option.some.inj hi).symm⟩
  · cases hi

theorem getElem?_one {s : Sender} (hs : k.senders = [s]) : k.senders[0]? = some s := by
  rw [hs]
  rfl

theorem put_one {s : Sender} (hs : k.senders = [s]) (s' : Sender) :
    (k.put 0 s').senders = [s'] := by
  unfold put
  rw [hs]
  rfl

/-- An opening succeeds or fails. -/
theorem step_opening {index : Nat} (hi : index < k.world.pool.openings.length) :
    k.step T e (.opening index) = { k with world := k.world.settleOpening T e.pool index } :=
  if_pos hi

/-- One sender at a pool with links enough for it. -/
def GetsBy (tame : σ → Prop) (e : Engine) (k : Senders σ) : Prop :=
  ∃ s t, k.Single tame e t s ∧ k.world.pool.Frugal e.pool.config t

section GetsBy

variable (hT : T.Obliging tame memory reply) (hroom : Pool.HasRoom e.pool.config)
  (hmost : 1 ≤ e.pool.config.maxIdle.toNat)
include hT hroom hmost

theorem GetsBy.turn (h : k.GetsBy tame e) (i : Nat) (patient : Bool) :
    (k.turn T e i patient).GetsBy tame e := by
  obtain ⟨s, t, hsingle, hpool⟩ := h
  unfold Senders.turn
  split
  · rename_i past c hi
    obtain ⟨rfl, rfl⟩ := eq_of_one hsingle.one hi
    have heeds : c.talk.Abides _ t _ := hsingle.heeds
    split
    · rename_i answer hc
      rw [hc] at heeds
      exact ⟨_, t, ⟨put_one hsingle.one _, heeds, hsingle.tame⟩, hpool⟩
    · rename_i r next hc
      rw [hc] at heeds
      obtain ⟨allowed, onward⟩ := heeds
      split
      · refine ⟨_, t, ⟨put_one hsingle.one _, hsingle.heeds,
          World.beginning_tame hT r hsingle.tame⟩, ?_⟩
        show (k.world.beginning T r).pool.Frugal e.pool.config t
        rw [World.beginning_pool]
        exact hpool
      · obtain ⟨admits, htame, served⟩ :=
          World.serves_answerBegun (s := e.pool) hT hsingle.tame hpool.running allowed
        dsimp only
        split
        · -- only a borrower that has found no link waits on
          rename_i hwait
          obtain ⟨-, hrefused⟩ := Bool.and_eq_true_iff.mp hwait
          have hnone := tryBorrow_of_isRefused T rfl hrefused
          have hidle : k.world.pool.idle = [] := by
            by_contra hidle
            obtain ⟨link, w₁, hgot⟩ :=
              World.tryBorrow_of_idle (s := e.pool) hT hsingle.tame hidle
            rw [hgot] at hnone
            cases hnone
          obtain rfl : t = .seeking := by
            cases r with
            | borrow => exact allowed
            | _ => exact absurd hrefused Bool.false_ne_true
          have awaited : k.world.await T e.pool = { k.world with
              pool := k.world.pool.openOne e.pool.config k.world.clock } := by
            unfold World.await
            rw [World.tryBorrow_of_idle_nil hidle]
          rw [awaited]
          exact ⟨_, .seeking, ⟨hsingle.one, hsingle.heeds, hsingle.tame⟩,
            hpool.openOne hmost hidle k.world.clock⟩
        · exact ⟨_, _, ⟨put_one hsingle.one _, onward _ admits, htame⟩,
            hpool.serves hroom allowed served⟩
  · exact ⟨s, t, hsingle, hpool⟩

/-- **One event**: the sender still gets by with the links that the pool has room for. -/
theorem GetsBy.step (h : k.GetsBy tame e) {event : Event} (he : event.isSend = true) :
    (k.step T e event).GetsBy tame e := by
  cases event with
  | call i duty =>
    obtain ⟨s, t, hsingle, hpool⟩ := h
    unfold Senders.step
    dsimp only
    split
    · rename_i past hi
      obtain ⟨rfl, rfl⟩ := eq_of_one hsingle.one hi
      have sends : duty ≠ .check := by
        rintro rfl
        exact Bool.false_ne_true he
      exact ⟨_, .seeking, ⟨put_one hsingle.one _, Duty.thrifty e sends, hsingle.tame⟩,
        hpool.seek hsingle.heeds⟩
    · exact ⟨s, t, hsingle, hpool⟩
  | turn i patient => exact h.turn hT hroom hmost i patient
  | opening index =>
    obtain ⟨s, t, hsingle, hpool⟩ := h
    unfold Senders.step
    dsimp only
    split
    · rename_i hi
      obtain ⟨htame, arrived⟩ :=
        World.settleOpening_obliging (s := e.pool) hT index hsingle.tame
      refine ⟨s, t, ⟨hsingle.one, hsingle.heeds, htame⟩, ?_⟩
      show (k.world.settleOpening T e.pool index).pool.Frugal e.pool.config t
      rw [arrived]
      exact hpool.arrive hi
    · exact ⟨s, t, hsingle, hpool⟩
  | meanwhile clock handles =>
    obtain ⟨s, t, hsingle, hpool⟩ := h
    exact ⟨s, t, ⟨hsingle.one, hsingle.heeds, hsingle.tame⟩, hpool⟩

theorem GetsBy.run (h : k.GetsBy tame e) {events : List Event}
    (he : ∀ event ∈ events, event.isSend = true) : (k.run T e events).GetsBy tame e := by
  induction events generalizing k with
  | nil => exact h
  | cons event events ih =>
    obtain ⟨hevent, hrest⟩ := List.forall_mem_cons.mp he
    exact ih (h.step hT hroom hmost hevent) hrest

end GetsBy

/-! ## Calls that open a link each -/

section Squandering

/-- One sender in the middle of a call, of which so much is left, and the world around it. -/
def Talks (talk : Dialogue Reply) (w : World σ) (k : Senders σ) : Prop :=
  k.world = w ∧ ∃ past c, k.senders = [⟨past, some c⟩] ∧ c.talk = talk ∧ c.pushing = false

/-- The sender begins a call. -/
theorem talks_call {past : List Completed} (hs : k.senders = [⟨past, none⟩]) (duty : Duty) :
    (k.step T e (.call 0 duty)).Talks (duty.dialogue e) k.world := by
  have called : k.step T e (.call 0 duty) =
      k.put 0 ⟨past, some { duty, talk := duty.dialogue e }⟩ := by
    unfold step
    simp only [hs, List.getElem?_cons_zero]
  rw [called]
  exact ⟨rfl, past, _, put_one hs _, rfl, rfl⟩

/-- It has a request answered. -/
theorem Talks.turn {r : Request} {next : r.Answer → Dialogue Reply} {w : World σ}
    (h : k.Talks (.ask r next) w) (hr : r.isMute = true) :
    (k.step T e (.turn 0 false)).Talks (next (w.answerNow T e.pool r).1)
      (w.answerNow T e.pool r).2 := by
  obtain ⟨rfl, past, c, hs, hc, -⟩ := h
  have first := getElem?_one hs
  show (k.turn T e 0 false).Talks _ _
  rw [turn_answer first hc (by rw [hr]; rfl), World.answerBegun_of_isMute T e.pool hr]
  exact ⟨rfl, past, _, put_one hs _, rfl, rfl⟩

/-- Meanwhile a link is opened. -/
theorem Talks.opening {talk : Dialogue Reply} {w : World σ} (h : k.Talks talk w) {index : Nat}
    (hi : index < w.pool.openings.length) :
    (k.step T e (.opening index)).Talks talk (w.settleOpening T e.pool index) := by
  obtain ⟨rfl, held⟩ := h
  rw [step_opening hi]
  exact ⟨rfl, held⟩

/-- It has all that is left answered, and the call comes back. -/
theorem Talks.alone {talk : Dialogue Reply} {w : World σ} (h : k.Talks talk w) :
    ∃ m, let k' := k.run T e (List.replicate m (.turn 0 false))
      (∃ past, k'.senders = [⟨past, none⟩]) ∧
        k'.world = (talk.run (World.answerNow T e.pool) w).2 := by
  obtain ⟨rfl, past, c, hs, hc, hpushing⟩ := h
  have first := getElem?_one hs
  obtain ⟨m, hm⟩ := turns_alone (T := T) (e := e) first hc hpushing
  refine ⟨m, ?_⟩
  rw [hm]
  exact ⟨⟨_, put_one hs _⟩, rfl⟩

/-- One sender between two calls, at a pool in which as many links are idle as it keeps. -/
structure Squanders (tame : σ → Prop) (e : Engine) (n : Nat) (k : Senders σ) : Prop where
  one : ∃ past, k.senders = [⟨past, none⟩]
  tame : tame k.world.remote
  started : k.world.phase = .started
  pool : k.world.pool.Wasteful e.pool.config n .parted

/-- The first requests of a send to an engine that is started, with a pool that runs. -/
theorem send_begins (e : Engine) (payload : Bytes) (token : TokenId) :
    ∃ next₁ next₂ next₃, (Duty.send payload token).dialogue e = .ask .phase next₁ ∧
      next₁ .started = .ask .poolPhase next₂ ∧ next₂ .running = .ask .borrow next₃ :=
  ⟨_, _, _, rfl, rfl, rfl⟩

variable (hT : T.Obliging tame memory reply)
include hT

/-- The rest of a send, once its link was made up for: the link is closed. -/
theorem Talks.squanders {n : Nat} {t : Tenure} {talk : Dialogue Reply} {w : World σ}
    (h : k.Talks talk w) (htight : Pool.IsTight e.pool.config)
    (heeds : talk.Abides (thrift e.pool.config.maxIdle.toNat) t fun _ t' => t'.links = [])
    (htame : tame w.remote) (hstarted : w.phase = .started)
    (hpool : w.pool.Wasteful e.pool.config n t) :
    ∃ m, (k.run T e (List.replicate m (.turn 0 false))).Squanders tame e n := by
  have upholds : Dialogue.Upholds (thrift e.pool.config.maxIdle.toNat) (fun t (w : World σ) =>
      tame w.remote ∧ w.phase = .started ∧ w.pool.Wasteful e.pool.config n t)
      (World.answerNow T e.pool) := by
    rintro t r w ⟨htame, hstarted, hpool⟩ allowed
    obtain ⟨admits, after, served⟩ :=
      World.serves_answerNow (s := e.pool) hT htame hpool.running allowed
    refine ⟨admits, after, ?_, hpool.serves htight allowed served⟩
    have aside : r.isAside = true := by
      cases r <;> first | rfl | exact absurd allowed Bool.false_ne_true
    exact (congrArg World.Rest.phase (World.rest_answerNow T e.pool aside w)).trans hstarted
  obtain ⟨t', hnone, after, started, pool⟩ := heeds.run upholds ⟨htame, hstarted, hpool⟩
  obtain rfl : t' = .parted := by
    cases t' with
    | parted => rfl
    | seeking => exact absurd rfl pool.not_seeking
    | _ => cases hnone
  obtain ⟨m, one, hworld⟩ := h.alone (T := T) (e := e)
  refine ⟨m, one, ?_, ?_, ?_⟩ <;> rw [hworld] <;> assumption

/-- A send to an engine that is started borrows a link, if there is one. -/
theorem Talks.borrows {w : World σ} (h : k.Talks ((Duty.send [] e.token).dialogue e) w)
    (htame : tame w.remote) (hstarted : w.phase = .started) (hrun : w.pool.phase = .running)
    (hidle : w.pool.idle ≠ []) :
    ∃ talk w' link, w.pool.take e.pool.config w.clock = some (link, w'.pool) ∧
      (k.run T e (List.replicate 3 (.turn 0 false))).Talks talk w' ∧
      (talk.Abides (thrift e.pool.config.maxIdle.toNat) (.holding link)
        fun _ t => t.links = []) ∧
      tame w'.remote ∧ w'.phase = .started := by
  obtain ⟨next₁, next₂, next₃, begins, passes, borrows⟩ := send_begins e [] e.token
  have heeds : ((Duty.send [] e.token).dialogue e).Abides (thrift e.pool.config.maxIdle.toNat)
      .seeking fun _ t => t.links = [] := Duty.thrifty e Duty.noConfusion
  rw [begins] at heeds h
  have heeds₁ := heeds.2 .started trivial
  rw [passes] at heeds₁
  have heeds₂ := heeds₁.2 .running trivial
  rw [borrows] at heeds₂
  have h₁ := h.turn (T := T) (e := e) rfl
  change Talks (next₁ w.phase) w _ at h₁
  rw [hstarted, passes] at h₁
  have h₂ := h₁.turn (T := T) (e := e) rfl
  change Talks (next₂ w.pool.phase) w _ at h₂
  rw [hrun, borrows] at h₂
  have h₃ := h₂.turn (T := T) (e := e) rfl
  obtain ⟨-, after, served⟩ := World.serves_answerNow (s := e.pool) hT htame hrun heeds₂.1
  obtain ⟨link, lent, ht⟩ := served.lends hidle
  rw [lent] at h₃
  have rest := congrArg World.Rest.phase (World.rest_answerNow T e.pool (r := .borrow) rfl w)
  exact ⟨_, _, link, ht, h₃, heeds₂.2 _ trivial, after, rest.trans hstarted⟩

/-- **A send opens a link and closes one.** -/
theorem Squanders.send {n : Nat} (h : k.Squanders tame e n)
    (htight : Pool.IsTight e.pool.config) (hmost : 1 ≤ e.pool.config.maxIdle.toNat) :
    ∃ events : List Event, (∀ event ∈ events, event.isSend = true) ∧
      (k.run T e events).Squanders tame e (n + 1) := by
  obtain ⟨past, hs⟩ := h.one
  have hidle : k.world.pool.idle ≠ [] := by
    intro hnil
    have full := h.pool.idle
    rw [hnil, List.length_nil] at full
    omega
  obtain ⟨talk, w, link, taken, talks, heeds, htame, hstarted⟩ :=
    (talks_call (T := T) hs _).borrows hT h.tame h.started h.pool.running hidle
  -- a link is opened for the one that was borrowed
  obtain ⟨one, again⟩ := h.pool.borrow htight taken
  obtain ⟨opened, arrived⟩ := World.settleOpening_obliging (s := e.pool) hT 0 htame
  have settled := talks.opening (T := T) (e := e) (Nat.lt_of_lt_of_eq Nat.one_pos one.symm)
  have still := congrArg Phases.engine (World.phases_settleOpening T e.pool 0 w)
  obtain ⟨m, hm⟩ :=
    settled.squanders hT htight heeds opened (still.trans hstarted) (arrived ▸ again)
  have sends (n : Nat) : ∀ event ∈ List.replicate n (Event.turn 0 false), event.isSend = true :=
    fun event h => (List.eq_of_mem_replicate h) ▸ rfl
  refine ⟨.call 0 (.send [] e.token) ::
    (List.replicate 3 (.turn 0 false) ++ .opening 0 :: List.replicate m (.turn 0 false)), ?_, ?_⟩
  · simp only [List.forall_mem_cons, List.forall_mem_append]
    exact ⟨rfl, sends 3, rfl, sends m⟩
  · unfold run at hm ⊢
    rw [List.foldl_cons, List.foldl_append, List.foldl_cons]
    exact hm

/-- **Any number of links is opened.** -/
theorem Squanders.sends {n : Nat} (h : k.Squanders tame e n)
    (htight : Pool.IsTight e.pool.config) (hmost : 1 ≤ e.pool.config.maxIdle.toNat) (more : Nat) :
    ∃ events : List Event, (∀ event ∈ events, event.isSend = true) ∧
      (k.run T e events).Squanders tame e (n + more) := by
  induction more with
  | zero => exact ⟨[], nofun, h⟩
  | succ more ih =>
    obtain ⟨events, sends, squanders⟩ := ih
    obtain ⟨events', sends', squanders'⟩ := squanders.send hT htight hmost
    refine ⟨events ++ events', List.forall_mem_append.mpr ⟨sends, sends'⟩, ?_⟩
    unfold run at squanders' ⊢
    rw [List.foldl_append]
    exact squanders'

/-- When all links that the pool opens unasked have been opened, the first call can begin. -/
theorem squanders_filled {m : Nat} (hs : ∃ past, k.senders = [⟨past, none⟩])
    (htame : tame k.world.remote) (hstarted : k.world.phase = .started)
    (hpool : k.world.pool.Filling e.pool.config m) :
    (k.run T e (List.replicate m (.opening 0))).Squanders tame e
      e.pool.config.maxIdle.toNat := by
  induction m generalizing k with
  | zero => exact ⟨hs, htame, hstarted, hpool.wasteful⟩
  | succ m ih =>
    have hi : 0 < k.world.pool.openings.length :=
      Nat.lt_of_lt_of_eq (Nat.succ_pos m) hpool.openings.symm
    obtain ⟨after, arrived⟩ := World.settleOpening_obliging (s := e.pool) hT 0 htame
    have still := congrArg Phases.engine (World.phases_settleOpening T e.pool 0 k.world)
    refine ih (k := k.step T e (.opening 0)) ?_ ?_ ?_ ?_ <;> rw [step_opening hi]
    · exact hs
    · exact after
    · exact still.trans hstarted
    · exact arrived ▸ hpool.arrive

end Squandering

/-! ## Any number of calls -/

/-- The world of an engine that is made with a configuration. -/
theorem world_ofConfig {c : Config} {batchName : String} {remote : σ} {w : World σ}
    (h : World.ofConfig batchName remote c = .ok (e, w)) :
    w.remote = remote ∧ w.phase = .created ∧ w.pool = {} := by
  unfold World.ofConfig at h
  dsimp only at h
  cases hmade : (Engine.ofConfig c (Cancel.Forest.create {}).1).result with
  | error err =>
    rw [hmade] at h
    cases h
  | ok made =>
    rw [hmade] at h
    obtain ⟨-, rfl⟩ := Prod.mk.inj (Except.ok.inj h)
    exact ⟨rfl, rfl, rfl⟩

/-- What that world is like once the engine is started. -/
theorem world_startup (T : Transport σ) (depth : Nat) {w : World σ} (hphase : w.phase = .created)
    (hpool : w.pool = {}) :
    let v := (w.call T e depth .startup).2
    v.remote = w.remote ∧ v.phase = .started ∧
      v.pool = ({} : Pool).start e.pool.config w.clock := by
  obtain ⟨entry, started⟩ := World.run_poolStartup T e depth (w := w) (by rw [hpool])
  have called : (w.call T e depth .startup).2 = (e.startup.run (World.answer T e depth) w).2 :=
    Dialogue.run_reply (fun x => by cases x <;> exact ⟨_, rfl⟩) _ w
  dsimp only
  rw [called]
  unfold Engine.startup Dialogue.run
  rw [World.answer_phase, hphase]
  show (Dialogue.run _ (Dialogue.bind e.pool.startup _) w).2.remote = _ ∧
    (Dialogue.run _ (Dialogue.bind e.pool.startup _) w).2.phase = _ ∧
    (Dialogue.run _ (Dialogue.bind e.pool.startup _) w).2.pool = _
  rw [Dialogue.run_bind, started, hpool]
  cases depth <;> exact ⟨rfl, rfl, rfl⟩

section Start

variable {w : World σ} {now : Nat} (hT : T.Obliging tame memory reply)
  (hmost : 1 ≤ e.pool.config.maxIdle.toNat) (htame : tame w.remote)
  (hpool : w.pool = ({} : Pool).start e.pool.config now)
include hT hmost htame hpool

/-- **One sender gets by** with the links that a pool with links enough has room for. -/
theorem opened_le (hroom : Pool.HasRoom e.pool.config) {events : List Event}
    (sends : ∀ event ∈ events, event.isSend = true) :
    ((start 1 w).run T e events).world.pool.opened ≤ e.pool.config.capacity := by
  have pool : (start 1 w).world.pool.Frugal e.pool.config .seeking := by
    rw [show (start 1 w).world.pool = _ from hpool]
    exact .start hroom
  have begun : (start 1 w).GetsBy tame e := ⟨{}, .seeking, ⟨rfl, rfl, htame⟩, pool⟩
  obtain ⟨s, t, -, frugal⟩ := begun.run hT hroom hmost sends
  exact Nat.le_trans (Nat.le_add_right _ _) frugal.few

/-- **One sender opens any number of links** at a pool with links too few. -/
theorem exists_opened (htight : Pool.IsTight e.pool.config) (hstarted : w.phase = .started)
    (more : Nat) :
    ∃ events : List Event, (∀ event ∈ events, event.isSend = true) ∧
      ((start 1 w).run T e events).world.pool.opened = e.pool.config.maxIdle.toNat + more := by
  have pool : (start 1 w).world.pool.Filling e.pool.config e.pool.config.maxIdle.toNat := by
    rw [show (start 1 w).world.pool = _ from hpool]
    exact .start htight
  have filled := squanders_filled (k := start 1 w) hT ⟨[], rfl⟩ htame hstarted pool
  obtain ⟨events, sends, squanders⟩ := filled.sends hT htight hmost more
  refine ⟨List.replicate e.pool.config.maxIdle.toNat (.opening 0) ++ events,
    List.forall_mem_append.mpr ⟨fun _ h => List.eq_of_mem_replicate h ▸ rfl, sends⟩, ?_⟩
  have opened := squanders.pool.opened
  unfold run at opened ⊢
  rw [List.foldl_append]
  exact opened

end Start

/-- **When one sender gets by with the links that a pool has room for**, however many calls it makes
and whenever links are opened: if the pool opens fewer links unasked than it keeps, or keeps all it
has room for. -/
theorem opened_le_iff (hT : T.Obliging tame memory reply) {c : Config}
    (hc : c.validate.result = .ok ()) (hmost : 1 ≤ c.pool.maxIdle) {remote : σ}
    (hremote : tame remote) (batchName : String) (depth : Nat) :
    ∃ e w, World.ofConfig batchName remote c = .ok (e, w) ∧
      ((∀ events : List Event, (∀ event ∈ events, event.isSend = true) →
          ((start 1 (w.call T e depth .startup).2).run T e events).world.pool.opened ≤
            c.pool.maxTotal.toNat) ↔
        c.pool.minIdle < c.pool.maxIdle ∨ c.pool.maxTotal ≤ c.pool.maxIdle) := by
  obtain ⟨e, w, hmade, equips⟩ := Config.exists_engine_of_validate hc batchName remote
  obtain ⟨kept, hphase, hpool⟩ := world_ofConfig hmade
  obtain ⟨still, started, pool⟩ := world_startup (e := e) T depth hphase hpool
  have rules := Config.validate_eq_ok_iff.mp hc
  have config : e.pool.config = c.pool := by rw [equips.pool]
  have htame : tame (w.call T e depth .startup).2.remote := by rw [still, kept]; exact hremote
  have nonzero : c.pool.maxTotal.toNat ≠ 0 := fun h => rules.links (UInt32.toNat_inj.mp h)
  have capacity : c.pool.capacity = c.pool.maxTotal.toNat := by
    unfold PoolConfig.capacity
    omega
  have fewer : c.pool.minIdle.toNat ≤ c.pool.maxIdle.toNat := UInt32.le_iff_toNat_le.mp rules.idle
  have most : 1 ≤ c.pool.maxIdle.toNat := UInt32.le_iff_toNat_le.mp hmost
  refine ⟨e, w, hmade, ?_⟩
  rw [UInt32.lt_iff_toNat_lt, UInt32.le_iff_toNat_le]
  refine ⟨fun hall => ?_, fun hroom events sends => ?_⟩
  · by_contra hnone
    have htight : Pool.IsTight c.pool := ⟨by omega, by omega⟩
    rw [← config] at htight most
    obtain ⟨events, sends, opened⟩ :=
      exists_opened hT most htame pool htight started c.pool.maxTotal.toNat
    have := hall events sends
    omega
  · have hroom : Pool.HasRoom c.pool := by
      unfold Pool.HasRoom
      omega
    rw [← config] at hroom most
    have few := opened_le hT most htame pool hroom sends
    rwa [config, capacity] at few

/-- A pool that keeps two links and opens one unasked opens four at most. -/
theorem opened_le_four :
    let c : Config := { pool := { maxTotal := 4, maxIdle := 2, minIdle := 1 } }
    c.validate.result = .ok () ∧ 1 ≤ c.pool.maxIdle ∧ ({} : ScriptedStore).IsTame ∧
      ∃ e w, World.ofConfig "" ({} : ScriptedStore) c = .ok (e, w) ∧
        ∀ events : List Event, (∀ event ∈ events, event.isSend = true) →
          ((start 1 (w.call ScriptedStore.transport e 0 .startup).2).run ScriptedStore.transport e
            events).world.pool.opened ≤ 4 := by
  intro c
  have valid : c.validate.result = .ok () := by decide +kernel
  obtain ⟨e, w, hmade, gets⟩ := opened_le_iff ScriptedStore.obliging valid (by decide)
    ScriptedStore.isTame_silent "" 0
  exact ⟨valid, by decide, ScriptedStore.isTame_silent, e, w, hmade, gets.mpr (.inl (by decide))⟩

/-- A send that has its link made up for before it uses it. -/
def costly (e : Engine) : List Event :=
  .call 0 (.send [] e.token) :: List.replicate 3 (.turn 0 false) ++
    .opening 0 :: List.replicate 12 (.turn 0 false)

/-- A pool that has room for two links, keeps one and opens one unasked: three links are opened for
two sends. -/
theorem opened_three :
    let c : Config := { pool := { maxTotal := 2, maxIdle := 1, minIdle := 1 } }
    c.validate.result = .ok () ∧ 1 ≤ c.pool.maxIdle ∧ ({} : ScriptedStore).IsTame ∧
      (World.ofConfig "" ({} : ScriptedStore) c).map (fun (e, w) =>
        let events := .opening 0 :: (costly e ++ costly e)
        let k := (start 1 (w.call ScriptedStore.transport e 0 .startup).2).run
          ScriptedStore.transport e events
        (events.all Event.isSend, k.senders.map fun s => s.past.map Completed.reply,
          k.world.pool.opened, c.pool.maxTotal.toNat)) =
        .ok (true, [[.outcome .delivered, .outcome .delivered]], 3, 2) := by
  exact ⟨by decide +kernel, by decide, ScriptedStore.isTame_silent, by decide +kernel⟩

end Senders

end LogShipper
