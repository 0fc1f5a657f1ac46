import LogShipper.Proofs.World.Passing
import LogShipper.Proofs.Delivery.Sending
import LogShipper.Proofs.Delivery.Turns
import LogShipper.Proofs.Store.Obliging

/-!
# What pushes depend on

With a store that obliges, the pushes of an engine depend on little of its world (`Gist`): on what
the store remembers, and on the tokens. Links, the pool, the clock and the log are of no account to
them. Taking care of links, and the passing of time, leave the gist of a world alone; pushes change
it in a way that does not depend on the link.

So the tries of keys can be followed on the gist alone (`Gist.answer`), and `run_tries` says that
this comes to the same.

Results:
* `shows_answer`: requests that do not push leave the gist alone.
* `shows_push`: what a push does to it.
* `run_tries`: the tries of keys in a world and on its gist.
-/

namespace LogShipper

open Delivery (Request Dialogue PoolSettings Engine Call Job)

/-! ## The gist of a world -/

/-- The key and the payload of a push that began. -/
def Act.attempt? : Act → Option (String × Bytes)
  | .began _ key payload => some (key, payload)
  | _ => none

/-- The pushes in a record, with neither links nor answers, the latest first. -/
def attempts (acts : List Act) : List (String × Bytes) := acts.filterMap Act.attempt?

/-- All of a world that pushes depend on, and the pushes so far. -/
structure Gist (V : Type) where
  memory : V
  attempts : List (String × Bytes)
  handles : Cancel.Handles

namespace Gist

variable {V : Type} (reply : V → String → Bytes → Except String Unit × V)

/-- What a push does to the gist. -/
def push (key : String) (payload : Bytes) (g : Gist V) : Gist V :=
  { g with memory := (reply g.memory key payload).2, attempts := (key, payload) :: g.attempts }

/-- How requests are answered where only pushes and waits matter. All other answers are of no
account: they are those of a world in which all goes well. -/
def answer : (r : Request) → Gist V → r.Answer × Gist V
  | .push _ key payload, g =>
    ((reply g.memory key payload).1.mapError .command, g.push reply key payload)
  | .wait token _, g => (if g.handles.forest.isCancelled token then .cancelled else .elapsed, g)
  | .log _, g => ((), g)
  | .phase, g => (.started, g)
  | .markStarted, g => ((), g)
  | .markStopped, g => (.started, g)
  | .poolPhase, g => (.running, g)
  | .openPool, g => ((), g)
  | .closePool, g => (.running, g)
  | .drain _, g => (0, g)
  | .forsakePool, g => ((), g)
  | .borrow, g => (.ok 0, g)
  | .tryBorrow, g => (none, g)
  | .ping _, g => (.ok (), g)
  | .reset _, g => (.ok (), g)
  | .idleCount, g => (0, g)
  | .giveBack _, g => ((), g)
  | .discard _, g => ((), g)
  | .cancel _, g => ((), g)
  | .token _, g => (none, g)
  | .newToken _ _, g => ((), g)
  | .isCancelled _, g => (false, g)
  | .batchName, g => ("", g)

/-! ## Tries on the gist of a world -/

variable {reply} {g : Gist V}

/-- One try: the reply to it, or the token after it, ends the tries, or the others follow. -/
theorem run_attempt (j : Job) (left used : Nat) :
    (j.attempt left used).run (answer reply) g =
      match (reply g.memory j.key j.payload).1, left with
      | .ok _, _ => (.delivered (used + 1), g.push reply j.key j.payload)
      | .error e, 0 => (.exhausted (used + 1) e, g.push reply j.key j.payload)
      | .error _, left + 1 =>
        if g.handles.forest.isCancelled j.token then
          (.cancelled (used + 1), g.push reply j.key j.payload)
        else (j.attempt left (used + 1)).run (answer reply) (g.push reply j.key j.payload) := by
  rw [Job.attempt]
  simp only [Dialogue.run, answer]
  cases (reply g.memory j.key j.payload).1 with
  | ok _ => rfl
  | error e =>
    cases left with
    | zero => rfl
    | succ left =>
      have waited : answer reply (.wait j.token j.retryDelayMs.toNat)
          (g.push reply j.key j.payload) =
            (if g.handles.forest.isCancelled j.token then .cancelled else .elapsed,
              g.push reply j.key j.payload) := rfl
      have logged : (j.logRetrying (used + 1) e).run (answer reply) (g.push reply j.key j.payload) =
          ((), g.push reply j.key j.payload) := rfl
      show Dialogue.run _ (Dialogue.bind (j.logRetrying (used + 1) e) _) _ = _
      rw [Dialogue.run_bind, logged, Dialogue.run, waited]
      by_cases hc : g.handles.forest.isCancelled j.token = true
      · simp only [if_pos hc]
        rfl
      · simp only [if_neg hc]

/-- The tries of a key go over any link alike, and lose none. The induction is on the tries that are
left. -/
theorem run_attempt_over (j : Job) (link : LinkId) (left used : Nat) :
    (({ j with link } : Job).attempt left used).run (answer reply) g =
        (j.attempt left used).run (answer reply) g ∧
      ((j.attempt left used).run (answer reply) g).1.isLost = false := by
  induction left generalizing used g with
  | zero =>
    rw [run_attempt, run_attempt]
    cases (reply g.memory j.key j.payload).1 <;> exact ⟨rfl, rfl⟩
  | succ left ih =>
    rw [run_attempt, run_attempt]
    cases (reply g.memory j.key j.payload).1 with
    | ok _ => exact ⟨rfl, rfl⟩
    | error e =>
      dsimp only
      split
      · exact ⟨rfl, rfl⟩
      · exact ih (used + 1)

/-- The pushes of a payload go over any link alike, and lose none. The induction is on the keys. -/
theorem run_deliverKeys_over (e : Engine) (link link' : LinkId) (payload : Bytes)
    (token : Cancel.TokenId) (keys exhausted cancelled : List String) :
    (e.deliverKeys link' payload token keys exhausted cancelled).run (answer reply) g =
        (e.deliverKeys link payload token keys exhausted cancelled).run (answer reply) g ∧
      ((e.deliverKeys link payload token keys exhausted cancelled).run
        (answer reply) g).1.keepsLink = true := by
  induction keys generalizing exhausted cancelled g with
  | nil => exact ⟨rfl, Delivery.PayloadOutcome.keepsLink_ofFailures _ _⟩
  | cons key keys ih =>
    obtain ⟨hover, hkept⟩ := @run_attempt_over V reply g
      ⟨link, key, payload, e.retry.retryDelayMs, token⟩ link' (e.retry.attempts - 1) 0
    unfold Engine.deliverKeys
    rw [Dialogue.run_bind, Dialogue.run_bind]
    unfold Delivery.push
    rw [hover]
    cases ho : ((Job.attempt ⟨link, key, payload, e.retry.retryDelayMs, token⟩
      (e.retry.attempts - 1) 0).run (answer reply) g).1 with
    | delivered _ => exact ih exhausted cancelled
    | exhausted _ _ => exact ih (key :: exhausted) cancelled
    | cancelled _ => exact ih exhausted (key :: cancelled)
    | lost reason =>
      rw [ho] at hkept
      exact absurd hkept.symm Bool.false_ne_true

end Gist

namespace World

variable {σ V : Type} {T : Transport σ} {tame : σ → Prop} {memory : σ → V}
  {reply : V → String → Bytes → Except String Unit × V} {s : PoolSettings} {g : Gist V}
  {w w₁ : World σ}

/-- The world has a gist, and its store is in a tame state. -/
structure Shows (tame : σ → Prop) (memory : σ → V) (g : Gist V) (w : World σ) : Prop where
  tame : tame w.remote
  memory : memory w.remote = g.memory
  attempts : attempts w.acts = g.attempts
  handles : w.handles = g.handles

theorem Shows.congr (hw : Shows tame memory g w) (hremote : w₁.remote = w.remote)
    (hacts : w₁.acts = w.acts) (hhandles : w₁.handles = w.handles) :
    Shows tame memory g w₁ where
  tame := hremote ▸ hw.tame
  memory := hremote ▸ hw.memory
  attempts := hacts ▸ hw.attempts
  handles := hhandles.trans hw.handles

/-! ## Taking care of links -/

section Care

variable (hT : T.Obliging tame memory reply)
include hT

theorem shows_ping (hw : Shows tame memory g w) (link : LinkId) :
    (w.ping T link).1 = .ok () ∧ Shows tame memory g (w.ping T link).2 := by
  obtain ⟨hanswer, htame, hmemory⟩ := hT.ping link w.remote hw.tame
  exact ⟨hanswer, htame, hmemory.trans hw.memory, hw.attempts, hw.handles⟩

theorem shows_reset (hw : Shows tame memory g w) (link : LinkId) :
    (w.reset T link).1 = .ok () ∧ Shows tame memory g (w.reset T link).2 := by
  obtain ⟨hanswer, htame, hmemory⟩ := hT.reset link w.remote hw.tame
  exact ⟨hanswer, htame, hmemory.trans hw.memory, hw.attempts, hw.handles⟩

theorem shows_close (hw : Shows tame memory g w) (link : LinkId) :
    Shows tame memory g (w.close T link) := by
  obtain ⟨htame, hmemory⟩ := hT.close link w.remote hw.tame
  exact ⟨htame, hmemory.trans hw.memory, hw.attempts, hw.handles⟩

theorem shows_closeAll (links : List LinkId) (hw : Shows tame memory g w) :
    Shows tame memory g (closeAll T links w) := by
  induction links generalizing w with
  | nil => exact hw
  | cons link links ih => exact ih (shows_close hT hw link)

theorem shows_settleForsaken (hw : Shows tame memory g w) :
    Shows tame memory g (w.settleForsaken T) := by
  unfold settleForsaken
  split
  · exact shows_closeAll hT w.pool.idle (w := { w with pool := w.pool.forsake })
      (hw.congr rfl rfl rfl)
  · exact hw

theorem shows_giveBack (hw : Shows tame memory g w) (link : LinkId) :
    Shows tame memory g (w.giveBack T link) :=
  shows_settleForsaken hT (w := { w with pool := w.pool.putBack link })
    (hw.congr rfl rfl rfl)

theorem shows_discard (hw : Shows tame memory g w) (link : LinkId) :
    Shows tame memory g (w.discard T s link) :=
  shows_settleForsaken hT (shows_close hT
    (w := { w with pool := w.pool.drop s.config w.clock link })
    (hw.congr rfl rfl rfl) link)

theorem Borrowed.shows {x : Option LinkId} (h : Borrowed T s w x w₁)
    (hw : Shows tame memory g w) : Shows tame memory g w₁ := by
  induction h with
  | none w => exact hw
  | unchecked ht => exact hw.congr rfl rfl rfl
  | @passed w w₁ link pool ht hp =>
    have pinged := (shows_ping hT (w := { w with pool })
      (hw.congr rfl rfl rfl) link).2
    rwa [hp] at pinged
  | @failed w w₁ w₂ link pool e x ht hp _ _ =>
    -- every ping succeeds
    have answered := (shows_ping hT (w := { w with pool })
      (hw.congr rfl rfl rfl) link).1
    rw [hp] at answered
    cases answered

theorem shows_care {r : Request} (hr : r.isCare = true) (hw : Shows tame memory g w) :
    Shows tame memory g (w.answerNow T s r).2 := by
  cases r with
  | tryBorrow => exact (borrowed_tryBorrow T s w).shows hT hw
  | ping link => exact (shows_ping hT hw link).2
  | reset link => exact (shows_reset hT hw link).2
  | idleCount => exact hw
  | giveBack link => exact shows_giveBack hT hw link
  | discard link => exact shows_discard hT hw link
  | log entry => exact hw.congr rfl rfl rfl
  | _ => exact absurd hr Bool.false_ne_true

/-- The gist does not change as time passes. -/
theorem steady_shows (g : Gist V) : Steady T s (Shows tame memory g) := by
  refine .of_care (fun _ _ hw => hw.congr rfl rfl rfl) (fun w index hw _ => ?_)
    (fun _ _ hr hw => shows_care hT hr hw) (fun _ _ _ _ hw => hw.congr rfl rfl rfl)
    fun _ _ _ _ _ hv => hv.congr rfl rfl rfl
  obtain ⟨hanswer, htame, hmemory⟩ := hT.connect w.pool.opened s.endpoint w.remote hw.tame
  unfold settleOpening
  dsimp only
  split
  · rename_i remote hc
    rw [hc] at htame hmemory
    exact ⟨htame, hmemory.trans hw.memory, hw.attempts, hw.handles⟩
  · rename_i e remote hc
    rw [hc] at hanswer
    cases hanswer

theorem shows_borrow (hw : Shows tame memory g w) : Shows tame memory g (w.borrow T s).2 :=
  (steady_shows hT g).borrow_keeps (fun _ hv => hv.congr rfl rfl rfl)
    (fun _ hv => hv.congr rfl rfl rfl) (fun _ _ _ hv hb => hb.shows hT hv) hw

omit hT in
/-- A push from inside which no calls are made. -/
theorem push_of_no_calls (call : Call → World σ → Delivery.Reply × World σ) {link : LinkId}
    {key : String} {payload : Bytes} (h : (T.beginPush link key payload w.remote).1 = []) :
    w.push T call link key payload = w.answerNow T s (.push link key payload) := by
  have calls : (T.beginPush link key payload (w.record (.began link key payload)).remote).1 = [] :=
    h
  unfold push
  simp only [calls, List.foldl_nil]
  rfl

/-- No calls are made from inside pushes, so the levels of such calls do not matter. -/
theorem answer_of_shows (e : Engine) (depth : Nat) (hw : Shows tame memory g w) (r : Request) :
    w.answer T e depth r = w.answerPatiently T e.pool r := by
  cases r with
  | push link key payload =>
    have hcalls := (hT.beginPush link key payload w.remote hw.tame).1
    cases depth with
    | zero => rfl
    | succ depth => exact push_of_no_calls (s := e.pool) _ hcalls
  | _ => exact answer_eq_patiently T e depth (fun _ _ _ => Request.noConfusion) w

/-- **A push** changes the gist in a way that does not depend on the link. -/
theorem shows_push (e : Engine) (depth : Nat) (link : LinkId) (key : String) (payload : Bytes)
    (hw : Shows tame memory g w) :
    (w.answer T e depth (.push link key payload)).1 =
        (reply g.memory key payload).1.mapError .command ∧
      Shows tame memory (g.push reply key payload)
        (w.answer T e depth (.push link key payload)).2 := by
  obtain ⟨-, hbegun, hsame⟩ := hT.beginPush link key payload w.remote hw.tame
  obtain ⟨hanswer, htame, hmemory⟩ := hT.endPush link key payload _ hbegun
  rw [hsame, hw.memory] at hanswer hmemory
  rw [answer_of_shows hT e depth hw]
  refine ⟨hanswer, htame, hmemory, ?_, hw.handles⟩
  show (key, payload) :: attempts w.acts = (key, payload) :: g.attempts
  rw [hw.attempts]

/-- **Other requests of a send** leave the gist alone. -/
theorem shows_answer (e : Engine) (depth : Nat) {r : Request} (hr : r.isSending = true)
    (hpush : ∀ link key payload, r ≠ .push link key payload) (hw : Shows tame memory g w) :
    Shows tame memory g (w.answer T e depth r).2 := by
  rw [answer_eq_patiently T e depth hpush]
  have care (hcare : r.isCare = true) : Shows tame memory g (w.answerNow T e.pool r).2 :=
    shows_care hT hcare hw
  cases r with
  | phase => exact hw
  | poolPhase => exact hw
  | batchName => exact hw
  | borrow => exact shows_borrow hT hw
  | wait token ms => exact (steady_shows hT g).wait token ms hw
  | drain ms => exact absurd hr Bool.false_ne_true
  | push link key payload => exact absurd rfl (hpush link key payload)
  | _ => exact care hr

/-- **The tries of keys**, in a world and on its gist. -/
theorem run_tries (e : Engine) (depth : Nat) {α : Type} {d : Dialogue α}
    (hd : d.Only Request.isTry) (hw : Shows tame memory g w) :
    (d.run (answer T e depth) w).1 = (d.run (Gist.answer reply) g).1 ∧
      Shows tame memory (d.run (Gist.answer reply) g).2 (d.run (answer T e depth) w).2 := by
  refine hd.run_congr (fun r g w hr hw => ?_) hw
  have still (hpush : ∀ link key payload, r ≠ .push link key payload) :
      Shows tame memory g (w.answer T e depth r).2 :=
    shows_answer hT e depth (Request.isSending_of_isTry hr) hpush hw
  cases r with
  | push link key payload => exact shows_push hT e depth link key payload hw
  | wait token ms =>
    refine ⟨?_, still fun _ _ _ => Request.noConfusion⟩
    rw [answer_eq_patiently T e depth fun _ _ _ => Request.noConfusion]
    show (w.wait T e.pool token ms).1 = if g.handles.forest.isCancelled token then _ else _
    rw [← hw.handles]
    unfold wait
    split <;> rfl
  | log entry => exact ⟨rfl, still fun _ _ _ => Request.noConfusion⟩
  | _ => exact absurd hr Bool.false_ne_true

end Care

end World

end LogShipper
