import LogShipper.Proofs.World.Gist
import LogShipper.Proofs.World.Lifecycle

/-!
# Links are opened in time

Nothing limits how long it takes to open a link. If it takes no longer than a borrower waits, and if
what is being opened will be before a borrower who comes now gives up (`World.InTime`), this stays
so for as long as links can be opened: one that cannot is tried again later, which may be too late.

Background checks come only as configured (`World.Checks`), at all times of an engine.

Results:
* `Since.checks`: background checks at all times.
* `steady_inTime`, `inTime_answer`: openings as time passes, and whatever a send asks for.
-/

namespace LogShipper

/-! ## Pools -/

namespace Pool

variable {σ : Type} {T : Transport σ} {c : PoolConfig} {now : Nat} {p q : Pool} {link : LinkId}

@[simp] theorem refill_nextEviction (p : Pool) :
    (p.refill c now).nextEviction = p.nextEviction := by
  obtain ⟨os, hos⟩ := refill_eq c now p
  rw [hos]

theorem take_nextEviction (h : p.take c now = some (link, q)) :
    q.nextEviction = p.nextEviction := by
  obtain ⟨idle, -, rfl⟩ := take_eq h
  exact refill_nextEviction _

/-- What is being opened will be before a borrower who comes now gives up. -/
def InTime (T : Transport σ) (c : PoolConfig) (now : Nat) (p : Pool) : Prop :=
  ∀ o ∈ p.openings, T.due o ≤ now + c.waitMs * 1000

namespace InTime

theorem later {now' : Nat} (h : p.InTime T c now) (hle : now ≤ now') : p.InTime T c now' :=
  fun o ho => Nat.le_trans (h o ho) (Nat.add_le_add_right hle _)

theorem congr (h : p.InTime T c now) (ho : q.openings = p.openings) : q.InTime T c now := by
  unfold InTime
  rw [ho]
  exact h

theorem arrive (h : p.InTime T c now) (index : Nat) : (p.arrive index).InTime T c now :=
  fun o ho => h o (List.mem_of_mem_eraseIdx ho)

theorem forsake (p : Pool) : p.forsake.InTime T c now := fun _ ho => absurd ho List.not_mem_nil

variable (hquick : ∀ begins, T.connectTime begins ≤ c.waitMs * 1000)
include hquick

/-- An opening that begins now is in time. -/
theorem openOne (h : p.InTime T c now) : (p.openOne c now).InTime T c now := by
  unfold Pool.openOne
  split
  · intro o ho
    rcases List.mem_append.mp ho with ho | ho
    · exact h o ho
    · obtain rfl := List.mem_singleton.mp ho
      exact Nat.add_le_add_left (hquick now) now
  · exact h

theorem openMany (h : p.InTime T c now) (n : Nat) : (Pool.openMany c now n p).InTime T c now := by
  induction n generalizing p with
  | zero => exact h
  | succ n ih => exact ih (h.openOne hquick)

theorem refill (h : p.InTime T c now) : (p.refill c now).InTime T c now := h.openMany hquick _

theorem take (h : p.InTime T c now) (ht : p.take c now = some (link, q)) : q.InTime T c now := by
  obtain ⟨idle, -, rfl⟩ := Pool.take_eq ht
  exact refill (p := { p with idle, lent := _ }) hquick (h.congr rfl)

theorem drop (h : p.InTime T c now) (link : LinkId) : (p.drop c now link).InTime T c now :=
  refill (p := { p with lent := p.lent.erase link }) hquick (h.congr rfl)

end InTime

end Pool

namespace World

open Delivery (Request Dialogue PoolSettings Engine Call)

variable {σ V : Type} {T : Transport σ} {tame : σ → Prop} {memory : σ → V}
  {reply : V → String → Bytes → Except String Unit × V} {s : PoolSettings} {e : Engine} {g : Gist V}
  {w w₁ : World σ} {depth : Nat}

/-! ## Background checks -/

/-- Idle links are checked in the background only if they are to be. -/
def Checks (s : PoolSettings) (w : World σ) : Prop :=
  w.pool.nextEviction ≠ none → s.config.evicts = true

namespace Checks

theorem congr (hw : Checks s w) (h : w₁.pool.nextEviction = w.pool.nextEviction) :
    Checks s w₁ := by
  unfold Checks
  rw [h]
  exact hw

theorem settleForsaken (hw : Checks s w) : Checks s (w.settleForsaken T) := by
  refine hw.congr ?_
  unfold World.settleForsaken
  split
  · rw [closeAll_pool]
    rfl
  · rfl

theorem giveBack (hw : Checks s w) (link : LinkId) : Checks s (w.giveBack T link) :=
  settleForsaken (w := { w with pool := w.pool.putBack link }) hw

theorem discard (hw : Checks s w) (link : LinkId) : Checks s (w.discard T s link) :=
  settleForsaken
    (w := ({ w with pool := w.pool.drop s.config w.clock link } : World σ).close T link)
    (hw.congr (Pool.refill_nextEviction _))

theorem borrowed {x : Option LinkId} (h : Borrowed T s w x w₁) (hw : Checks s w) :
    Checks s w₁ := by
  induction h with
  | none w => exact hw
  | unchecked ht => exact hw.congr (Pool.take_nextEviction ht)
  | passed ht hp =>
    refine hw.congr ?_
    rw [(ping_spec hp).1]
    exact Pool.take_nextEviction ht
  | @failed w w₁ w₂ link pool err x ht hp _ ih =>
    refine ih (discard (w := { w₁.raise (checkFailed s err) with
      pool := w₁.pool.blame err.message }) (hw.congr ?_) link)
    show w₁.pool.nextEviction = _
    rw [(ping_spec hp).1]
    exact Pool.take_nextEviction ht

theorem answerNow (hw : Checks s w) (r : Request) : Checks s (w.answerNow T s r).2 := by
  cases r with
  | openPool =>
    intro hne
    have started : (w.pool.start s.config w.clock).nextEviction =
        if s.config.evicts then some (w.clock + s.config.evictionIntervalMs.toNat * 1000)
        else none := Pool.refill_nextEviction _
    change (w.pool.start s.config w.clock).nextEviction ≠ none at hne
    rw [started] at hne
    split at hne
    · assumption
    · exact absurd rfl hne
  | closePool => exact fun hne => absurd rfl hne
  | forsakePool => exact hw.settleForsaken
  | borrow =>
    exact answerNow_borrow T s (P := fun got => Checks s got.2) w
      (fun _ _ hb => hw.borrowed hb) fun _ hb => (hw.borrowed hb).congr rfl
  | tryBorrow => exact hw.borrowed (borrowed_tryBorrow T s w)
  | giveBack link => exact hw.giveBack link
  | discard link => exact hw.discard link
  | newToken name parent => cases parent <;> exact hw
  | _ => exact hw

end Checks

theorem steady_checks : Steady T s (Checks s) := by
  refine .of_care (fun _ _ hw => hw) (fun w index hw _ => ?_) (fun r _ _ hw => hw.answerNow r)
    (fun _ _ _ _ hw => hw) fun w _ _ hw hne _ => fun _ => hw hne
  refine hw.congr ?_
  unfold settleOpening
  dsimp only
  split <;> rfl

theorem Checks.answerPatiently (hw : Checks s w) (r : Request) :
    Checks s (w.answerPatiently T s r).2 := by
  cases r with
  | borrow =>
    refine steady_checks.borrow_keeps (fun v hv => hv.congr ?_) (fun _ hv => hv)
      (fun _ _ _ hv hb => hv.borrowed hb) hw
    obtain ⟨os, hos⟩ := Pool.openOne_eq s.config v.clock v.pool
    rw [hos]
  | drain ms => exact steady_checks.drain ms hw
  | wait token ms => exact steady_checks.wait token ms hw
  | _ => exact hw.answerNow (T := T) _

theorem Checks.overheard {c : Call} {x : Delivery.Reply × World σ} (hx : Checks s x.2) :
    Checks s (overheard c w x).2 :=
  overheard_keeps (fun _ _ _ hv => hv) hx

/-- **Whatever is asked**, with any number of levels of calls from inside pushes. The induction is
on the levels. -/
theorem checks_answer (depth : Nat) (r : Request) (hw : Checks e.pool w) :
    Checks e.pool (w.answer T e depth r).2 := by
  induction depth generalizing r w with
  | zero => exact hw.answerPatiently r
  | succ depth ih =>
    cases r with
    | push link key payload =>
      have begun : Checks e.pool ({ w.record (.began link key payload) with
          remote := (T.beginPush link key payload w.remote).2 } : World σ) := hw
      exact calls_keep
        (fun c w => World.overheard c w ((c.dialogue e).run (answer T e depth) w))
        (fun c v hv => Checks.overheard ((Dialogue.Only.all _).run (fun r v _ hv => ih r hv) hv))
        (fun _ _ hv => hv) (T.beginPush link key payload w.remote).1 begun
    | _ => exact hw.answerPatiently (T := T) _

/-- **Background checks come only as configured**, at all times of an engine. -/
theorem Since.checks (h : Since T e w w₁) (hw : Checks e.pool w) : Checks e.pool w₁ := by
  have talk (depth : Nat) (c : Call) {v : World σ} (hv : Checks e.pool v) :
      Checks e.pool ((c.dialogue e).run (answer T e depth) v).2 :=
    (Dialogue.Only.all _).run (fun r v _ hv => checks_answer depth r hv) hv
  induction h with
  | now => exact hw
  | store _ remote ih => exact ih
  | pass _ limit ih => exact steady_checks.pass ih
  | call _ depth c ih => exact Checks.overheard (talk depth c ih)
  | inside _ hr ih =>
    exact ((Dialogue.Only.all _).reaches (fun r v _ hv => checks_answer _ r hv) ih hr).2
  | called _ reply ih => exact ih

/-! ## Openings -/

/-- Links are opened before a borrower gives up: those that are being opened, before one who comes
now does, and those to come, before one who comes when that is begun. -/
structure InTime (T : Transport σ) (s : PoolSettings) (w : World σ) : Prop where
  under_way : ∀ o ∈ w.pool.openings, T.due o ≤ w.clock + s.config.waitMs * 1000
  to_come : ∀ begins, T.connectTime begins ≤ s.config.waitMs * 1000

namespace InTime

/-- What is being opened in another state is in time as well. -/
theorem of_pool (hw : InTime T s w) (h : w₁.pool.InTime T s.config w₁.clock) : InTime T s w₁ :=
  ⟨h, hw.to_come⟩

theorem congr (hw : InTime T s w) (ho : w₁.pool.openings = w.pool.openings)
    (hc : w₁.clock = w.clock) : InTime T s w₁ := by
  refine hw.of_pool ?_
  rw [hc]
  exact Pool.InTime.congr hw.under_way ho

theorem settleForsaken (hw : InTime T s w) : InTime T s (w.settleForsaken T) := by
  have hclock : (w.settleForsaken T).clock = w.clock :=
    congrArg Rest.clock (rest_settleForsaken T w)
  refine hw.of_pool ?_
  rw [hclock]
  unfold World.settleForsaken
  split
  · rw [closeAll_pool]
    exact .forsake w.pool
  · exact hw.under_way

theorem giveBack (hw : InTime T s w) (link : LinkId) : InTime T s (w.giveBack T link) :=
  settleForsaken (w := { w with pool := w.pool.putBack link }) (hw.congr rfl rfl)

theorem discard (hw : InTime T s w) (link : LinkId) : InTime T s (w.discard T s link) :=
  settleForsaken
    (w := ({ w with pool := w.pool.drop s.config w.clock link } : World σ).close T link)
    (hw.of_pool (Pool.InTime.drop hw.to_come hw.under_way link))

theorem borrowed {x : Option LinkId} (h : Borrowed T s w x w₁) (hw : InTime T s w) :
    InTime T s w₁ := by
  induction h with
  | none w => exact hw
  | unchecked ht => exact hw.of_pool (Pool.InTime.take hw.to_come hw.under_way ht)
  | @passed w w₁ link pool ht hp =>
    obtain ⟨hpool, -, hrest⟩ := ping_spec hp
    have taken : InTime T s { w with pool } :=
      hw.of_pool (Pool.InTime.take hw.to_come hw.under_way ht)
    exact taken.congr (by rw [hpool]) (congrArg Rest.clock hrest)
  | @failed w w₁ w₂ link pool err x ht hp _ ih =>
    obtain ⟨hpool, -, hrest⟩ := ping_spec hp
    have taken : InTime T s { w with pool } :=
      hw.of_pool (Pool.InTime.take hw.to_come hw.under_way ht)
    have checked : InTime T s { w₁.raise (checkFailed s err) with
        pool := w₁.pool.blame err.message } :=
      taken.congr (show w₁.pool.openings = _ by rw [hpool]) (congrArg Rest.clock hrest)
    exact ih (checked.discard link)

theorem care {r : Request} (hr : r.isCare = true) (hw : InTime T s w) :
    InTime T s (w.answerNow T s r).2 := by
  cases r with
  | tryBorrow => exact hw.borrowed (borrowed_tryBorrow T s w)
  | giveBack link => exact hw.giveBack link
  | discard link => exact hw.discard link
  | ping link => exact hw.congr rfl rfl
  | reset link => exact hw.congr rfl rfl
  | idleCount => exact hw
  | log entry => exact hw.congr rfl rfl
  | _ => exact absurd hr Bool.false_ne_true

end InTime

variable (hT : T.Obliging tame memory reply)
include hT

/-- **As time passes**: links can be opened, so that none has to be tried again. -/
theorem steady_inTime (g : Gist V) :
    Steady T s fun w => Shows tame memory g w ∧ InTime T s w := by
  have shows := steady_shows (s := s) hT g
  refine .of_care (fun w t hw => ⟨shows.clock w t hw.1, ?_⟩)
    (fun w index hw hi => ⟨shows.opening w index hw.1 hi, ?_⟩)
    (fun r w hr hw => ⟨shows_care hT hr hw.1, hw.2.care hr⟩)
    (fun _ _ _ _ hw => ⟨hw.1.congr rfl rfl rfl, hw.2.congr rfl rfl⟩)
    fun _ _ _ _ _ hv => ⟨hv.1.congr rfl rfl rfl, hv.2.congr rfl rfl⟩
  · exact hw.2.of_pool (Pool.InTime.later hw.2.under_way (Nat.le_max_left _ _))
  · have opens := (hT.connect w.pool.opened s.endpoint w.remote hw.1.tame).1
    unfold settleOpening
    dsimp only
    split
    · exact hw.2.of_pool (Pool.InTime.arrive hw.2.under_way index)
    · rename_i hc
      rw [hc] at opens
      cases opens

/-- **Whatever a send asks for.** -/
theorem inTime_answer {r : Request} (hr : r.isSending = true) (hw : Shows tame memory g w)
    (ht : InTime T e.pool w) : InTime T e.pool (w.answer T e depth r).2 := by
  rw [answer_of_shows hT e depth hw]
  have care (hcare : r.isCare = true) : InTime T e.pool (w.answerNow T e.pool r).2 := ht.care hcare
  have steady := steady_inTime (s := e.pool) hT g
  cases r with
  | phase => exact ht
  | poolPhase => exact ht
  | batchName => exact ht
  | borrow =>
    exact (steady.borrow_keeps
      (fun _ hv => ⟨hv.1.congr rfl rfl rfl,
        hv.2.of_pool (Pool.InTime.openOne hv.2.to_come hv.2.under_way)⟩)
      (fun _ hv => ⟨hv.1.congr rfl rfl rfl, hv.2.congr rfl rfl⟩)
      (fun _ _ _ hv hb => ⟨hb.shows hT hv.1, hv.2.borrowed hb⟩) ⟨hw, ht⟩).2
  | wait token ms => exact (steady.wait token ms ⟨hw, ht⟩).2
  | push link key payload => exact ht.congr rfl rfl
  | drain ms => exact absurd hr Bool.false_ne_true
  | _ => exact care hr

end World

end LogShipper
