import LogShipper.Proofs.Cancel.Lineage
import Mathlib.Data.List.Induction

/-!
# Many threads at the same tokens

A `Crowd` is any number of threads that share tokens and keep all their handles. What a thread does
to a token under that token's lock is done in one piece, and anything may come between two such
pieces: a cancellation strikes one token after the other, with other threads making children of
tokens not yet struck, or cancelling part of the same tree; a wait looks at its token, sleeps, and
looks again once it is roused.

Whoever strikes a token rouses those who sleep on it. A sleeper may also be roused by nobody: when
its time is up, or for no reason at all.

Covers `child_token`, `cancel` and `wait_for` as threads run them side by side.

Results:
* `Crowd.advances_cancel`: a cancellation that nobody comes between is `Forest.cancel`.
* `Sound.step`, `Sound.run`: the links, the tokens still to be struck and the sleepers agree, after
  one move and after any number of them.
* `Crowd.waited_run`: why a wait was over.
* `Crowd.no_wakeup_lost`: nobody sleeps through a cancellation, and none of the tokens that derive
  from a cancelled one is left out.
-/

namespace LogShipper.Cancel

/-- A wait on a token, until a time if it is not without limit. -/
structure Wait where
  token : TokenId
  deadline : Option Nat
  deriving DecidableEq

/-- Whether the time of a wait is up. -/
def Wait.isUp (w : Wait) (now : Nat) : Bool := w.deadline.any (· ≤ now)

/-- What a thread is doing. -/
inductive Activity where
  | idle
  /-- In a cancellation, with these tokens still to be struck. -/
  | striking (queue : List TokenId)
  /-- In a wait, about to look at the token. -/
  | looking (wait : Wait)
  /-- In a wait, asleep; one that is roused will look at the token again. -/
  | asleep (wait : Wait) (roused : Bool)
  deriving DecidableEq

namespace Activity

/-- The tokens that a thread is still to strike. -/
def queue : Activity → List TokenId
  | striking queue => queue
  | _ => []

/-- The wait that a thread is in. -/
def wait? : Activity → Option Wait
  | looking w => some w
  | asleep w _ => some w
  | _ => none

/-- Rouses one that sleeps on a token. -/
def hear (t : TokenId) : Activity → Activity
  | asleep w roused => asleep w (roused || w.token == t)
  | a => a

@[simp] theorem queue_hear (t : TokenId) (a : Activity) : (a.hear t).queue = a.queue := by
  cases a <;> rfl

@[simp] theorem wait?_hear (t : TokenId) (a : Activity) : (a.hear t).wait? = a.wait? := by
  cases a <;> rfl

/-- Who still sleeps after a token was struck slept before, and not on it. -/
theorem of_hear_asleep {t : TokenId} {a : Activity} {w : Wait} (h : a.hear t = asleep w false) :
    a = asleep w false ∧ w.token ≠ t := by
  cases a with
  | asleep v roused =>
    simp only [hear, asleep.injEq, Bool.or_eq_false_iff, beq_eq_false_iff_ne] at h
    obtain ⟨rfl, hr, ht⟩ := h
    exact ⟨by rw [hr], ht⟩
  | _ => cases h

end Activity

/-- What a thread can ask for. -/
inductive TokenCall where
  | create
  | derive (parent : TokenId)
  | isCancelled (t : TokenId)
  | cancel (t : TokenId)
  /-- A wait of so long, or without limit. -/
  | wait (t : TokenId) (duration : Option Nat)

/-- The token that a call is about. -/
def TokenCall.token? : TokenCall → Option TokenId
  | create => none
  | derive t => some t
  | isCancelled t => some t
  | cancel t => some t
  | wait t _ => some t

/-- How a call came back. -/
inductive Ending where
  | made (t : TokenId)
  | told (t : TokenId) (cancelled : Bool)
  | waited (wait : Wait) (outcome : WaitOutcome)

/-- Threads that share tokens. -/
structure Crowd where
  forest : Forest := {}
  /-- For each token the one that it derives from. -/
  parents : List (Option TokenId) := []
  threads : List Activity
  clock : Nat := 0
  /-- The tokens that a cancellation was called on. -/
  called : List TokenId := []
  /-- How calls came back, the latest first. -/
  endings : List Ending := []

/-- Something that happens in a crowd. -/
inductive Move where
  /-- A thread that is idle begins a call. -/
  | call (thread : Nat) (call : TokenCall)
  /-- A thread goes on with its call. -/
  | advance (thread : Nat)
  /-- A sleeper is roused by nobody. -/
  | rouse (thread : Nat)
  /-- Time passes. -/
  | pass (time : Nat)

namespace Crowd

/-! ## Moves -/

/-- Threads that have not done anything, and no token. -/
def start (n : Nat) : Crowd := { threads := List.replicate n .idle }

/-- The tokens that some thread is still to strike. -/
def pending (c : Crowd) : List TokenId := c.threads.flatMap (·.queue)

/-- The lineage of the tokens. -/
def lineage (c : Crowd) : Lineage := { handles := { forest := c.forest }, parents := c.parents }

/-- A thread turns to something else. -/
def turn (c : Crowd) (i : Nat) (a : Activity) : Crowd := { c with threads := c.threads.set i a }

/-- A thread begins a call. One that needs no more than one piece is over at once. -/
def begin (c : Crowd) (i : Nat) : TokenCall → Crowd
  | .create =>
    { c with
      forest := c.forest.create.2
      parents := c.parents ++ [none]
      endings := .made c.forest.create.1 :: c.endings }
  | .derive t =>
    { c with
      forest := (c.forest.derive t).2
      parents := c.parents ++ [some t]
      endings := .made (c.forest.derive t).1 :: c.endings }
  | .isCancelled t => { c with endings := .told t (c.forest.isCancelled t) :: c.endings }
  | .cancel t => { c.turn i (.striking [t]) with called := t :: c.called }
  | .wait t duration => c.turn i (.looking ⟨t, duration.map (c.clock + ·)⟩)

/-- Rouses those who sleep on a token, if it was not cancelled before. -/
def notify (c : Crowd) (t : TokenId) : Crowd :=
  { c with threads := if c.forest.isOpen t then c.threads.map (·.hear t) else c.threads }

/-- A thread strikes a token, and is to strike its children next. -/
def strike (c : Crowd) (i : Nat) (t : TokenId) (rest : List TokenId) : Crowd :=
  { (c.turn i (.striking ((c.forest.strike t).2 ++ rest))).notify t with
    forest := (c.forest.strike t).1 }

/-- A thread looks at the token that it waits on. -/
def look (c : Crowd) (i : Nat) (w : Wait) : Crowd :=
  match c.forest.wait? w.token (w.isUp c.clock) with
  | some outcome => { c.turn i .idle with endings := .waited w outcome :: c.endings }
  | none => c.turn i (.asleep w false)

/-- A thread goes on with its call. -/
def advance (c : Crowd) (i : Nat) : Crowd :=
  match c.threads[i]? with
  | some (.striking []) => c.turn i .idle
  | some (.striking (t :: rest)) => c.strike i t rest
  | some (.looking w) => c.look i w
  | some (.asleep w true) => c.turn i (.looking w)
  | _ => c

/-- Whether a call is about a token that there is. -/
def has (c : Crowd) (call : TokenCall) : Bool := call.token?.all (· < c.forest.tokens.length)

/-- What a move does. -/
def step (c : Crowd) : Move → Crowd
  | .call i call => if c.threads[i]? = some .idle ∧ c.has call then c.begin i call else c
  | .advance i => c.advance i
  | .rouse i =>
    match c.threads[i]? with
    | some (.asleep w _) => c.turn i (.asleep w true)
    | _ => c
  | .pass time => { c with clock := c.clock + time }

/-- One move after the other. -/
def run (c : Crowd) (moves : List Move) : Crowd := moves.foldl step c

theorem run_concat (c : Crowd) (moves : List Move) (move : Move) :
    c.run (moves ++ [move]) = (c.run moves).step move := by
  unfold run
  rw [List.foldl_append]
  rfl

/-! ## A cancellation that nobody comes between -/

/-- A thread goes on so many times, with nobody in between. -/
def advances (i : Nat) : Nat → Crowd → Crowd
  | 0, c => c
  | n + 1, c => advances i n (c.advance i)

theorem advance_striking {c : Crowd} {i : Nat} {t : TokenId} {rest : List TokenId}
    (h : c.threads[i]? = some (.striking (t :: rest))) :
    (c.advance i).forest = (c.forest.strike t).1 ∧
      (c.advance i).threads[i]? = some (.striking ((c.forest.strike t).2 ++ rest)) := by
  have turned : (c.turn i (.striking ((c.forest.strike t).2 ++ rest))).threads[i]? =
      some (.striking ((c.forest.strike t).2 ++ rest)) :=
    List.getElem?_set_self (List.getElem?_eq_some_iff.mp h).1
  unfold advance
  rw [h]
  refine ⟨rfl, ?_⟩
  unfold strike notify
  dsimp only
  split
  · exact (List.getElem?_map).trans (congrArg (Option.map _) turned)
  · exact turned

theorem advances_idle {c : Crowd} {i : Nat} (h : c.threads[i]? = some .idle) (n : Nat) :
    advances i n c = c := by
  induction n with
  | zero => rfl
  | succ n ih =>
    have : c.advance i = c := by
      unfold advance
      rw [h]
    rw [advances, this, ih]

/-- The strikes of one thread in a row are a sweep. -/
theorem advances_sweep (i n : Nat) {c : Crowd} {queue : List TokenId}
    (h : c.threads[i]? = some (.striking queue)) :
    (advances i n c).forest = c.forest.sweep n queue := by
  induction n generalizing c queue with
  | zero => rfl
  | succ n ih =>
    cases queue with
    | nil =>
      have back : (c.advance i).threads[i]? = some .idle := by
        unfold advance
        rw [h]
        exact List.getElem?_set_self (List.getElem?_eq_some_iff.mp h).1
      have same : (c.advance i).forest = c.forest := by
        unfold advance
        rw [h]
        rfl
      rw [advances, advances_idle back, same]
      rfl
    | cons t rest =>
      obtain ⟨hforest, hthread⟩ := advance_striking h
      rw [advances, ih hthread, hforest, sweep_cons]

/-- **A cancellation that nobody comes between** does what `Forest.cancel` does. -/
theorem advances_cancel {c : Crowd} {i : Nat} {t : TokenId}
    (h : c.threads[i]? = some (.striking [t])) :
    (advances i (c.forest.links + 1) c).forest = c.forest.cancel t :=
  advances_sweep i _ h

/-! ## Threads and what they are still to strike -/

variable {c : Crowd} {i : Nat} {a b : Activity} {t u : TokenId}

theorem mem_pending : u ∈ c.pending ↔ ∃ a ∈ c.threads, u ∈ a.queue := List.mem_flatMap

/-- What is still to be struck, by one thread or by another. -/
theorem pending_turn (ha : c.threads[i]? = some a) (hu : u ∈ c.pending) :
    u ∈ a.queue ∨ u ∈ (c.turn i b).pending := by
  obtain ⟨other, hmem, hu⟩ := mem_pending.mp hu
  obtain ⟨j, hj⟩ := List.mem_iff_getElem?.mp hmem
  by_cases hij : i = j
  · subst hij
    obtain rfl := Option.some.inj (ha.symm.trans hj)
    exact .inl hu
  · refine .inr (mem_pending.mpr ⟨other, List.mem_iff_getElem?.mpr ⟨j, ?_⟩, hu⟩)
    exact (List.getElem?_set_ne hij).trans hj

theorem mem_turn (ha : c.threads[i]? = some a) : b ∈ (c.turn i b).threads :=
  List.mem_iff_getElem?.mpr ⟨i, List.getElem?_set_self (List.getElem?_eq_some_iff.mp ha).1⟩

/-! ## What holds after every move -/

/-- The links, the tokens still to be struck and the sleepers agree. -/
structure Sound (c : Crowd) : Prop where
  kin : Kin c.forest c.parents c.pending
  alive : ∀ t < c.forest.tokens.length, c.forest.isAlive t = true
  waits : ∀ a ∈ c.threads, ∀ w ∈ a.wait?, w.token < c.forest.tokens.length
  /-- Nobody sleeps on a cancelled token without having been roused. -/
  heard : ∀ w, .asleep w false ∈ c.threads → c.forest.isCancelled w.token = false
  called : ∀ t ∈ c.called, t < c.forest.tokens.length ∧
    (c.forest.isCancelled t = true ∨ t ∈ c.pending)

theorem sound_start (n : Nat) : (start n).Sound where
  kin := by
    refine ⟨rfl, fun {c p} hc => ?_, fun {p c} hc => ?_, fun _ => rfl, fun _ => rfl,
      fun {p c} hc => ?_⟩
    · exact absurd hc (by simp [start])
    · exact absurd hc List.not_mem_nil
    · exact absurd hc (by simp [start])
  alive _ h := absurd h (Nat.not_lt_zero _)
  waits a ha w hw := by
    obtain rfl := List.eq_of_mem_replicate ha
    cases hw
  heard w hw := nomatch List.eq_of_mem_replicate hw
  called _ h := absurd h List.not_mem_nil

/-- A thread turns to something else, and drops none of the tokens that it is still to strike. -/
theorem Sound.turn (hs : c.Sound) (ha : c.threads[i]? = some a)
    (hqueue : ∀ u ∈ a.queue, u ∈ b.queue)
    (hwait : ∀ w ∈ b.wait?, w.token < c.forest.tokens.length)
    (hheard : ∀ w, b = .asleep w false → c.forest.isCancelled w.token = false) :
    (c.turn i b).Sound := by
  have keep : ∀ u ∈ c.pending, u ∈ (c.turn i b).pending := by
    intro u hu
    rcases pending_turn (b := b) ha hu with hu | hu
    · exact mem_pending.mpr ⟨b, mem_turn ha, hqueue u hu⟩
    · exact hu
  refine ⟨hs.kin.widen keep, hs.alive, fun other ho w hw => ?_, fun w hw => ?_,
    fun t ht => (hs.called t ht).imp_right (·.imp_right (keep t))⟩
  · rcases List.mem_or_eq_of_mem_set ho with ho | rfl
    · exact hs.waits other ho w hw
    · exact hwait w hw
  · rcases List.mem_or_eq_of_mem_set hw with hw | hw
    · exact hs.heard w hw
    · exact hheard w hw.symm

/-- A new token, which nobody waits on yet. -/
theorem Sound.grow (hs : c.Sound) {f : Forest} {parents : List (Option TokenId)}
    (hkin : Kin f parents c.pending)
    (halive : ∀ u : Nat, f.isAlive u = if u = c.forest.tokens.length then true
      else c.forest.isAlive u)
    (hcancelled : ∀ u : Nat, u ≠ c.forest.tokens.length →
      f.isCancelled u = c.forest.isCancelled u)
    (hlength : f.tokens.length = c.forest.tokens.length + 1) (endings : List Ending) :
    ({ c with forest := f, parents, endings } : Crowd).Sound := by
  refine ⟨hkin, fun t (ht : t < f.tokens.length) => ?_, fun a ha w hw => ?_, fun w hw => ?_,
    fun t ht => ?_⟩
  · rw [halive]
    split
    · rfl
    · exact hs.alive t (by omega)
  · show w.token < f.tokens.length
    rw [hlength]
    exact Nat.lt_succ_of_lt (hs.waits a ha w hw)
  · show f.isCancelled w.token = false
    rw [hcancelled w.token (Nat.ne_of_lt (hs.waits _ hw w rfl))]
    exact hs.heard w hw
  · obtain ⟨hlt, hor⟩ := hs.called t ht
    show t < f.tokens.length ∧ (f.isCancelled t = true ∨ t ∈ c.pending)
    rw [hlength, hcancelled t (Nat.ne_of_lt hlt)]
    exact ⟨Nat.lt_succ_of_lt hlt, hor⟩

/-! ## Striking -/

theorem pending_notify (c : Crowd) (t : TokenId) : (c.notify t).pending = c.pending := by
  unfold pending notify
  dsimp only
  split
  · simp [List.flatMap_map]
  · rfl

/-- Rousing sleepers changes no wait. -/
theorem wait_of_mem_notify (ha : a ∈ (c.notify t).threads) :
    ∃ b ∈ c.threads, b.wait? = a.wait? := by
  unfold notify at ha
  dsimp only at ha
  split at ha
  · obtain ⟨b, hb, rfl⟩ := List.mem_map.mp ha
    exact ⟨b, hb, (b.wait?_hear t).symm⟩
  · exact ⟨a, ha, rfl⟩

theorem of_asleep_notify {w : Wait} (hw : .asleep w false ∈ (c.notify t).threads) :
    .asleep w false ∈ c.threads ∧ (c.forest.isOpen t = true → w.token ≠ t) := by
  unfold notify at hw
  dsimp only at hw
  split at hw
  · obtain ⟨b, hb, heard⟩ := List.mem_map.mp hw
    obtain ⟨rfl, hne⟩ := Activity.of_hear_asleep heard
    exact ⟨hb, fun _ => hne⟩
  · rename_i hclosed
    exact ⟨hw, fun hopen => absurd hopen hclosed⟩

/-- What is to be struck once a thread has struck a token: its children besides. -/
theorem Sound.kin_strike (hs : c.Sound) {rest : List TokenId}
    (ha : c.threads[i]? = some (.striking (t :: rest))) :
    Kin (c.forest.strike t).1 c.parents
      (c.turn i (.striking ((c.forest.strike t).2 ++ rest))).pending := by
  have before : Kin c.forest c.parents (t :: (c.turn i (.striking rest)).pending) := by
    refine hs.kin.widen fun u hu => ?_
    rcases pending_turn (b := .striking rest) ha hu with hu | hu
    · rcases List.mem_cons.mp hu with rfl | hu
      · exact List.mem_cons_self
      · exact List.mem_cons_of_mem _ (mem_pending.mpr ⟨_, mem_turn ha, hu⟩)
    · exact List.mem_cons_of_mem _ hu
  refine before.strike.widen fun u hu => ?_
  have queued {u : TokenId} (hu : u ∈ (c.forest.strike t).2 ++ rest) :
      u ∈ (c.turn i (.striking ((c.forest.strike t).2 ++ rest))).pending :=
    mem_pending.mpr ⟨_, mem_turn ha, hu⟩
  rcases List.mem_append.mp hu with hu | hu
  · exact queued (List.mem_append_left _ hu)
  · have turned : (c.turn i (.striking rest)).threads[i]? = some (.striking rest) :=
      List.getElem?_set_self (List.getElem?_eq_some_iff.mp ha).1
    rcases pending_turn (b := .striking ((c.forest.strike t).2 ++ rest)) turned hu with hu | hu
    · exact queued (List.mem_append_right _ hu)
    · unfold Crowd.turn at hu ⊢
      rwa [List.set_set] at hu

/-- **A strike**: the children of the token are to be struck next, and those who sleep on it are
roused. -/
theorem Sound.strike (hs : c.Sound) {rest : List TokenId}
    (ha : c.threads[i]? = some (.striking (t :: rest))) : (c.strike i t rest).Sound where
  kin := by
    show Kin _ _ (Crowd.notify _ t).pending
    rw [pending_notify]
    exact hs.kin_strike ha
  alive u hu := by
    show (c.forest.strike t).1.isAlive u = true
    rw [Forest.isAlive_strike]
    exact hs.alive u ((Forest.length_strike c.forest t).symm ▸ hu)
  waits other ho w hw := by
    obtain ⟨b, hb, hbw⟩ := wait_of_mem_notify ho
    show w.token < (c.forest.strike t).1.tokens.length
    rw [Forest.length_strike]
    rcases List.mem_or_eq_of_mem_set hb with hb | rfl
    · exact hs.waits b hb w (hbw ▸ hw)
    · exact absurd (hbw ▸ hw) (by simp [Activity.wait?])
  heard w hw := by
    obtain ⟨hmem, hne⟩ := of_asleep_notify hw
    rcases List.mem_or_eq_of_mem_set hmem with hmem | hmem
    · have hnot := hs.heard w hmem
      rw [Bool.eq_false_iff]
      intro hc
      rcases (Forest.isCancelled_strike_iff c.forest t w.token).mp hc with hc | ⟨rfl, halive⟩
      · exact absurd (hnot.symm.trans hc) Bool.false_ne_true
      · refine hne ?_ rfl
        show c.forest.isOpen w.token = true
        rw [Forest.isOpen, halive, hnot]
        rfl
    · cases hmem
  called u hu := by
    obtain ⟨hlt, hor⟩ := hs.called u hu
    refine ⟨(Forest.length_strike c.forest t).symm ▸ hlt, ?_⟩
    show (c.forest.strike t).1.isCancelled u = true ∨ u ∈ (Crowd.notify _ t).pending
    rw [Forest.isCancelled_strike_iff, pending_notify]
    rcases hor with hc | hq
    · exact .inl (.inl hc)
    · rcases pending_turn (b := .striking ((c.forest.strike t).2 ++ rest)) ha hq with hq | hq
      · rcases List.mem_cons.mp hq with rfl | hq
        · exact .inl (.inr ⟨rfl, hs.alive u hlt⟩)
        · exact .inr (mem_pending.mpr ⟨_, mem_turn ha, List.mem_append_right _ hq⟩)
      · exact .inr hq

/-! ## Moves -/

/-- A thread begins a call. -/
theorem Sound.begin (hs : c.Sound) (hi : c.threads[i]? = some .idle) {call : TokenCall}
    (hcall : c.has call = true) : (c.begin i call).Sound := by
  have there {t : TokenId} (ht : call.token? = some t) : t < c.forest.tokens.length := by
    unfold has at hcall
    rw [ht] at hcall
    exact of_decide_eq_true hcall
  cases call with
  | create =>
    refine hs.grow hs.kin.create (fun u => ?_) (fun u hu => ?_) ?_ _
    · exact Forest.isAlive_add c.forest {} u
    · exact (Forest.isCancelled_add c.forest {} u).trans (if_neg hu)
    · exact Forest.length_add c.forest {}
  | derive t =>
    refine hs.grow (hs.kin.derive (hs.alive t (there rfl))) (fun u => ?_) (fun u hu => ?_) ?_ _
    · exact Forest.isAlive_derive c.forest t u
    · exact (Forest.isCancelled_derive c.forest t u).trans (if_neg hu)
    · exact Forest.length_derive c.forest t
  | isCancelled t => exact ⟨hs.kin, hs.alive, hs.waits, hs.heard, hs.called⟩
  | cancel t =>
    have turned : (c.turn i (.striking [t])).Sound :=
      hs.turn hi (fun u hu => absurd hu List.not_mem_nil) (fun w hw => nomatch hw)
        (fun w hw => nomatch hw)
    refine ⟨turned.kin, turned.alive, turned.waits, turned.heard, fun u hu => ?_⟩
    rcases List.mem_cons.mp hu with rfl | hu
    · exact ⟨there rfl, .inr (mem_pending.mpr ⟨_, mem_turn hi, List.mem_singleton_self u⟩)⟩
    · exact turned.called u hu
  | wait t duration =>
    refine hs.turn hi (fun u hu => absurd hu List.not_mem_nil) (fun w hw => ?_)
      (fun w hw => nomatch hw)
    obtain rfl := Option.some.inj hw
    exact there rfl

/-- A thread looks at the token that it waits on; it goes to sleep only if that is not
cancelled. -/
theorem Sound.look (hs : c.Sound) {w : Wait} (ha : c.threads[i]? = some (.looking w)) :
    (c.look i w).Sound := by
  unfold Crowd.look
  split
  · have turned : (c.turn i .idle).Sound :=
      hs.turn ha (fun u hu => absurd hu List.not_mem_nil) (fun w hw => nomatch hw)
        (fun w hw => nomatch hw)
    exact ⟨turned.kin, turned.alive, turned.waits, turned.heard, turned.called⟩
  · rename_i hwait
    refine hs.turn ha (fun u hu => absurd hu List.not_mem_nil) (fun v hv => ?_) (fun v hv => ?_)
    · obtain rfl := Option.some.inj hv
      exact hs.waits _ (List.mem_of_getElem? ha) w rfl
    · obtain ⟨rfl, -⟩ := Activity.asleep.inj hv
      unfold Forest.wait? at hwait
      split at hwait
      · cases hwait
      · rename_i hnot
        exact Bool.eq_false_iff.mpr hnot

/-- A thread goes on with its call. -/
theorem Sound.advance (hs : c.Sound) (i : Nat) : (c.advance i).Sound := by
  unfold Crowd.advance
  split
  · rename_i ha
    exact hs.turn ha (fun u hu => absurd hu List.not_mem_nil) (fun w hw => nomatch hw)
      (fun w hw => nomatch hw)
  · rename_i ha
    exact hs.strike ha
  · rename_i ha
    exact hs.look ha
  · rename_i w ha
    refine hs.turn ha (fun u hu => absurd hu List.not_mem_nil) (fun v hv => ?_)
      (fun w hw => nomatch hw)
    obtain rfl := Option.some.inj hv
    exact hs.waits _ (List.mem_of_getElem? ha) w rfl
  · exact hs

/-- **One move.** -/
theorem Sound.step (hs : c.Sound) (move : Move) : (c.step move).Sound := by
  cases move with
  | call i call =>
    simp only [Crowd.step]
    split
    · rename_i h
      exact hs.begin h.1 h.2
    · exact hs
  | advance i => exact hs.advance i
  | rouse i =>
    simp only [Crowd.step]
    split
    · rename_i w roused ha
      refine hs.turn ha (fun u hu => absurd hu List.not_mem_nil) (fun v hv => ?_)
        (fun v hv => nomatch hv)
      obtain rfl := Option.some.inj hv
      exact hs.waits _ (List.mem_of_getElem? ha) w rfl
    · exact hs
  | pass time => exact ⟨hs.kin, hs.alive, hs.waits, hs.heard, hs.called⟩

/-- **Any number of moves.** -/
theorem Sound.run (hs : c.Sound) (moves : List Move) : (c.run moves).Sound := by
  induction moves generalizing c with
  | nil => exact hs
  | cons move moves ih => exact ih (hs.step move)

/-! ## Why a wait was over -/

/-- Why a wait can be over with such an outcome at a moment. -/
def Explains (c : Crowd) (w : Wait) : WaitOutcome → Prop
  | .cancelled => c.forest.isCancelled w.token = true
  | .elapsed => c.forest.isCancelled w.token = false ∧ ∃ d, w.deadline = some d ∧ d ≤ c.clock

theorem explains_of_wait? {w : Wait} {outcome : WaitOutcome}
    (h : c.forest.wait? w.token (w.isUp c.clock) = some outcome) : c.Explains w outcome := by
  unfold Forest.wait? at h
  split at h
  · rename_i hc
    obtain rfl := Option.some.inj h
    exact hc
  · rename_i hnot
    split at h
    · rename_i hup
      obtain rfl := Option.some.inj h
      refine ⟨Bool.eq_false_iff.mpr hnot, ?_⟩
      unfold Wait.isUp at hup
      cases hd : w.deadline with
      | none => rw [hd] at hup; exact absurd hup Bool.false_ne_true
      | some d => rw [hd] at hup; exact ⟨d, rfl, of_decide_eq_true hup⟩
    · cases h

/-- A wait is over when its thread looks at the token, and not otherwise. -/
theorem waited_step {w : Wait} {outcome : WaitOutcome} {move : Move}
    (h : .waited w outcome ∈ (c.step move).endings) :
    .waited w outcome ∈ c.endings ∨
      ∃ i, move = .advance i ∧ c.threads[i]? = some (.looking w) ∧ c.Explains w outcome := by
  cases move with
  | call i call =>
    simp only [Crowd.step] at h
    split at h
    · cases call with
      | create => exact .inl ((List.mem_cons.mp h).resolve_left nofun)
      | derive t => exact .inl ((List.mem_cons.mp h).resolve_left nofun)
      | isCancelled t => exact .inl ((List.mem_cons.mp h).resolve_left nofun)
      | _ => exact .inl h
    · exact .inl h
  | advance i =>
    simp only [Crowd.step, Crowd.advance] at h
    split at h
    · exact .inl h
    · exact .inl h
    · rename_i v ha
      unfold Crowd.look at h
      split at h
      · rename_i hover
        rcases List.mem_cons.mp h with heq | h
        · obtain ⟨rfl, rfl⟩ := Ending.waited.inj heq
          exact .inr ⟨i, rfl, ha, explains_of_wait? hover⟩
        · exact .inl h
      · exact .inl h
    · exact .inl h
    · exact .inl h
  | rouse i =>
    simp only [Crowd.step] at h
    split at h <;> exact .inl h
  | pass time => exact .inl h

/-- **Why a wait was over**: at some moment its thread looked at the token, which was cancelled, or
was not when the time was up. The induction is on the moves, the last one first. -/
theorem waited_run (n : Nat) (moves : List Move) {w : Wait} {outcome : WaitOutcome}
    (h : .waited w outcome ∈ ((start n).run moves).endings) :
    ∃ before after i, moves = before ++ .advance i :: after ∧
      ((start n).run before).threads[i]? = some (.looking w) ∧
        ((start n).run before).Explains w outcome := by
  induction moves using List.reverseRecOn with
  | nil => exact absurd h List.not_mem_nil
  | append_singleton moves move ih =>
    rw [run_concat] at h
    rcases waited_step h with h | ⟨i, rfl, hi, he⟩
    · obtain ⟨before, after, i, rfl, hi, he⟩ := ih h
      exact ⟨before, after ++ [move], i, by simp, hi, he⟩
    · exact ⟨moves, [], i, rfl, hi, he⟩

/-! ## Sleepers and descendants -/

theorem look_of_isCancelled {w : Wait} (hc : c.forest.isCancelled w.token = true) :
    c.look i w = { c.turn i .idle with endings := .waited w .cancelled :: c.endings } := by
  have ended : c.forest.wait? w.token (w.isUp c.clock) = some .cancelled := if_pos hc
  unfold look
  rw [ended]

/-- A sleeper that is roused on a cancelled token comes back as soon as it goes on. -/
theorem advance_roused {w : Wait} (ha : c.threads[i]? = some (.asleep w true))
    (hc : c.forest.isCancelled w.token = true) :
    ((c.advance i).advance i).endings = .waited w .cancelled :: c.endings := by
  have first : c.advance i = c.turn i (.looking w) := by
    unfold advance
    rw [ha]
  have turned : (c.turn i (.looking w)).threads[i]? = some (.looking w) :=
    List.getElem?_set_self (List.getElem?_eq_some_iff.mp ha).1
  have second : (c.turn i (.looking w)).advance i = (c.turn i (.looking w)).look i w := by
    unfold advance
    rw [turned]
  have ended := look_of_isCancelled (c := c.turn i (.looking w)) (i := i) hc
  rw [first, second, ended]
  rfl

/-- While no thread has a token to strike, the children of a cancelled token are cancelled. -/
theorem Sound.isCancelled_of_derived (hs : c.Sound) (hpending : c.pending = [])
    (ht : c.forest.isCancelled t = true) (hd : c.lineage.Derived t u) :
    c.forest.isCancelled u = true := by
  have pass {p v : Nat} (hpv : c.parents[v]? = some (some p))
      (hp : c.forest.isCancelled p = true) : c.forest.isCancelled v = true := by
    have hlt := hs.kin.lt_length hpv
    have hparent := hs.alive p (Nat.lt_trans (hs.kin.older hpv) hlt)
    rcases hs.kin.reached hpv hparent (hs.alive v hlt) with hl | hl | hl
    · rw [hs.kin.spent hp] at hl
      exact absurd hl List.not_mem_nil
    · exact hl
    · rw [hpending] at hl
      exact absurd hl List.not_mem_nil
  induction hd with
  | child h => exact pass h ht
  | step _ h ih => exact pass h ih

theorem pending_eq_nil (h : ∀ queue, .striking queue ∉ c.threads) : c.pending = [] := by
  refine List.flatMap_eq_nil_iff.mpr fun a ha => ?_
  cases a with
  | striking queue => exact absurd ha (h queue)
  | _ => rfl

/-! ## No wakeup is lost -/

/-- What threads can rely on, after so many moves. -/
structure Wakeful (n : Nat) (moves : List Move) : Prop where
  /-- Nobody sleeps on a cancelled token without having been roused. -/
  roused : ∀ w, .asleep w false ∈ ((start n).run moves).threads →
    ((start n).run moves).forest.isCancelled w.token = false
  /-- So whoever sleeps on a cancelled token comes back as soon as it goes on. -/
  returns : ∀ i w roused, ((start n).run moves).threads[i]? = some (.asleep w roused) →
    ((start n).run moves).forest.isCancelled w.token = true →
      ((start n).run (moves ++ [.advance i, .advance i])).endings =
        .waited w .cancelled :: ((start n).run moves).endings
  /-- A wait is over because its token is cancelled, or because its time is up and the token is
  not cancelled. -/
  explained : ∀ w outcome, .waited w outcome ∈ ((start n).run moves).endings →
    ∃ before after i, moves = before ++ .advance i :: after ∧
      ((start n).run before).threads[i]? = some (.looking w) ∧
        ((start n).run before).Explains w outcome
  /-- Once every cancellation has come back, all that derives from a token that one was called on is
  cancelled, whenever it was made. -/
  spread : (∀ queue, .striking queue ∉ ((start n).run moves).threads) →
    ∀ t ∈ ((start n).run moves).called, ∀ u, u = t ∨ ((start n).run moves).lineage.Derived t u →
      ((start n).run moves).forest.isCancelled u = true

/-- **No wakeup is lost**, whatever any number of threads do in whatever order. -/
theorem no_wakeup_lost (n : Nat) (moves : List Move) : Wakeful n moves := by
  have hs : ((start n).run moves).Sound := (sound_start n).run moves
  refine ⟨hs.heard, fun i w roused ha hc => ?_, fun w outcome => waited_run n moves,
    fun hback t ht u hu => ?_⟩
  · have awake : roused = true := by
      cases roused with
      | true => rfl
      | false =>
        exact absurd ((hs.heard w (List.mem_of_getElem? ha)).symm.trans hc) Bool.false_ne_true
    subst awake
    have twice : (start n).run (moves ++ [.advance i, .advance i]) =
        (((start n).run moves).advance i).advance i := List.foldl_append
    rw [twice]
    exact advance_roused ha hc
  · have hpending := pending_eq_nil hback
    have hct : ((start n).run moves).forest.isCancelled t = true := by
      rcases (hs.called t ht).2 with hc | hq
      · exact hc
      · rw [hpending] at hq
        exact absurd hq List.not_mem_nil
    rcases hu with rfl | hd
    · exact hct
    · exact hs.isCancelled_of_derived hpending hct hd

/-- A child that is made while a cancellation is on its way to the parent, and a thread that sleeps
on it: both hear of the cancellation. -/
example : ((start 2).run [.call 0 .create, .call 0 (.derive 0), .call 0 (.cancel 0), .advance 0,
    .call 1 (.derive 1), .call 1 (.wait 2 none), .advance 1, .advance 0, .advance 0]).threads =
      [.striking [], .asleep ⟨2, none⟩ true] := by
  decide

end Crowd

end LogShipper.Cancel
