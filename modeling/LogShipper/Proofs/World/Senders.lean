import LogShipper.Proofs.Pool.Traffic
import LogShipper.Proofs.Store.Lists

/-!
# Senders side by side

Many senders share one engine (`Senders`). Each makes its calls one after the other, and whoever's
turn it is has the next request of its call answered, so the requests of calls made at the same time
come in some order. A push is begun in one turn and answered in another; a sender that gets no link
may wait for one, and has another turn then. Meanwhile links are opened, time passes, and tokens are
made and cancelled. The checks of idle links in the background are calls of a sender too.

The `history` says who had which request answered. What a sender holds is read off it: the links
that it has borrowed and not given back (`holdings`).

Results:
* `goes_step`: all that a step can do (`Goes`), from which everything that steps keep is derived.
* `Goes.own`, `Goes.lists`: what a step does to the history and to the lists of a store.
* `turns_alone`: a sender with nobody in between makes its calls as dialogues are run.
-/

namespace LogShipper

open Delivery (Request Exchange Dialogue Engine Reply Duty PoolSettings taken)

/-! ## Who holds which links -/

namespace Delivery

/-- The links that somebody holds after some exchanges: those that were borrowed in them and not
given back. -/
def holdings (t : List Exchange) : List LinkId :=
  t.foldl (fun held x => x.request.holding held x.answer) []

theorem holdings_concat (t : List Exchange) (r : Request) (x : r.Answer) :
    holdings (t ++ [⟨r, x⟩]) = r.holding (holdings t) x := by
  simp [holdings]

end Delivery

open Delivery (holdings holdings_concat)

/-! ## Senders -/

/-- A call that somebody is in the middle of. -/
structure Ongoing where
  duty : Duty
  /-- What is left of its talk. -/
  talk : Dialogue Reply
  exchanges : List Exchange := []
  /-- Whether the push that comes next has begun. -/
  pushing : Bool := false

/-- The call is in the middle of a push over a link, or comes to it next. -/
def Ongoing.PushesOver (c : Ongoing) (link : LinkId) : Prop :=
  ∃ key payload next, c.talk = .ask (.push link key payload) next

/-- A call that has come back. -/
structure Completed where
  duty : Duty
  exchanges : List Exchange
  reply : Reply

/-- Somebody who makes calls, one after the other. -/
structure Sender where
  past : List Completed := []
  doing : Option Ongoing := none

namespace Sender

/-- All exchanges of the sender's calls. -/
def exchanges (s : Sender) : List Exchange :=
  s.past.flatMap Completed.exchanges ++ s.doing.elim [] Ongoing.exchanges

/-- The payloads of the sender's calls, in the order in which they were to be sent. -/
def payloads (s : Sender) : List Bytes :=
  s.past.flatMap (fun c => c.duty.payloads) ++ s.doing.elim [] fun c => c.duty.payloads

/-- The links that the sender holds. -/
def held (s : Sender) : List LinkId := holdings s.exchanges

end Sender

/-- Senders and the world that they share. -/
structure Senders (σ : Type) where
  world : World σ
  senders : List Sender
  /-- What was answered, and who had asked. -/
  history : List (Nat × Exchange) := []

/-- A borrower waits on, and a link is opened for it. -/
def World.await {σ : Type} (T : Transport σ) (s : PoolSettings) (w : World σ) : World σ :=
  let w := (w.tryBorrow T s).2
  { w with pool := w.pool.openOne s.config w.clock }

namespace Senders

variable {σ : Type}

/-- What one sender had answered. -/
def theirs (i : Nat) (history : List (Nat × Exchange)) : List Exchange :=
  (history.filter fun x => x.1 == i).map Prod.snd

/-- The links that senders hold. -/
def held (k : Senders σ) : List LinkId := k.senders.flatMap Sender.held

/-- Senders that have made no calls yet. -/
def start (n : Nat) (w : World σ) : Senders σ where
  world := w
  senders := List.replicate n {}

/-- Puts a sender in its place. -/
def put (k : Senders σ) (i : Nat) (s : Sender) : Senders σ :=
  { k with senders := k.senders.set i s }

/-- What can happen among senders, who are known by numbers. -/
inductive Event where
  /-- A sender who is in the middle of no call begins one. -/
  | call (sender : Nat) (duty : Duty)
  /-- It is a sender's turn. A borrower that is patient waits on if it gets no link. -/
  | turn (sender : Nat) (patient : Bool)
  /-- An opening succeeds or fails. -/
  | opening (index : Nat)
  /-- Time passes, and tokens are made and cancelled. -/
  | meanwhile (clock : Nat) (handles : Cancel.Handles)

variable (T : Transport σ) (e : Engine)

/-- It is a sender's turn: a push begins, the next request is answered, or the call comes back. -/
def turn (i : Nat) (patient : Bool) (k : Senders σ) : Senders σ :=
  match k.senders[i]? with
  | some ⟨past, some c⟩ =>
    match c.talk with
    | .done reply => k.put i ⟨past ++ [⟨c.duty, c.exchanges, reply⟩], none⟩
    | .ask r next =>
      if !r.isMute && !c.pushing then
        { k.put i ⟨past, some { c with pushing := true }⟩ with world := k.world.beginning T r }
      else
        let (x, world) := k.world.answerBegun T e.pool r
        if patient && Traffic.isRefused r x then { k with world := k.world.await T e.pool }
        else
          { k.put i ⟨past, some ⟨c.duty, next x, c.exchanges ++ [⟨r, x⟩], false⟩⟩ with
            world, history := k.history ++ [(i, ⟨r, x⟩)] }
  | _ => k

/-- What an event does. -/
def step (k : Senders σ) : Event → Senders σ
  | .call i duty =>
    match k.senders[i]? with
    | some ⟨past, none⟩ => k.put i ⟨past, some { duty, talk := duty.dialogue e }⟩
    | _ => k
  | .turn i patient => k.turn T e i patient
  | .opening index =>
    if index < k.world.pool.openings.length then
      { k with world := k.world.settleOpening T e.pool index }
    else k
  | .meanwhile clock handles =>
    { k with world := { k.world with clock := max k.world.clock clock, handles } }

/-- One event after the other. -/
def run (k : Senders σ) (events : List Event) : Senders σ := events.foldl (step T e) k

/-- All that a step can do. -/
inductive Goes (k : Senders σ) : Senders σ → Prop where
  | stay : Goes k k
  | call {i : Nat} {past : List Completed} (hs : k.senders[i]? = some ⟨past, none⟩) (duty : Duty) :
      Goes k (k.put i ⟨past, some { duty, talk := duty.dialogue e }⟩)
  | reply {i : Nat} {past : List Completed} {c : Ongoing} {reply : Reply}
      (hs : k.senders[i]? = some ⟨past, some c⟩) (hc : c.talk = .done reply) :
      Goes k (k.put i ⟨past ++ [⟨c.duty, c.exchanges, reply⟩], none⟩)
  | begin {i : Nat} {past : List Completed} {c : Ongoing} (r : Request)
      (hs : k.senders[i]? = some ⟨past, some c⟩) :
      Goes k { k.put i ⟨past, some { c with pushing := true }⟩ with
        world := k.world.beginning T r }
  | answer {i : Nat} {past : List Completed} {c : Ongoing} {r : Request}
      {next : r.Answer → Dialogue Reply} {x : r.Answer} {world : World σ}
      (hs : k.senders[i]? = some ⟨past, some c⟩) (hc : c.talk = .ask r next)
      (hx : k.world.answerBegun T e.pool r = (x, world)) :
      Goes k { k.put i ⟨past, some ⟨c.duty, next x, c.exchanges ++ [⟨r, x⟩], false⟩⟩ with
        world, history := k.history ++ [(i, ⟨r, x⟩)] }
  | await (h : (k.world.tryBorrow T e.pool).1 = none) :
      Goes k { k with world := k.world.await T e.pool }
  | opening {index : Nat} (hi : index < k.world.pool.openings.length) :
      Goes k { k with world := k.world.settleOpening T e.pool index }
  | meanwhile (clock : Nat) (handles : Cancel.Handles) :
      Goes k { k with world := { k.world with clock, handles } }

/-- A borrower that is refused found no idle link. -/
theorem tryBorrow_of_isRefused {w w₁ : World σ} {s : PoolSettings} {r : Request} {x : r.Answer}
    (hx : w.answerBegun T s r = (x, w₁)) (h : Traffic.isRefused r x = true) :
    (w.tryBorrow T s).1 = none := by
  cases r with
  | borrow =>
    have hx : w.answerNow T s .borrow = (x, w₁) := hx
    unfold World.answerNow at hx
    dsimp only at hx
    split at hx
    · obtain ⟨rfl, -⟩ := Prod.mk.inj hx
      exact absurd h Bool.false_ne_true
    · rename_i w₂ hnone
      rw [hnone]
  | _ => exact absurd h Bool.false_ne_true

theorem goes_step (k : Senders σ) (event : Event) : Goes T e k (k.step T e event) := by
  cases event with
  | call i duty =>
    unfold step
    dsimp only
    split
    · exact .call ‹_› duty
    · exact .stay
  | turn i patient =>
    unfold step turn
    dsimp only
    split
    · rename_i past c hs
      split
      · exact .reply hs ‹_›
      · rename_i r next hc
        split
        · exact .begin r hs
        · split
          · rename_i hwait
            exact .await (tryBorrow_of_isRefused T rfl (Bool.and_eq_true_iff.mp hwait).2)
          · exact .answer hs hc rfl
    · exact .stay
  | opening index =>
    unfold step
    dsimp only
    split
    · exact .opening ‹_›
    · exact .stay
  | meanwhile clock handles => exact .meanwhile _ handles

/-! ## Whose history it is -/

section History

variable {T e} {k k' : Senders σ} {i : Nat} {s₀ : Sender}

theorem theirs_append (i : Nat) (h h' : List (Nat × Exchange)) :
    theirs i (h ++ h') = theirs i h ++ theirs i h' := by
  rw [theirs, List.filter_append, List.map_append]
  rfl

theorem getElem?_put (hs : k.senders[i]? = some s₀) (s : Sender) (j : Nat) :
    (k.put i s).senders[j]? = if j = i then some s else k.senders[j]? := by
  have hlt := (List.getElem?_eq_some_iff.mp hs).1
  unfold put
  dsimp only
  rw [List.getElem?_set]
  by_cases hj : i = j
  · subst hj
    rw [if_pos rfl, if_pos rfl, if_pos hlt]
  · rw [if_neg hj, if_neg (Ne.symm hj)]

/-- What every sender has is kept where the one that is put in a place has it. -/
theorem forall_put {P : Sender → Prop} (hall : ∀ s ∈ k.senders, P s) {s : Sender} (hs : P s) :
    ∀ s' ∈ (k.put i s).senders, P s' := by
  intro s' hs'
  rcases List.mem_or_eq_of_mem_set hs' with hmem | rfl
  · exact hall s' hmem
  · exact hs

/-- The history of each sender is that of its calls. -/
def Own (k : Senders σ) : Prop :=
  ∀ i, theirs i k.history = k.senders[i]?.elim [] Sender.exchanges

theorem own_put (hk : k.Own) (hs : k.senders[i]? = some s₀) {s : Sender} {h : List Exchange}
    (hexchanges : s.exchanges = s₀.exchanges ++ h) (j : Nat) :
    theirs j (k.history ++ h.map fun x => (i, x)) =
      (k.put i s).senders[j]?.elim [] Sender.exchanges := by
  rw [theirs_append, hk j, getElem?_put hs]
  by_cases hj : j = i
  · subst hj
    have all : theirs j (h.map fun x => (j, x)) = h := by
      unfold theirs
      rw [List.filter_eq_self.mpr (by simp), List.map_map]
      exact List.map_id h
    rw [all, hs, if_pos rfl]
    exact hexchanges.symm
  · have none : theirs j (h.map fun x => (i, x)) = [] := by
      unfold theirs
      rw [List.filter_eq_nil_iff.mpr (by simp [Ne.symm hj]), List.map_nil]
    rw [none, if_neg hj, List.append_nil]

/-- **What a step does to the history.** -/
theorem Goes.own (h : Goes T e k k') (hk : k.Own) : k'.Own := by
  -- where nothing is answered
  have same {i : Nat} {s₀ s : Sender} (hs : k.senders[i]? = some s₀)
      (hexchanges : s.exchanges = s₀.exchanges) (j : Nat) :
      theirs j k.history = (k.put i s).senders[j]?.elim [] Sender.exchanges := by
    have := own_put (h := []) hk hs (by rw [hexchanges, List.append_nil]) j
    rwa [List.map_nil, List.append_nil] at this
  cases h with
  | stay => exact hk
  | call hs duty => exact same hs rfl
  | reply hs hc =>
    refine same hs ?_
    simp [Sender.exchanges]
  | begin r hs => exact same hs rfl
  | answer hs hc hx =>
    refine own_put (h := [_]) hk hs ?_
    simp [Sender.exchanges]
  | await h => exact hk
  | opening hi => exact hk
  | meanwhile clock handles => exact hk

theorem own_start (n : Nat) (w : World σ) : (start n w).Own := by
  intro i
  unfold start
  dsimp only
  rw [List.getElem?_replicate]
  split <;> rfl

end History

/-! ## What becomes of the lists -/

section Lists

variable {T e} {list : σ → String → List Bytes} {k k' : Senders σ}

/-- **What a step does to the lists**: they take what is accepted in it. -/
theorem Goes.lists (hT : T.KeepsLists list) (h : Goes T e k k') {key : String} {old : List Bytes}
    (hk : list k.world.remote key = old ++ taken key (k.history.map Prod.snd)) :
    list k'.world.remote key = old ++ taken key (k'.history.map Prod.snd) := by
  cases h with
  | stay => exact hk
  | call hs duty => exact hk
  | reply hs hc => exact hk
  | begin r hs => exact (congrFun (hT.beginning r k.world) key).trans hk
  | @answer i past c r next x world hs hc hx =>
    have answered := hT.answerBegun (s := e.pool) r k.world key
    rw [hx] at answered
    rw [List.map_append, Delivery.taken_append, ← List.append_assoc, ← hk]
    exact answered
  | await h =>
    exact (congrFun (hT.borrowed (World.borrowed_tryBorrow T e.pool k.world)) key).trans hk
  | opening hi => exact (congrFun (hT.settleOpening _ k.world) key).trans hk
  | meanwhile clock handles => exact hk

end Lists

/-! ## Who holds which links -/

section Held

variable {k : Senders σ} {i : Nat} {s s₀ : Sender}

/-- What the others hold. -/
def besides (k : Senders σ) (i : Nat) : List LinkId := (k.senders.eraseIdx i).flatMap Sender.held

theorem held_perm (hs : k.senders[i]? = some s) : k.held.Perm (s.held ++ k.besides i) :=
  (Traffic.perm_cons_eraseIdx hs).flatMap_right _

theorem held_put (hs : k.senders[i]? = some s₀) (s : Sender) :
    (k.put i s).held.Perm (s.held ++ k.besides i) := by
  have hput : (k.put i s).senders[i]? = some s := (getElem?_put hs s i).trans (if_pos rfl)
  have := held_perm hput
  unfold besides put at this
  rwa [List.eraseIdx_set_eq] at this

/-- What nobody holds twice is held by one. -/
theorem not_mem_held (hn : k.held.Nodup) {j : Nat} {s' : Sender} (hi : k.senders[i]? = some s)
    (hj : k.senders[j]? = some s') (hij : i ≠ j) {link : LinkId} (hl : link ∈ s.held) :
    link ∉ s'.held := by
  obtain ⟨-, -, apart⟩ := List.nodup_append.mp ((held_perm hi).nodup_iff.mp hn)
  have hmem : s' ∈ k.senders.eraseIdx i := List.mem_eraseIdx_iff_getElem?.mpr ⟨j, hij.symm, hj⟩
  exact fun hl' => apart link hl link (List.mem_flatMap.mpr ⟨s', hmem, hl'⟩) rfl

end Held

/-! ## A sender by itself -/

section Alone

variable {T e} {k : Senders σ} {i : Nat} {past : List Completed} {c : Ongoing}

theorem turn_reply {reply : Reply} (hs : k.senders[i]? = some ⟨past, some c⟩)
    (hc : c.talk = .done reply) (patient : Bool) :
    k.turn T e i patient = k.put i ⟨past ++ [⟨c.duty, c.exchanges, reply⟩], none⟩ := by
  unfold turn
  simp only [hs, hc]

variable {r : Request} {next : r.Answer → Dialogue Reply}

theorem turn_begin (hs : k.senders[i]? = some ⟨past, some c⟩) (hc : c.talk = .ask r next)
    (h : (!r.isMute && !c.pushing) = true) (patient : Bool) :
    k.turn T e i patient = { k.put i ⟨past, some { c with pushing := true }⟩ with
      world := k.world.beginning T r } := by
  unfold turn
  simp only [hs, hc, h, if_true]

theorem turn_answer (hs : k.senders[i]? = some ⟨past, some c⟩) (hc : c.talk = .ask r next)
    (h : (!r.isMute && !c.pushing) = false) :
    k.turn T e i false =
      { k.put i ⟨past, some ⟨c.duty, next (k.world.answerBegun T e.pool r).1,
          c.exchanges ++ [⟨r, (k.world.answerBegun T e.pool r).1⟩], false⟩⟩ with
        world := (k.world.answerBegun T e.pool r).2
        history := k.history ++ [(i, ⟨r, (k.world.answerBegun T e.pool r).1⟩)] } := by
  unfold turn
  simp only [hs, hc, h, Bool.false_and, Bool.false_eq_true, if_false]

/-- A sender's request is answered, in one turn or in two, with nobody in between. -/
theorem turns_answer (hs : k.senders[i]? = some ⟨past, some c⟩) (hc : c.talk = .ask r next)
    (hp : c.pushing = false) :
    ∃ n, k.run T e (List.replicate n (.turn i false)) =
      { k.put i ⟨past, some ⟨c.duty, next (k.world.answerNow T e.pool r).1,
          c.exchanges ++ [⟨r, (k.world.answerNow T e.pool r).1⟩], false⟩⟩ with
        world := (k.world.answerNow T e.pool r).2
        history := k.history ++ [(i, ⟨r, (k.world.answerNow T e.pool r).1⟩)] } := by
  cases hr : r.isMute with
  | true =>
    refine ⟨1, (turn_answer hs hc (by rw [hr]; rfl)).trans ?_⟩
    rw [World.answerBegun_of_isMute T e.pool hr]
  | false =>
    -- the first turn begins the push, the second one has it answered
    have begun := turn_begin (T := T) (e := e) hs hc (by rw [hr, hp]; rfl) false
    have hs' := (getElem?_put hs ⟨past, some { c with pushing := true }⟩ i).trans (if_pos rfl)
    refine ⟨2, ?_⟩
    show (k.turn T e i false).turn T e i false = _
    rw [begun]
    refine (turn_answer (k := { k.put i ⟨past, some { c with pushing := true }⟩ with
      world := k.world.beginning T r }) hs' hc (by rw [Bool.not_true, Bool.and_false])).trans ?_
    simp only [World.answerBegun_beginning, put, List.set_set]

/-- **A sender by itself** makes its call as if it were held without others. The induction is on the
talk. -/
theorem turns_alone {talk : Dialogue Reply} (hs : k.senders[i]? = some ⟨past, some c⟩)
    (hc : c.talk = talk) (hp : c.pushing = false) :
    ∃ n, k.run T e (List.replicate n (.turn i false)) =
      { k.put i ⟨past ++ [⟨c.duty,
          c.exchanges ++ talk.exchanges (World.answerNow T e.pool) k.world,
          (talk.run (World.answerNow T e.pool) k.world).1⟩], none⟩ with
        world := (talk.run (World.answerNow T e.pool) k.world).2
        history := k.history ++
          (talk.exchanges (World.answerNow T e.pool) k.world).map fun x => (i, x) } := by
  induction talk generalizing k c with
  | done reply =>
    refine ⟨1, ?_⟩
    show k.turn T e i false = _
    rw [turn_reply hs hc false]
    simp [put, Dialogue.exchanges, Dialogue.run]
  | ask r next ih =>
    obtain ⟨n, hn⟩ := turns_answer (T := T) (e := e) hs hc hp
    have hs' := (getElem?_put hs ⟨past, some ⟨c.duty, next (k.world.answerNow T e.pool r).1,
      c.exchanges ++ [⟨r, (k.world.answerNow T e.pool r).1⟩], false⟩⟩ i).trans (if_pos rfl)
    obtain ⟨m, hm⟩ := ih _ (k := { k.put i _ with
      world := (k.world.answerNow T e.pool r).2
      history := k.history ++ [(i, ⟨r, (k.world.answerNow T e.pool r).1⟩)] }) hs' rfl rfl
    refine ⟨n + m, ?_⟩
    have both : k.run T e (List.replicate (n + m) (.turn i false)) =
        (k.run T e (List.replicate n (.turn i false))).run T e
          (List.replicate m (.turn i false)) := by
      unfold run
      rw [← List.replicate_append_replicate, List.foldl_append]
    rw [both, hn, hm]
    simp [put, Dialogue.exchanges, Dialogue.run]

end Alone

end Senders

end LogShipper
