import LogShipper.Proofs.World.Moments
import LogShipper.Proofs.World.Senders

/-!
# Senders do not get into each other's way

Senders that share a started engine are each on their way through a talk that gives back what it
borrows (`Sender.OnWay`), and the links that are lent are just those that they hold
(`Senders.Sound`). So no two of them ever have one link at the same time, and each pushes over
links of its own only.

What the lists take is read off the history. For each sender that is what its calls would have had
them take by themselves, and the lists have all of it in the order in which it was accepted
(`Senders.Unmixed`).

Covers `send`, `send_with_cancel` and `send_bulk` of any number of senders, with `evict_idle` beside
them.

Results:
* `Goes.sound`, `Goes.exclusive`: what one step keeps.
* `Exclusive.handed_over`: a link goes from one call to another by way of the pool.
* `Sender.OnWay.inTurn`: what a list takes from one sender.
* `nothing_lost_or_mixed`: what holds after any number of steps.
-/

namespace LogShipper

open Delivery (Request Exchange Dialogue Engine Reply Duty IsRunning Ledger PoolSettings taken InTurn
  holdings holdings_concat)
open Delivery.Dialogue (Trace)

/-! ## Worlds that lend links -/

namespace World.LentTo

variable {σ : Type} {T : Transport σ} {s : PoolSettings} {held others : List LinkId} {w : World σ}

theorem beginning (h : w.LentTo s held) (r : Request) : (w.beginning T r).LentTo s held := by
  cases r with
  | push link key payload => exact ⟨h.census.record rfl, h.lent⟩
  | _ => exact h

/-- **A request that has begun**: what is borrowed nobody held, and what others hold stays as it
is. -/
theorem answerBegun (h : w.LentTo s (held ++ others)) {r : Request}
    (hr : Delivery.holder.allows held r) :
    Delivery.holder.admits held r (w.answerBegun T s r).1 ∧
      (w.answerBegun T s r).2.LentTo s (r.holding held (w.answerBegun T s r).1 ++ others) := by
  cases r with
  | push link key payload => exact ⟨trivial, h.census.record rfl, h.lent⟩
  | _ => exact h.answerNow (T := T) hr

/-- A borrower that got no link waits on. -/
theorem await (h : w.LentTo s held) (hnone : (w.tryBorrow T s).1 = none) :
    (w.await T s).LentTo s held := by
  have borrowed := World.borrowed_tryBorrow T s w
  rw [hnone] at borrowed
  refine ⟨(h.census.borrowed borrowed).openOne _, ?_⟩
  show (Pool.openOne _ _ _).lent.Perm held
  rw [Pool.openOne_lent, borrowed.lent]
  exact h.lent

end World.LentTo

theorem World.settleOpening_phase {σ : Type} (T : Transport σ) (s : PoolSettings) (index : Nat)
    (w : World σ) : (w.settleOpening T s index).phase = w.phase := by
  unfold World.settleOpening
  dsimp only
  split <;> rfl

/-- A request of a send leaves the phase alone. -/
theorem World.answerBegun_phase {σ : Type} (T : Transport σ) (s : PoolSettings) {r : Request}
    (hr : r.isSending = true) (w : World σ) : (w.answerBegun T s r).2.phase = w.phase := by
  have now (haside : r.isAside = true) : (w.answerNow T s r).2.phase = w.phase :=
    congrArg Rest.phase (World.rest_answerNow T s haside w)
  cases r <;> first | rfl | exact now rfl | exact absurd hr Bool.false_ne_true

/-! ## On the way through a talk -/

/-- A call on its way, whose caller holds some links. -/
structure Ongoing.OnWay (e : Engine) (held : List LinkId) (c : Ongoing) : Prop where
  /-- What was exchanged, and then what is left of the talk, is a talk of the call. -/
  trace : ∀ t reply, Trace c.talk t reply → Trace (c.duty.dialogue e) (c.exchanges ++ t) reply
  /-- What is left of the talk gives back all that is held. -/
  deals : ∃ h : Ledger, h.Held held ∧ c.talk.Deals h fun _ h' => h' = fun _ => .away
  sends : c.talk.Sends
  started : IsRunning c.exchanges

/-- A sender whose calls were held as they should be. -/
structure Sender.OnWay (e : Engine) (s : Sender) : Prop where
  past : ∀ c ∈ s.past, Trace (c.duty.dialogue e) c.exchanges c.reply ∧
    IsRunning c.exchanges
  idle : s.doing = none → s.held = []
  doing : ∀ c, s.doing = some c → c.OnWay e s.held

theorem Delivery.Ledger.Held.eq_nil {held : List LinkId} (h : Held (fun _ => .away) held) :
    held = [] :=
  List.eq_nil_iff_forall_not_mem.mpr fun _ hl => h.mem_iff.mp hl rfl

namespace Sender.OnWay

variable {e : Engine} {past : List Completed} {c : Ongoing}

/-- A call begins. -/
theorem call (h : Sender.OnWay e ⟨past, none⟩) (duty : Duty) :
    Sender.OnWay e ⟨past, some { duty, talk := duty.dialogue e }⟩ where
  past := h.past
  idle hnone := absurd hnone (Option.some_ne_none _)
  doing c hc := by
    obtain rfl := Option.some.inj hc
    have nothing : Sender.held ⟨past, some { duty, talk := duty.dialogue e }⟩ = [] := h.idle rfl
    refine ⟨fun t reply ht => ht, ⟨fun _ => .away, ?_, ?_⟩, duty.sends e,
      fun phase hmem => absurd hmem List.not_mem_nil⟩
    · rw [nothing]
      exact Ledger.held_nil
    · exact duty.settles e fun _ => Delivery.Standing.noConfusion

/-- A call comes back. -/
theorem reply {reply : Reply} (h : Sender.OnWay e ⟨past, some c⟩) (hc : c.talk = .done reply) :
    Sender.OnWay e ⟨past ++ [⟨c.duty, c.exchanges, reply⟩], none⟩ where
  past b hb := by
    rcases List.mem_append.mp hb with hb | hb
    · exact h.past b hb
    · obtain rfl := List.mem_singleton.mp hb
      have all := (h.doing c rfl).trace [] reply (hc ▸ .done reply)
      rw [List.append_nil] at all
      exact ⟨all, (h.doing c rfl).started⟩
  idle _ := by
    obtain ⟨h', hheld, hdeals⟩ := (h.doing c rfl).deals
    rw [hc] at hdeals
    obtain rfl : h' = fun _ => .away := hdeals
    rw [← hheld.eq_nil]
    simp [Sender.held, Sender.exchanges]
  doing b hb := absurd hb (Option.some_ne_none b).symm

theorem begin (h : Sender.OnWay e ⟨past, some c⟩) :
    Sender.OnWay e ⟨past, some { c with pushing := true }⟩ where
  past := h.past
  idle hnone := absurd hnone (Option.some_ne_none _)
  doing b hb := by
    obtain rfl := Option.some.inj hb
    have way := h.doing c rfl
    exact ⟨way.trace, way.deals, way.sends, way.started⟩

variable {r : Request} {next : r.Answer → Dialogue Reply}

theorem held_answer (x : r.Answer) :
    Sender.held ⟨past, some ⟨c.duty, next x, c.exchanges ++ [⟨r, x⟩], false⟩⟩ =
      r.holding (Sender.held ⟨past, some c⟩) x := by
  unfold Sender.held
  rw [← holdings_concat]
  exact congrArg holdings (List.append_assoc _ _ _).symm

/-- **A request is answered.** -/
theorem answer (h : Sender.OnWay e ⟨past, some c⟩) (hc : c.talk = .ask r next) {x : r.Answer}
    (hx : Delivery.holder.admits (Sender.held ⟨past, some c⟩) r x)
    (hs : IsRunning [⟨r, x⟩]) :
    Sender.OnWay e ⟨past, some ⟨c.duty, next x, c.exchanges ++ [⟨r, x⟩], false⟩⟩ where
  past := h.past
  idle hnone := absurd hnone (Option.some_ne_none _)
  doing b hb := by
    obtain rfl := Option.some.inj hb
    obtain ⟨trace, ⟨h', hheld, hdeals⟩, sends, started⟩ := h.doing c rfl
    rw [hc] at trace hdeals sends
    obtain ⟨hadmits, hafter⟩ := (Delivery.held_step hheld hdeals.1).2 x hx
    refine ⟨fun t reply ht => ?_, ⟨_, ?_, hdeals.2 x hadmits⟩, sends.2 x trivial,
      fun phase hmem => ?_⟩
    · show Trace _ (c.exchanges ++ [⟨r, x⟩] ++ t) reply
      rw [List.append_assoc]
      exact trace _ reply (.ask ht)
    · rw [held_answer]
      exact hafter
    · rcases List.mem_append.mp hmem with hmem | hmem
      · exact started phase hmem
      · exact hs phase hmem

/-- A request is one that the caller may make. -/
theorem allows (h : Sender.OnWay e ⟨past, some c⟩) (hc : c.talk = .ask r next) :
    Delivery.holder.allows (Sender.held ⟨past, some c⟩) r := by
  obtain ⟨h', hheld, hdeals⟩ := (h.doing c rfl).deals
  rw [hc] at hdeals
  exact (Delivery.held_step hheld hdeals.1).1

/-- A call pushes over links that its caller holds. -/
theorem holds {s : Sender} (h : s.OnWay e) (hc : s.doing = some c) {link : LinkId}
    (hp : c.PushesOver link) : link ∈ s.held := by
  obtain ⟨key, payload, next, hc'⟩ := hp
  obtain ⟨h', hheld, hdeals⟩ := (h.doing c hc).deals
  rw [hc'] at hdeals
  exact hheld.mem_iff.mpr (Ledger.ne_away_of_sound hdeals.1.1)

end Sender.OnWay

namespace Senders

variable {σ : Type} {T : Transport σ} {e : Engine} {others : List LinkId} {k k' : Senders σ}

/-- Senders on a started engine who are all on their way, and hold all the links that are lent but
those of others. -/
structure Sound (e : Engine) (others : List LinkId) (k : Senders σ) : Prop where
  phase : k.world.phase = .started
  lent : k.world.LentTo e.pool (k.held ++ others)
  senders : ∀ s ∈ k.senders, s.OnWay e

/-- A sender is put in a place who holds what the one there held. -/
theorem lent_put {i : Nat} {s s₀ : Sender} {w : World σ} (hs : k.senders[i]? = some s₀)
    (hheld : s.held = s₀.held) (h : w.LentTo e.pool (k.held ++ others)) :
    w.LentTo e.pool ((k.put i s).held ++ others) := by
  refine h.perm (List.Perm.append_right others ?_)
  refine (held_perm hs).trans ?_
  rw [← hheld]
  exact (held_put hs s).symm

/-- The phase that a request sees. -/
theorem seenStarted_answer {w : World σ} (hw : w.phase = .started) (s : PoolSettings)
    (r : Request) : IsRunning [⟨r, (w.answerBegun T s r).1⟩] := by
  intro phase hmem
  have heq := List.mem_singleton.mp hmem
  cases r with
  | phase =>
    obtain rfl : phase = w.phase := eq_of_heq (Exchange.mk.inj heq).2
    exact hw
  | _ => cases heq

/-- **What a step keeps.** -/
theorem Goes.sound (h : Goes T e k k') (hk : Sound e others k) : Sound e others k' := by
  obtain ⟨phase, lent, senders⟩ := hk
  cases h with
  | stay => exact ⟨phase, lent, senders⟩
  | call hs duty =>
    have before := senders _ (List.mem_of_getElem? hs)
    exact ⟨phase, lent_put hs rfl lent, forall_put senders (before.call duty)⟩
  | @reply i past c reply hs hc =>
    have before := senders _ (List.mem_of_getElem? hs)
    refine ⟨phase, lent_put hs ?_ lent, forall_put senders (before.reply hc)⟩
    simp [Sender.held, Sender.exchanges]
  | begin r hs =>
    have before := senders _ (List.mem_of_getElem? hs)
    refine ⟨?_, lent_put hs rfl (lent.beginning r), forall_put senders before.begin⟩
    show (k.world.beginning T r).phase = .started
    cases r <;> exact phase
  | @answer i past c r next x world hs hc hx =>
    have before := senders _ (List.mem_of_getElem? hs)
    -- the phase stays, since no call of a sender starts or stops the engine
    have sending : r.isSending = true := by
      have sends := (before.doing c rfl).sends
      rw [hc] at sends
      exact sends.1
    -- the others are a frame: this sender may ask for what it asks for whatever they hold
    have apart : k.world.LentTo e.pool
        (Sender.held ⟨past, some c⟩ ++ (k.besides i ++ others)) := by
      rw [← List.append_assoc]
      exact lent.perm ((held_perm hs).append_right others)
    obtain ⟨admits, after⟩ := apart.answerBegun (T := T) (before.allows hc)
    have still := World.answerBegun_phase T e.pool sending k.world
    have seen := seenStarted_answer (T := T) phase e.pool r
    rw [hx] at admits after still seen
    refine ⟨still.trans phase, after.perm ?_, forall_put senders (before.answer hc admits seen)⟩
    rw [← List.append_assoc, ← Sender.OnWay.held_answer]
    exact (held_put hs _).symm.append_right others
  | await hnone =>
    refine ⟨?_, lent.await hnone, senders⟩
    exact (congrArg World.Rest.phase
      (World.borrowed_tryBorrow T e.pool k.world).rest).trans phase
  | opening hi =>
    refine ⟨?_, lent.settleOpening hi, senders⟩
    exact (World.settleOpening_phase T e.pool _ k.world).trans phase
  | meanwhile clock handles => exact ⟨phase, ⟨lent.census, lent.lent⟩, senders⟩

/-- No link is held twice. -/
theorem Sound.nodup (hk : Sound e others k) : k.held.Nodup :=
  (List.nodup_append.mp hk.lent.nodup).1

/-! ## Pushes over links of one's own -/

/-- Whenever a push was answered, the one that pushed held its link, and nobody else did. -/
def Exclusive (history : List (Nat × Exchange)) : Prop :=
  ∀ before i link key payload answer after,
    history = before ++ (i, ⟨.push link key payload, answer⟩) :: after →
    ∀ j, link ∈ holdings (theirs j before) ↔ j = i

/-- Links are let go of one by one. -/
theorem returns_of_not_mem_holding {link : LinkId} {held : List LinkId} {r : Request} {x : r.Answer}
    (hl : link ∈ held) (hx : link ∉ r.holding held x) : r = .giveBack link ∨ r = .discard link := by
  have one {other : LinkId} (h : link ∉ held.erase other) : other = link := by
    by_cases hne : link = other
    · exact hne.symm
    · exact absurd ((List.mem_erase_of_ne hne).mpr hl) h
  cases r with
  | giveBack other =>
    rw [one hx]
    exact .inl rfl
  | discard other =>
    rw [one hx]
    exact .inr rfl
  | borrow => cases x with
    | ok other => exact absurd (List.mem_cons_of_mem other hl) hx
    | error _ => exact absurd hl hx
  | tryBorrow => cases x with
    | some other => exact absurd (List.mem_cons_of_mem other hl) hx
    | none => exact absurd hl hx
  | _ => exact absurd hl hx

/-- A link that is held no more was given back or discarded. -/
theorem returned_of_not_mem {link : LinkId} {t u : List Exchange} (hl : link ∈ holdings t)
    (hu : link ∉ holdings (t ++ u)) :
    ∃ x ∈ u, x.request = .giveBack link ∨ x.request = .discard link := by
  induction u generalizing t with
  | nil =>
    rw [List.append_nil] at hu
    exact absurd hl hu
  | cons x u ih =>
    by_cases still : link ∈ holdings (t ++ [x])
    · rw [List.append_cons] at hu
      obtain ⟨y, hy, hreturns⟩ := ih still hu
      exact ⟨y, List.mem_cons_of_mem x hy, hreturns⟩
    · rw [holdings_concat] at still
      exact ⟨x, List.mem_cons_self, returns_of_not_mem_holding hl still⟩

/-- **A link goes from hand to hand through the pool only**: between pushes of two senders over it
the first one has given it back or discarded it. -/
theorem Exclusive.handed_over {history before between after : List (Nat × Exchange)} {i j : Nat}
    {link : LinkId} {key key' : String} {payload payload' : Bytes}
    {answer answer' : Except LinkError Unit} (h : Exclusive history)
    (heq : history = before ++ (i, ⟨.push link key payload, answer⟩) ::
      (between ++ (j, ⟨.push link key' payload', answer'⟩) :: after)) (hij : i ≠ j) :
    ∃ x ∈ theirs i between, x.request = .giveBack link ∨ x.request = .discard link := by
  have first := (h before i link key payload answer _ heq i).mpr rfl
  have second : link ∉ holdings (theirs i
      (before ++ (i, ⟨.push link key payload, answer⟩) :: between)) := by
    refine fun hl => hij ((h _ j link key' payload' answer' after ?_ i).mp hl)
    rw [heq, List.append_assoc, List.cons_append]
  rw [theirs_append] at second
  have own : theirs i ((i, ⟨.push link key payload, answer⟩) :: between) =
      ⟨.push link key payload, answer⟩ :: theirs i between := by
    simp [theirs]
  rw [own] at second
  obtain ⟨x, hx, hreturns⟩ := returned_of_not_mem first second
  rcases List.mem_cons.mp hx with rfl | hx
  · rcases hreturns with hr | hr <;> cases hr
  · exact ⟨x, hx, hreturns⟩

/-- A link that somebody holds nobody else holds. -/
theorem mem_holdings_iff (hown : k.Own) (hn : k.held.Nodup) {i : Nat} {s : Sender}
    (hs : k.senders[i]? = some s) {link : LinkId} (hl : link ∈ s.held) (j : Nat) :
    link ∈ holdings (theirs j k.history) ↔ j = i := by
  rw [hown j]
  by_cases hj : j = i
  · subst hj
    rw [hs]
    exact iff_of_true hl rfl
  · refine iff_of_false (fun hl' => ?_) hj
    cases hs' : k.senders[j]? with
    | none =>
      rw [hs'] at hl'
      exact absurd hl' List.not_mem_nil
    | some s' =>
      rw [hs'] at hl'
      exact not_mem_held hn hs hs' (Ne.symm hj) hl hl'

/-- **What a step adds to the history** goes over a link that one sender holds. -/
theorem Goes.exclusive (h : Goes T e k k') (hk : Sound e others k) (hown : k.Own)
    (hx : Exclusive k.history) : Exclusive k'.history := by
  cases h with
  | @answer i past c r next x world hs hc hx' =>
    intro before i' link key payload answer after heq j
    have heq : k.history ++ [(i, ⟨r, x⟩)] =
      before ++ (i', ⟨.push link key payload, answer⟩) :: after := heq
    rcases List.eq_nil_or_concat after with rfl | ⟨after, last, rfl⟩
    · -- the push is the one that is answered in this step
      obtain ⟨rfl, hlast⟩ := List.append_inj' heq rfl
      obtain ⟨rfl, hexchange⟩ := Prod.mk.inj (List.singleton_inj.mp hlast)
      obtain rfl : r = .push link key payload := (Exchange.mk.inj hexchange).1
      have held : link ∈ Sender.held ⟨past, some c⟩ :=
        (hk.senders _ (List.mem_of_getElem? hs)).holds rfl ⟨key, payload, next, hc⟩
      exact mem_holdings_iff hown hk.nodup hs held j
    · refine hx before i' link key payload answer after ?_ j
      rw [List.concat_eq_append, ← List.cons_append, ← List.append_assoc] at heq
      exact (List.append_inj' heq rfl).1
  | _ => exact hx

end Senders

/-! ## Nothing is lost, nothing is mixed -/

/-- What a list has taken so far on behalf of a call that goes on. -/
theorem Ongoing.OnWay.inTurn {e : Engine} {held : List LinkId} {c : Ongoing} (h : c.OnWay e held)
    (key : String) :
    InTurn (e.destination.keys.count key) c.duty.payloads (taken key c.exchanges) := by
  -- it is the beginning of what the list takes if some store answers the rest of the talk
  have rest := Dialogue.trace_run (World.answerNow ScriptedStore.transport e.pool) c.talk
    { remote := {} }
  have whole := Duty.inTurn (h.trace _ _ rest) key
  rw [Delivery.taken_append] at whole
  exact whole.prefix_of (List.prefix_append _ _)

/-- **What a list took on behalf of a sender** came in the order in which it was sent. -/
theorem Sender.OnWay.inTurn {e : Engine} {s : Sender} (h : s.OnWay e) (key : String) :
    InTurn (e.destination.keys.count key) s.payloads (taken key s.exchanges) := by
  unfold Sender.payloads Sender.exchanges
  rw [Delivery.taken_append, Delivery.taken_flatMap]
  refine .append (.flatMap fun c hc => Duty.inTurn (h.past c hc).1 key) ?_
  cases hd : s.doing with
  | none => exact .nil
  | some c => exact (h.doing c hd).inTurn key

namespace Senders

variable {σ : Type} {T : Transport σ} {e : Engine} {list : σ → String → List Bytes}

/-- Nothing is lost and nothing is mixed among senders that share an engine. -/
structure Unmixed (e : Engine) (list : σ → String → List Bytes) (w : World σ) (k : Senders σ) :
    Prop where
  /-- Each list has grown by the payloads of the accepted pushes to it, in the order in which they
  were accepted. -/
  lists : ∀ key, list k.world.remote key =
    list w.remote key ++ taken key (k.history.map Prod.snd)
  /-- What each sender had answered are the exchanges of its calls, one call after the other. -/
  own : ∀ i, theirs i k.history = k.senders[i]?.elim [] Sender.exchanges
  /-- What a list took from a sender came in the order in which the sender sent it, and each payload
  at most as often as the key stands in the destination. -/
  in_turn : ∀ i s, k.senders[i]? = some s → ∀ key,
    InTurn (e.destination.keys.count key) s.payloads (taken key (theirs i k.history))
  /-- What a call came back with agrees with what the lists took on its behalf. -/
  agrees : ∀ s ∈ k.senders, ∀ c ∈ s.past, c.duty.Agrees e c.exchanges c.reply
  /-- Between calls a sender holds no link. -/
  idle : ∀ s ∈ k.senders, s.doing = none → s.held = []
  /-- Whenever a push was answered, the one that pushed held its link, and nobody else did. -/
  exclusive : Exclusive k.history
  /-- A link over which one sender pushed, and another one later, was given back in between. -/
  handed_over : ∀ (before between after : List (Nat × Exchange)) (i j : Nat) (link : LinkId)
    (key key' : String) (payload payload' : Bytes) (answer answer' : Except LinkError Unit),
    k.history = before ++ (i, ⟨.push link key payload, answer⟩) ::
      (between ++ (j, ⟨.push link key' payload', answer'⟩) :: after) → i ≠ j →
    ∃ x ∈ theirs i between, x.request = .giveBack link ∨ x.request = .discard link
  /-- Whoever is in the middle of a push, or comes to one next, holds its link. -/
  holds : ∀ s ∈ k.senders, ∀ c, s.doing = some c → ∀ link, c.PushesOver link → link ∈ s.held
  /-- No two of them hold one link. -/
  apart : ∀ (i j : Nat) (s s' : Sender), i ≠ j → k.senders[i]? = some s → k.senders[j]? = some s' →
    ∀ link ∈ s.held, link ∉ s'.held

/-- What holds of senders from some world on. -/
structure Since (e : Engine) (list : σ → String → List Bytes) (w : World σ) (others : List LinkId)
    (k : Senders σ) : Prop where
  sound : Sound e others k
  own : k.Own
  exclusive : Exclusive k.history
  lists : ∀ key, list k.world.remote key =
    list w.remote key ++ taken key (k.history.map Prod.snd)

variable {w : World σ} {others : List LinkId} {k : Senders σ}

theorem since_start (n : Nat) (hw : w.LentTo e.pool others) (hstarted : w.phase = .started) :
    Since e list w others (start n w) where
  sound := by
    have nobody : (start n w).held = [] := by
      refine List.flatMap_eq_nil_iff.mpr fun s hs => ?_
      obtain rfl := List.eq_of_mem_replicate hs
      rfl
    refine ⟨hstarted, by rw [nobody]; exact hw, fun s hs => ?_⟩
    obtain rfl := List.eq_of_mem_replicate hs
    exact ⟨fun c hc => absurd hc List.not_mem_nil, fun _ => rfl,
      fun c hc => absurd hc (Option.some_ne_none c).symm⟩
  own := own_start n w
  exclusive before i link key payload answer after h _ :=
    absurd h.symm (List.append_ne_nil_of_right_ne_nil before (List.cons_ne_nil _ after))
  lists key := (List.append_nil _).symm

/-- **What one event keeps.** -/
theorem Since.step (hT : T.KeepsLists list) (h : Since e list w others k) (event : Event) :
    Since e list w others (k.step T e event) := by
  have goes := goes_step T e k event
  exact ⟨goes.sound h.sound, goes.own h.own, goes.exclusive h.sound h.own h.exclusive,
    fun key => goes.lists hT (h.lists key)⟩

/-- **What any events keep**, by induction on the events. -/
theorem Since.run (hT : T.KeepsLists list) (h : Since e list w others k) (events : List Event) :
    Since e list w others (k.run T e events) := by
  induction events generalizing k with
  | nil => exact h
  | cons event events ih => exact ih (h.step hT event)

theorem Since.unmixed (h : Since e list w others k) : Unmixed e list w k where
  lists := h.lists
  own := h.own
  in_turn i s hs key := by
    rw [h.own i, hs]
    exact (h.sound.senders s (List.mem_of_getElem? hs)).inTurn key
  agrees s hs c hc := by
    obtain ⟨trace, started⟩ := (h.sound.senders s hs).past c hc
    exact Duty.agrees trace started
  idle s hs := (h.sound.senders s hs).idle
  exclusive := h.exclusive
  handed_over _ _ _ _ _ _ _ _ _ _ _ _ heq hij := h.exclusive.handed_over heq hij
  holds s hs c hc link := (h.sound.senders s hs).holds hc
  apart i j s s' hij hs hs' link hl := not_mem_held h.sound.nodup hs hs' hij hl

/-- **Senders side by side lose nothing and mix nothing**: any number of them on one started engine,
with any calls, in any order of their requests and their pushes, with any store that keeps lists. -/
theorem nothing_lost_or_mixed (hT : T.KeepsLists list) (hw : World.Moment T e w)
    (hstarted : w.phase = .started) (n : Nat) (events : List Event) :
    Unmixed e list w ((start n w).run T e events) := by
  obtain ⟨h, -, hk⟩ := hw.kept
  have lent : w.LentTo e.pool w.pool.lent := ⟨hk.2.census, .refl _⟩
  exact ((since_start n lent hstarted).run hT events).unmixed

/-- A started engine's world, with a store that rejects the first push to the second key. -/
def busy : World ScriptedStore :=
  (World.call ScriptedStore.transport Engine.twoKeys 0 .startup
    { remote := { plans := [("b", { next := [.reject "busy"] })] } }).2

/-- A send and a batch, by turns. -/
def sendAndBatch : List Event :=
  [.call 0 (.send [1] 0), .call 1 (.bulk [[2], [3]])] ++
    (List.replicate 18 [.turn 0 true, .turn 1 true, .opening 0]).flatten

/-- The two lists have the payloads of both, each in an order of its own. -/
theorem nothing_lost_or_mixed_by_turns :
    busy.phase = .started ∧
      ((start 2 busy).run ScriptedStore.transport Engine.twoKeys sendAndBatch).world.remote.lists =
        [("a", [[1], [2], [3]]), ("b", [[2], [1], [3]])] ∧
      Unmixed Engine.twoKeys ScriptedStore.list busy
        ((start 2 busy).run ScriptedStore.transport Engine.twoKeys sendAndBatch) := by
  have started : busy.phase = .started := by decide +kernel
  refine ⟨started, by decide +kernel, ?_⟩
  exact nothing_lost_or_mixed ScriptedStore.keepsLists (.call (.fresh rfl rfl rfl) 0 .startup)
    started 2 sendAndBatch

end Senders

end LogShipper
