import LogShipper.Proofs.Pool.Traffic
import LogShipper.Proofs.World.Lifecycle

/-!
# Who still gets a link once a pool is shut down

A borrower first checks that the pool runs and then borrows, in two exchanges, and the pool can be
shut down between them. Whoever has passed the check gets a link all the same: the phase of the pool
is not looked at again, and a pool without links opens one for whoever waits.

The talks at a pool that lends keep to the rules of the `gate`: they borrow once after a check, and
right after it. So once the pool is shut down nobody passes the check any more, and the links that
somebody holds, together with the borrowers that have passed, do not become more (`Traffic.stake`).
A shutdown that finds no link lent is final if no borrower has passed by then. If some have, there
can be as many leases afterwards. The idle links are closed at the end of the pool even so, and
those borrowers wait for links that are opened for them.

Covers `startup`, `acquire`, `release`, `shutdown` and `evict_idle`, side by side.

Results:
* `Frequented.step`, `Frequented.run`: talks keep to the rules, one event and any number of them.
* `Frequented.stake_step`, `Frequented.stake_run`: from the end of a pool on, the links held and the
  borrowers that have passed do not become more.
* `finality`: how many links are held after a shutdown that found none lent.
-/

namespace LogShipper

open Delivery (Request Dialogue PoolSettings)

/-! ## The rules of the gate -/

namespace Delivery

/-- Where a talk stands with the gate of a pool. -/
inductive Stance where
  | outside
  /-- It has checked that the pool runs, and borrows next. -/
  | passed
  /-- It has closed the pool. -/
  | closing
  deriving DecidableEq, Repr

/-- The rules of a pool that lends: whoever borrows has checked right before that the pool runs, and
whoever waits for the end has closed it. -/
def gate : Protocol Stance where
  allows stance
    | .borrow => stance = .passed
    | .tryBorrow => False
    | .openPool => False
    | .drain _ => stance = .closing
    | _ => stance ≠ .passed
  admits _ _ _ := True
  after stance
    | .poolPhase, .running => .passed
    | .poolPhase, _ => .outside
    | .borrow, _ => .outside
    | .closePool, _ => .closing
    | _, _ => stance

variable {α : Type} {d : Dialogue α} {stance : Stance}

/-- A talk keeps to the rules of the gate, and does not end when it has just passed. -/
def Dialogue.Enters (d : Dialogue α) (stance : Stance) : Prop :=
  d.Abides gate stance fun _ stance' => stance' ≠ .passed

/-- The requests that have nothing to do with the gate. -/
def Request.isAway : Request → Bool
  | .borrow | .tryBorrow | .openPool | .closePool | .drain _ | .poolPhase => false
  | _ => true

theorem Dialogue.Only.enters (h : d.Only Request.isAway) (hs : stance ≠ .passed) :
    d.Enters stance := by
  induction d with
  | done a => exact hs
  | ask r next ih =>
    obtain ⟨hr, hnext⟩ := h
    have allowed : gate.allows stance r ∧ ∀ x, gate.after stance r x = stance := by
      cases r <;> first | exact ⟨hs, fun _ => rfl⟩ | exact absurd hr Bool.false_ne_true
    refine ⟨allowed.1, fun x _ => ?_⟩
    rw [allowed.2]
    exact ih x (hnext x trivial)

theorem acquire_enters : acquire.Enters .outside := by
  refine ⟨Stance.noConfusion, fun phase _ => ?_⟩
  cases phase with
  | running => exact ⟨rfl, fun x _ => by cases x <;> exact Stance.noConfusion⟩
  | _ => exact Stance.noConfusion

theorem PoolSettings.release_enters (p : PoolSettings) (link : LinkId) (healthy : Bool) :
    (p.release link healthy).Enters .outside := by
  have away : (p.release link healthy).Only Request.isAway :=
    (p.release_tidies link healthy).mono fun r hr => by
      cases r <;> first | rfl | exact absurd hr Bool.false_ne_true
  exact away.enters Stance.noConfusion

theorem PoolSettings.lapse_enters (link : LinkId) : (PoolSettings.lapse link).Enters .outside :=
  ⟨Stance.noConfusion, fun _ _ => Stance.noConfusion⟩

theorem PoolSettings.shutdown_enters (p : PoolSettings) (ms : Option Nat) :
    (p.shutdown ms).Enters .outside := by
  have log {l : Level} {m : String} {fields : List (String × String)} :
      (p.log l m fields).Only Request.isAway := .log rfl
  refine ⟨Stance.noConfusion, fun phase _ => ?_⟩
  cases phase with
  | running =>
    refine ⟨rfl, fun lent _ => Dialogue.Only.enters ?_ Stance.noConfusion⟩
    show Dialogue.Only _ (if lent ≠ 0 then _ else _)
    split
    · exact .bind log fun _ => .bind (.ask rfl fun _ => .done) fun _ => .bind log fun _ => .done
    · exact .bind (.ask rfl fun _ => .done) fun _ => .bind log fun _ => .done
  | _ => exact Stance.noConfusion

/-- A talk that is to borrow next. -/
def Dialogue.isBorrowing : Dialogue α → Bool
  | .ask .borrow _ => true
  | _ => false

/-- A talk is to borrow next just when it has passed the gate. -/
theorem Dialogue.Enters.isBorrowing_iff (h : d.Enters stance) :
    d.isBorrowing = true ↔ stance = .passed := by
  cases d with
  | done a => exact ⟨fun hb => absurd hb Bool.false_ne_true, fun hs => absurd hs h⟩
  | ask r next =>
    have allowed := h.1
    cases r with
    | borrow => exact ⟨fun _ => allowed, fun _ => rfl⟩
    | tryBorrow => exact allowed.elim
    | openPool => exact allowed.elim
    | drain ms =>
      refine ⟨fun hb => absurd hb Bool.false_ne_true, fun hs => ?_⟩
      rw [hs] at allowed
      cases allowed
    | _ => exact ⟨fun hb => absurd hb Bool.false_ne_true, fun hs => absurd hs allowed⟩

end Delivery

/-! ## A pool that is shut down stays so -/

/-- No request but to set the pool up ends its being shut down. -/
theorem World.shutDown_answerNow {σ : Type} (T : Transport σ) (s : PoolSettings) {r : Request}
    {stance : Delivery.Stance} (hr : Delivery.gate.allows stance r) {w : World σ}
    (hp : w.pool.phase = .shutDown) : (w.answerNow T s r).2.pool.phase = .shutDown := by
  have still (steady : r.isSteady = true) : (w.answerNow T s r).2.pool.phase = .shutDown :=
    (congrArg Phases.pool (phases_answerNow T s steady w)).trans hp
  cases r with
  | openPool => exact hr.elim
  | closePool => rfl
  | markStarted => exact hp
  | markStopped => exact hp
  | _ => exact still rfl

/-- A borrower that has passed the check and is to borrow next. -/
def Task.hasPassed (task : Task) : Bool := task.talk.isBorrowing

namespace Traffic

variable {σ : Type} (T : Transport σ) (s : PoolSettings)

/-! ## Visits -/

/-- The events at a pool that was set up, its background checks apart. -/
def Event.isVisit : Event σ → Bool
  | .startup | .evict => false
  | _ => true

/-- A pool that was just set up, with nobody at it. -/
def opened (remote : σ) : Traffic σ :=
  ⟨(s.startup.run (World.answerNow T s) { remote }).2, [], []⟩

/-- How many borrowers have passed the check and are to borrow next. -/
def passed (t : Traffic σ) : Nat := t.tasks.countP Task.hasPassed

/-- The links that somebody holds, and the borrowers that have passed the check. -/
def stake (t : Traffic σ) : Nat := t.held.length + t.passed

/-- A pool whose links are in balance, where all talks keep to the rules of the gate. -/
structure Frequented (s : PoolSettings) (t : Traffic σ) : Prop where
  balanced : Balanced s t
  /-- A talk that closed the pool finds it shut down. -/
  enters : ∀ task ∈ t.tasks, ∃ stance, task.talk.Enters stance ∧
    (stance = .closing → t.world.pool.phase = .shutDown)

variable {T s} {t : Traffic σ}

theorem frequented_opened (remote : σ) : Frequented s (opened T s remote) where
  balanced :=
    { census := (Census.empty s.config).start 0
      lent := List.Perm.of_eq (Pool.refill_lent s.config 0 _)
      minds := fun _ h => absurd h List.not_mem_nil }
  enters _ h := absurd h List.not_mem_nil

/-- A talk begins. -/
theorem Frequented.join (hf : Frequented s t) {u : Traffic σ} (hb : Balanced s u)
    (hworld : u.world = t.world) {α : Type} {talk : Dialogue α} {held : List LinkId}
    (htasks : u.tasks = t.tasks ++ [⟨talk.bind fun _ => .done (), held⟩])
    (henters : talk.Enters .outside) : Frequented s u := by
  refine ⟨hb, fun task htask => ?_⟩
  rw [htasks] at htask
  rw [hworld]
  rcases List.mem_append.mp htask with htask | htask
  · exact hf.enters task htask
  · obtain rfl := List.mem_singleton.mp htask
    exact ⟨.outside, henters.bind fun _ _ h => h, Delivery.Stance.noConfusion⟩

theorem Frequented.joinWith (hf : Frequented s t) {talk : Dialogue Unit} {link : LinkId}
    (hb : Balanced s (t.beginWith talk link)) (henters : talk.Enters .outside) :
    Frequented s (t.beginWith talk link) := by
  revert hb
  unfold beginWith
  split
  · exact fun hb => hf.join hb rfl rfl henters
  · exact fun _ => hf

theorem beginWith_world (talk : Dialogue Unit) (link : LinkId) (t : Traffic σ) :
    (t.beginWith talk link).world = t.world := by
  unfold beginWith
  split <;> rfl

theorem await_phase (T : Transport σ) (s : PoolSettings) (t : Traffic σ) :
    (t.await T s).world.pool.phase = t.world.pool.phase :=
  (World.openOne_phase s.config _ _).trans
    (congrArg Phases.pool (World.borrowed_tryBorrow T s t.world).phases)

/-- A talk that goes on stays within the rules, and a pool that is shut down stays so. -/
theorem Frequented.advance (hf : Frequented s t) (index : Nat) (patient : Bool) :
    Frequented s (t.advance T s index patient) ∧
      (t.world.pool.phase = .shutDown →
        (t.advance T s index patient).world.pool.phase = .shutDown) := by
  suffices h : (∀ task ∈ (t.advance T s index patient).tasks, ∃ stance,
      task.talk.Enters stance ∧ (stance = .closing →
        (t.advance T s index patient).world.pool.phase = .shutDown)) ∧
      (t.world.pool.phase = .shutDown →
        (t.advance T s index patient).world.pool.phase = .shutDown) from
    ⟨⟨hf.balanced.advance index patient, h.1⟩, h.2⟩
  unfold Traffic.advance
  split
  · exact ⟨hf.enters, id⟩
  · exact ⟨fun task htask => hf.enters task (List.mem_of_mem_eraseIdx htask), id⟩
  · rename_i r next held ht
    obtain ⟨stance, ⟨allowed, hnext⟩, hclosing⟩ := hf.enters _ (List.mem_of_getElem? ht)
    dsimp only
    split
    · rw [await_phase]
      exact ⟨hf.enters, id⟩
    · have still := World.shutDown_answerNow T s allowed (w := t.world)
      refine ⟨fun task htask => ?_, still⟩
      rcases List.mem_or_eq_of_mem_set htask with htask | rfl
      · obtain ⟨stance', henters, hclosed⟩ := hf.enters task htask
        exact ⟨stance', henters, fun h => still (hclosed h)⟩
      · refine ⟨_, hnext _ trivial, fun h => ?_⟩
        cases r with
        | closePool => rfl
        | borrow => cases h
        | poolPhase =>
          revert h
          show Delivery.gate.after stance .poolPhase t.world.pool.phase = .closing → _
          cases t.world.pool.phase <;> exact Delivery.Stance.noConfusion
        | _ => exact still (hclosing h)

/-- **One event keeps to the rules**, and a pool that is shut down stays so. -/
theorem Frequented.step (hf : Frequented s t) {event : Event σ} (he : event.isVisit = true) :
    Frequented s (t.step T s event) ∧
      (t.world.pool.phase = .shutDown → (t.step T s event).world.pool.phase = .shutDown) := by
  have hb := hf.balanced.step (T := T) event
  cases event with
  | startup => exact absurd he Bool.false_ne_true
  | evict => exact absurd he Bool.false_ne_true
  | acquire => exact ⟨hf.join hb rfl rfl Delivery.acquire_enters, id⟩
  | shutdown ms => exact ⟨hf.join hb rfl rfl (s.shutdown_enters ms), id⟩
  | release link healthy =>
    refine ⟨hf.joinWith hb (s.release_enters link healthy), fun hp => ?_⟩
    exact (congrArg (·.pool.phase) (beginWith_world _ link t)).trans hp
  | lapse link =>
    refine ⟨hf.joinWith hb (PoolSettings.lapse_enters link), fun hp => ?_⟩
    exact (congrArg (·.pool.phase) (beginWith_world _ link t)).trans hp
  | advance index patient => exact hf.advance index patient
  | opening index =>
    revert hb
    simp only [Traffic.step]
    split
    · have same : (t.world.settleOpening T s index).pool.phase = t.world.pool.phase :=
        congrArg Phases.pool (World.phases_settleOpening T s index t.world)
      exact fun hb => ⟨⟨hb, same.symm ▸ hf.enters⟩, fun hp => same.trans hp⟩
    · exact fun _ => ⟨hf, id⟩
  | store remote => exact ⟨⟨hb, hf.enters⟩, id⟩

theorem Frequented.run (hf : Frequented s t) {events : List (Event σ)}
    (he : ∀ event ∈ events, event.isVisit = true) :
    Frequented s (t.run T s events) ∧
      (t.world.pool.phase = .shutDown → (t.run T s events).world.pool.phase = .shutDown) := by
  induction events generalizing t with
  | nil => exact ⟨hf, id⟩
  | cons event events ih =>
    obtain ⟨hevent, hrest⟩ := List.forall_mem_cons.mp he
    obtain ⟨after, still⟩ := hf.step (T := T) hevent
    obtain ⟨ended, lasting⟩ := ih after hrest
    exact ⟨ended, fun hp => lasting (still hp)⟩

/-! ## Stakes -/

theorem passed_eq {index : Nat} {task : Task} (h : t.tasks[index]? = some task) :
    t.passed = (t.tasks.eraseIdx index).countP Task.hasPassed + task.hasPassed.toNat := by
  unfold passed
  rw [(perm_cons_eraseIdx h).countP_eq, List.countP_cons]
  cases task.hasPassed <;> rfl

theorem passed_set {index : Nat} {task : Task} (h : t.tasks[index]? = some task)
    (task' : Task) (world : World σ) :
    ({ t with world, tasks := t.tasks.set index task' } : Traffic σ).passed =
      (t.tasks.eraseIdx index).countP Task.hasPassed + task'.hasPassed.toNat := by
  have hlt := (List.getElem?_eq_some_iff.mp h).1
  have hset : (t.tasks.set index task')[index]? = some task' := by
    rw [List.getElem?_set_self hlt]
  have := passed_eq (t := { t with world, tasks := t.tasks.set index task' }) hset
  rw [List.eraseIdx_set_eq] at this
  exact this

/-- **One exchange at a pool that is shut down**: whoever had passed gets a link at most, and nobody
passes any more. -/
theorem stake_exchange {w : World σ} (hp : w.pool.phase = .shutDown) {r : Request}
    {next : r.Answer → Dialogue Unit} (held : List LinkId) {stance : Delivery.Stance}
    (h : (Dialogue.ask r next).Enters stance) :
    (r.holding held (w.answerNow T s r).1).length +
        (next (w.answerNow T s r).1).isBorrowing.toNat ≤
      held.length + (Dialogue.ask r next).isBorrowing.toNat := by
  obtain ⟨allowed, hnext⟩ := h
  have entered : (next (w.answerNow T s r).1).Enters _ := hnext _ trivial
  have outside (hstance : Delivery.gate.after stance r (w.answerNow T s r).1 ≠ .passed) :
      (next (w.answerNow T s r).1).isBorrowing.toNat = 0 := by
    rw [Bool.toNat_eq_zero, ← Bool.not_eq_true, entered.isBorrowing_iff]
    exact hstance
  have erased (l : LinkId) : (held.erase l).length ≤ held.length := List.length_erase_le
  cases r with
  | borrow =>
    rw [outside Delivery.Stance.noConfusion]
    cases (w.answerNow T s .borrow).1 with
    | ok l => exact Nat.le_refl _
    | error _ => exact Nat.le_succ _
  | tryBorrow => exact allowed.elim
  | openPool => exact allowed.elim
  | poolPhase =>
    have hclosed : Delivery.gate.after stance .poolPhase w.pool.phase = .outside := by rw [hp]; rfl
    rw [outside (hclosed ▸ Delivery.Stance.noConfusion)]
    exact Nat.le_refl _
  | closePool =>
    rw [outside Delivery.Stance.noConfusion]
    exact Nat.le_refl _
  | drain ms =>
    rw [outside (by rw [show stance = .closing from allowed]; exact Delivery.Stance.noConfusion)]
    exact Nat.le_refl _
  | giveBack l =>
    rw [outside allowed]
    exact erased l
  | discard l =>
    rw [outside allowed]
    exact erased l
  | _ =>
    rw [outside allowed]
    exact Nat.le_refl _

theorem Frequented.stake_advance (hf : Frequented s t) (hp : t.world.pool.phase = .shutDown)
    (index : Nat) (patient : Bool) : (t.advance T s index patient).stake ≤ t.stake := by
  unfold Traffic.advance
  split
  · exact Nat.le_refl _
  · rename_i held ht
    have before := (held_perm ht).length_eq
    have passed_before := passed_eq ht
    show (held ++ t.leases ++ _).length + (t.tasks.eraseIdx index).countP Task.hasPassed ≤
      t.held.length + t.passed
    simp only [besides, List.length_append] at before ⊢
    omega
  · rename_i r next held ht
    obtain ⟨stance, henters, -⟩ := hf.enters _ (List.mem_of_getElem? ht)
    have exchange := stake_exchange (T := T) (s := s) hp held henters
    revert exchange
    generalize t.world.answerNow T s r = answered
    obtain ⟨x, world⟩ := answered
    intro exchange
    dsimp only
    split
    · exact Nat.le_refl _
    · have before := (held_perm ht).length_eq
      have passed_before : t.passed = _ + (Dialogue.ask r next).isBorrowing.toNat := passed_eq ht
      have after := (held_set ht ⟨next x, r.holding held x⟩ world).length_eq
      have passed_after : _ = _ + (next x).isBorrowing.toNat :=
        passed_set ht ⟨next x, r.holding held x⟩ world
      rw [List.length_append] at before after
      dsimp only at exchange before after
      unfold stake
      omega

/-- Somebody begins a talk, and has not passed then. -/
theorem stake_begin {α : Type} {talk : Dialogue α} (h : talk.Enters .outside)
    (held : List LinkId) (t : Traffic σ) : (t.begin talk held).stake = t.stake + held.length := by
  have begun : (talk.bind fun _ => Dialogue.done ()).Enters .outside := h.bind fun _ _ h => h
  have outside : (⟨talk.bind fun _ => .done (), held⟩ : Task).hasPassed = false := by
    rw [← Bool.not_eq_true]
    exact fun hb => Delivery.Stance.noConfusion (begun.isBorrowing_iff.mp hb)
  simp only [stake, passed, Traffic.held, Traffic.begin, List.countP_append, List.countP_singleton,
    outside, List.flatMap_append, List.flatMap_singleton, List.length_append]
  simp only [Bool.false_eq_true, if_false]
  omega

theorem stake_beginWith {talk : Dialogue Unit} (h : talk.Enters .outside) (link : LinkId)
    (t : Traffic σ) : (t.beginWith talk link).stake = t.stake := by
  unfold beginWith
  split
  · rename_i hl
    have erased := List.length_erase_of_mem hl
    have hpos := List.length_pos_of_mem hl
    rw [stake_begin h]
    simp only [stake, Traffic.held, passed, List.length_append, List.length_singleton, erased]
    omega
  · rfl

/-- **From the end of a pool on**, the links held and the borrowers that have passed do not become
more: nobody passes any more, and whoever has passed gets one link at most. -/
theorem Frequented.stake_step (hf : Frequented s t) (hp : t.world.pool.phase = .shutDown)
    {event : Event σ} (he : event.isVisit = true) : (t.step T s event).stake ≤ t.stake := by
  cases event with
  | startup => exact absurd he Bool.false_ne_true
  | evict => exact absurd he Bool.false_ne_true
  | acquire => exact Nat.le_of_eq (stake_begin Delivery.acquire_enters [] t)
  | shutdown ms => exact Nat.le_of_eq (stake_begin (s.shutdown_enters ms) [] t)
  | release link healthy =>
    exact Nat.le_of_eq (stake_beginWith (s.release_enters link healthy) link t)
  | lapse link => exact Nat.le_of_eq (stake_beginWith (PoolSettings.lapse_enters link) link t)
  | advance index patient => exact hf.stake_advance hp index patient
  | opening index =>
    simp only [Traffic.step]
    split <;> exact Nat.le_refl _
  | store remote => exact Nat.le_refl _

theorem Frequented.stake_run (hf : Frequented s t) (hp : t.world.pool.phase = .shutDown)
    {events : List (Event σ)} (he : ∀ event ∈ events, event.isVisit = true) :
    (t.run T s events).stake ≤ t.stake := by
  induction events generalizing t with
  | nil => exact Nat.le_refl _
  | cons event events ih =>
    obtain ⟨hevent, hrest⟩ := List.forall_mem_cons.mp he
    obtain ⟨after, still⟩ := hf.step (T := T) hevent
    exact Nat.le_trans (ih after (still hp) hrest) (hf.stake_step hp hevent)

/-- **How final a shutdown is**: if its wait finds no link lent, then at any time later as many
links are held, at most, as borrowers had passed the check just then. -/
theorem finality (T : Transport σ) (s : PoolSettings) (remote : σ)
    {before after : List (Event σ)} (hbefore : ∀ event ∈ before, event.isVisit = true)
    (hafter : ∀ event ∈ after, event.isVisit = true)
    (ht : (opened T s remote).run T s before = t) {index : Nat} {ms : Option Nat}
    {next : Nat → Dialogue Unit} {held : List LinkId}
    (hwaits : t.tasks[index]? = some ⟨.ask (.drain ms) next, held⟩)
    (hnone : (t.world.answerNow T s (.drain ms)).1 = 0) :
    (t.run T s after).held.length ≤ t.passed := by
  subst ht
  obtain ⟨hf, -⟩ := (frequented_opened (T := T) (s := s) remote).run (T := T) hbefore
  obtain ⟨stance, ⟨allowed, -⟩, hclosing⟩ := hf.enters _ (List.mem_of_getElem? hwaits)
  have books := hf.balanced.books (T := T)
  have hheld : ((opened T s remote).run T s before).held.length = 0 := by
    rw [← books.handed_out, ← books.awaited ms, hnone]
  have hstake := hf.stake_run (T := T) (hclosing allowed) hafter
  unfold stake at hstake
  omega

/-- A borrower that has passed the check, a shutdown that finds no link lent and says so, and the
lease that the borrower has in the end. -/
example :
    let s : PoolSettings := { endpoint := { host := "localhost" }, config := {} }
    let t := (opened ScriptedStore.transport s {}).run ScriptedStore.transport s
      [.acquire, .advance 0 false, .shutdown (some 0), .advance 1 false, .advance 1 false,
        .advance 1 false, .advance 1 false, .advance 1 false, .advance 0 true, .opening 0,
        .advance 0 true, .advance 0 false]
    t.leases = [0] ∧ t.world.log.head?.map (·.fields) =
      some [("endpoint", "localhost:6379"), ("drained", "true")] := by
  decide +kernel

end Traffic

end LogShipper
