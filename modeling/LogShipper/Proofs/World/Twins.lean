import LogShipper.Proofs.Store.Blindness
import LogShipper.World.Time

/-!
# Two runs side by side

Two worlds are twins if they differ in nothing but their stores and in the payloads that were
pushed, each of which was replaced in the second (`World.Twin`). They stay twins in all that can be
done to them over a store that does not look at payloads (`Transport.Blind`), even if the engine of
the second connects to another endpoint, as long as it looks the same.

Since what time brings about depends on pools and clocks alone, each step of one world goes with the
same step of the other.

Results:
* `Twin.pass`: what the passing of time does.
* `Twin.answer_mute`, `Twin.answer_push`: what a request does.
-/

namespace LogShipper

open Delivery (Request Dialogue Call Engine PoolSettings)

/-- What was done to a link, with its payload replaced. -/
def Act.map (f : Bytes → Bytes) : Act → Act
  | .began link key payload => .began link key (f payload)
  | act => act

/-- Two pools that look the same. -/
structure Delivery.PoolSettings.Alike (s s' : PoolSettings) : Prop where
  config : s'.config = s.config
  display : s'.endpoint.display = s.endpoint.display
  release : ∀ link healthy, s'.release link healthy = s.release link healthy
  evict : s'.evict = s.evict

/-- Two engines that look the same. -/
structure Delivery.Engine.Alike (e e' : Engine) : Prop where
  pool : e.pool.Alike e'.pool
  dialogue : ∀ c : Call, c.dialogue e' = c.dialogue e

theorem Delivery.PoolSettings.Alike.refl (s : PoolSettings) : s.Alike s :=
  ⟨rfl, rfl, fun _ _ => rfl, rfl⟩

theorem Delivery.PoolSettings.Alike.checkFailed {s s' : PoolSettings} (hs : s.Alike s')
    (e : LinkError) : World.checkFailed s' e = World.checkFailed s e := by
  rw [World.checkFailed, World.checkFailed, hs.display]

theorem Delivery.Engine.Alike.refl (e : Engine) : e.Alike e := ⟨.refl e.pool, fun _ => rfl⟩

namespace World

variable {σ : Type}

/-- Two worlds that differ in nothing but their stores and in the payloads that were pushed. -/
inductive Twin (f : Bytes → Bytes) (R : σ → σ → Prop) : World σ → World σ → Prop where
  | intro (w : World σ) (r : σ) (h : R w.remote r) :
      Twin f R w { w with remote := r, acts := w.acts.map (Act.map f) }

namespace Twin

variable {f : Bytes → Bytes} {R : σ → σ → Prop} {w w' : World σ} (h : Twin f R w w')

section Parts

include h

theorem remote : R w.remote w'.remote := by
  cases h
  assumption

theorem pool : w'.pool = w.pool := by
  cases h
  rfl

theorem clock : w'.clock = w.clock := by
  cases h
  rfl

theorem errands : w'.errands = w.errands := by
  cases h
  rfl

theorem handles : w'.handles = w.handles := by
  cases h
  rfl

theorem acts : w'.acts = w.acts.map (Act.map f) := by
  cases h
  rfl

theorem log : w'.log = w.log := by
  cases h
  rfl

theorem aside : w'.aside = w.aside := by
  cases h
  rfl

theorem agenda (T : Transport σ) : w'.agenda T = w.agenda T := by
  cases h
  rfl

theorem busyFuel {s s' : PoolSettings} (hs : s.Alike s') (limit : Nat) :
    w'.busyFuel s' limit = w.busyFuel s limit := by
  unfold World.busyFuel
  rw [h.clock, h.errands, hs.config]

/-- Something done to a link. -/
theorem touch {r r' : σ} (hr : R r r') {act act' : Act} (hact : act' = act.map f) :
    Twin f R ({ w with remote := r }.record act) ({ w' with remote := r' }.record act') := by
  cases h
  rw [hact]
  exact .intro ({ w with remote := r }.record act) r' hr

theorem record {act act' : Act} (hact : act' = act.map f) :
    Twin f R (w.record act) (w'.record act') := h.touch h.remote hact

theorem setRemote {r r' : σ} (hr : R r r') :
    Twin f R { w with remote := r } { w' with remote := r' } := by
  cases h
  exact .intro { w with remote := r } r' hr

theorem setPool {p p' : Pool} (hp : p' = p) :
    Twin f R { w with pool := p } { w' with pool := p' } := by
  cases h with
  | intro r hr =>
    rw [hp]
    exact .intro { w with pool := p } r hr

theorem setClock {t t' : Nat} (ht : t' = t) :
    Twin f R { w with clock := t } { w' with clock := t' } := by
  cases h with
  | intro r hr =>
    rw [ht]
    exact .intro { w with clock := t } r hr

theorem setErrands {errands errands' : List Errand} (he : errands' = errands) :
    Twin f R { w with errands := errands } { w' with errands := errands' } := by
  cases h with
  | intro r hr =>
    rw [he]
    exact .intro { w with errands := errands } r hr

theorem raise (entry : LogEntry) : Twin f R (w.raise entry) (w'.raise entry) := by
  cases h with
  | intro r hr => exact .intro (w.raise entry) r hr

theorem raiseAside {entry entry' : LogEntry} (hentry : entry' = entry) :
    Twin f R (w.raiseAside entry) (w'.raiseAside entry') := by
  cases h with
  | intro r hr =>
    rw [hentry]
    exact .intro (w.raiseAside entry) r hr

/-- The same is put aside in both. -/
theorem hush {v v' : World σ} (hv : Twin f R v v') : Twin f R (w.hush v) (w'.hush v') := by
  cases h with
  | intro =>
    cases hv with
    | intro r hr => exact .intro (w.hush v) r hr

end Parts

/-! ## Links -/

variable {T : Transport σ}

section Pools

variable {s s' : PoolSettings} (hT : T.Blind f s.endpoint s'.endpoint R)

section Links

include hT h

theorem ping (link : LinkId) : Alike (Twin f R) (w.ping T link) (w'.ping T link) := by
  obtain ⟨hanswer, hr⟩ := hT.ping link _ _ h.remote
  exact ⟨hanswer, h.touch hr (congrArg (Act.pinged link) hanswer.symm)⟩

theorem reset (link : LinkId) : Alike (Twin f R) (w.reset T link) (w'.reset T link) := by
  obtain ⟨hanswer, hr⟩ := hT.reset link _ _ h.remote
  exact ⟨hanswer, h.touch hr (congrArg (Act.reset link) hanswer.symm)⟩

theorem close (link : LinkId) : Twin f R (w.close T link) (w'.close T link) :=
  h.touch (hT.close link _ _ h.remote) rfl

theorem closeAll (links : List LinkId) :
    Twin f R (closeAll T links w) (closeAll T links w') := by
  induction links generalizing w w' with
  | nil => exact h
  | cons link rest ih => exact ih (h.close hT link)

theorem settleForsaken : Twin f R (w.settleForsaken T) (w'.settleForsaken T) := by
  unfold World.settleForsaken
  rw [h.pool]
  split
  · exact (h.setPool rfl).closeAll hT w.pool.idle
  · exact h

theorem giveBack (link : LinkId) : Twin f R (w.giveBack T link) (w'.giveBack T link) := by
  unfold World.giveBack
  exact (h.setPool (by rw [h.pool])).settleForsaken hT

theorem discard (hs : s.Alike s') (link : LinkId) :
    Twin f R (w.discard T s link) (w'.discard T s' link) := by
  unfold World.discard
  have pools : w'.pool.drop s'.config w'.clock link = w.pool.drop s.config w.clock link := by
    rw [h.pool, h.clock, hs.config]
  exact ((h.setPool pools).close hT link).settleForsaken hT

/-! ## Borrowing an idle link -/

theorem tryBorrowFuel (hs : s.Alike s') (fuel : Nat) :
    Alike (Twin f R) (World.tryBorrowFuel T s fuel w) (World.tryBorrowFuel T s' fuel w') := by
  induction fuel generalizing w w' with
  | zero => exact ⟨rfl, h⟩
  | succ fuel ih =>
    have htake : w'.pool.take s'.config w'.clock = w.pool.take s.config w.clock := by
      rw [h.pool, h.clock, hs.config]
    unfold World.tryBorrowFuel
    rw [htake, hs.config]
    cases w.pool.take s.config w.clock with
    | none => exact ⟨rfl, h⟩
    | some taken =>
      obtain ⟨link, pool⟩ := taken
      have lent : Twin f R { w with pool } { w' with pool } := h.setPool rfl
      dsimp only
      split
      · obtain ⟨answer, v, v', hping, hping', hv⟩ := (lent.ping hT link).exists_pair
        rw [hping, hping']
        cases answer with
        | ok _ => exact ⟨rfl, hv⟩
        | error e =>
          dsimp only
          rw [hs.checkFailed]
          have blamed : v'.pool.blame e.message = v.pool.blame e.message := by rw [hv.pool]
          exact ih (((hv.raise (checkFailed s e)).setPool blamed).discard hT hs link)
      · exact ⟨rfl, lent⟩

theorem tryBorrow (hs : s.Alike s') :
    Alike (Twin f R) (w.tryBorrow T s) (w'.tryBorrow T s') := by
  unfold World.tryBorrow
  rw [h.pool]
  exact h.tryBorrowFuel hT hs _

end Links

include h in
theorem giveUp : Alike (Twin f R) w.giveUp w'.giveUp := by
  cases h with
  | intro r hr => exact ⟨rfl, .intro w.giveUp.2 r hr⟩

/-! ## Answers without waiting -/

section Answers

include hT h in
theorem answerNow_push (link : LinkId) (key : String) (payload : Bytes) :
    Alike (Twin f R) (w.answerNow T s (.push link key payload))
      (w'.answerNow T s' (.push link key (f payload))) := by
  have began : Twin f R (w.record (.began link key payload))
      (w'.record (.began link key (f payload))) := h.record rfl
  obtain ⟨-, hbegun⟩ := hT.beginPush link key payload _ _ began.remote
  obtain ⟨hanswer, hended⟩ := hT.endPush link key payload _ _ hbegun
  exact ⟨hanswer, began.touch hended (congrArg (Act.ended link) hanswer.symm)⟩

variable (hs : s.Alike s')

include hT hs h

theorem answerNow {r : Request} (hr : r.isMute = true) :
    Alike (Twin f R) (w.answerNow T s r) (w'.answerNow T s' r) := by
  cases r with
  | push => cases hr
  | openPool => exact ⟨rfl, h.setPool (by rw [h.pool, h.clock, hs.config])⟩
  | forsakePool => exact ⟨rfl, h.settleForsaken hT⟩
  | borrow =>
    obtain ⟨link, v, v', htried, htried', hv⟩ := (h.tryBorrow hT hs).exists_pair
    unfold World.answerNow
    dsimp only
    rw [htried, htried']
    cases link with
    | some link => exact ⟨rfl, hv⟩
    | none => exact hv.giveUp
  | tryBorrow => exact h.tryBorrow hT hs
  | ping link => exact h.ping hT link
  | reset link => exact h.reset hT link
  | giveBack link => exact ⟨rfl, h.giveBack hT link⟩
  | discard link => exact ⟨rfl, h.discard hT hs link⟩
  | newToken name parent =>
    cases h with
    | intro r hremote => cases parent <;> exact ⟨rfl, .intro _ r hremote⟩
  | _ =>
    cases h with
    | intro r hremote => exact ⟨rfl, .intro _ r hremote⟩

/-- A talk whose requests are answered without waiting. -/
theorem runNow {α : Type} {d d' : Dialogue α} (hd : d.Mirrors f d') :
    Alike (Twin f R) (d.run (World.answerNow T s) w) (d'.run (World.answerNow T s') w') :=
  hd.run (fun _ _ _ hr hv => hv.answerNow hT hs hr)
    (fun link key payload _ _ hv => hv.answerNow_push hT link key payload) h

/-! ## As time passes -/

theorem settleOpening (index : Nat) :
    Twin f R (w.settleOpening T s index) (w'.settleOpening T s' index) := by
  obtain ⟨answer, r, r', hconnect, hconnect', hr⟩ :=
    (hT.connect w.pool.opened _ _ h.remote).exists_pair
  unfold World.settleOpening
  dsimp only
  rw [h.pool, hconnect, hconnect']
  cases answer with
  | ok _ => exact (h.setPool (p := w.pool.arrive index) rfl).touch hr rfl
  | error e =>
    have pools : w.pool.postpone s'.config w'.clock index e.message =
        w.pool.postpone s.config w.clock index e.message := by
      rw [h.clock, hs.config]
    exact ((h.setPool pools).touch hr rfl).raiseAside (hs.checkFailed e)

/-- Taking care of links in the background. -/
theorem quietly {d d' : Dialogue Unit} (heq : d' = d) (hd : d.Only Request.isMute) :
    Twin f R (w.quietly fun w => (d.run (World.answerNow T s) w).2)
      (w'.quietly fun w => (d'.run (World.answerNow T s') w).2) := by
  rw [heq]
  exact h.hush (h.runNow hT hs (.of_mute hd)).2

theorem happen (happening : Happening) :
    Twin f R (w.happen T s happening) (w'.happen T s' happening) := by
  cases happening with
  | opening index => exact h.settleOpening hT hs index
  | errand index =>
    unfold World.happen
    dsimp only
    rw [h.errands]
    cases w.errands[index]? with
    | none => exact h
    | some errand =>
      exact (h.setErrands rfl).quietly hT hs (hs.release errand.link errand.healthy)
        (s.release_mute errand.link errand.healthy)
  | eviction =>
    have evicted := h.quietly hT hs hs.evict s.evict_mute
    exact evicted.setPool (by rw [evicted.pool, evicted.clock, hs.config])

/-- Either something is due in both, or nothing is in either. -/
theorem next_cases (limit : Nat) :
    (w.next? T s limit = none ∧ w'.next? T s' limit = none) ∨
      ∃ v v', w.next? T s limit = some v ∧ w'.next? T s' limit = some v' ∧ Twin f R v v' := by
  unfold World.next?
  rw [h.agenda T]
  cases earliest (w.agenda T) with
  | none => exact .inl ⟨rfl, rfl⟩
  | some next =>
    obtain ⟨due, happening⟩ := next
    dsimp only
    split
    · exact .inr ⟨_, _, rfl, rfl, (h.setClock (by rw [h.clock])).happen hT hs happening⟩
    · exact .inl ⟨rfl, rfl⟩

theorem passFuel (limit fuel : Nat) :
    Twin f R (World.passFuel T s limit fuel w) (World.passFuel T s' limit fuel w') := by
  induction fuel generalizing w w' with
  | zero => exact h
  | succ fuel ih =>
    unfold World.passFuel
    obtain ⟨hnone, hnone'⟩ | ⟨v, v', hsome, hsome', hv⟩ := h.next_cases hT hs limit
    · rw [hnone, hnone']
      exact h.setClock (by rw [h.clock])
    · rw [hsome, hsome']
      exact ih hv

theorem pass (limit : Nat) : Twin f R (w.pass T s limit) (w'.pass T s' limit) := by
  unfold World.pass
  rw [h.busyFuel hs]
  exact h.passFuel hT hs limit _

/-- A goal is reached at the same time in both, if it is one that twins share. -/
theorem passUntil {goal goal' : World σ → Bool} (limit : Nat)
    (hgoal : ∀ v v', Twin f R v v' → goal' v' = goal v) :
    Alike (Twin f R) (w.passUntil T s limit goal) (w'.passUntil T s' limit goal') := by
  unfold World.passUntil
  rw [h.busyFuel hs]
  generalize w.busyFuel s limit = fuel
  induction fuel generalizing w w' with
  | zero => exact ⟨(hgoal w w' h).symm, h⟩
  | succ fuel ih =>
    unfold World.untilFuel
    rw [hgoal w w' h]
    split
    · exact ⟨rfl, h⟩
    · obtain ⟨hnone, hnone'⟩ | ⟨v, v', hsome, hsome', hv⟩ := h.next_cases hT hs limit
      · rw [hnone, hnone']
        exact ⟨rfl, h.setClock (by rw [h.clock])⟩
      · rw [hsome, hsome']
        exact ih hv

/-! ## Waiting -/

theorem borrowFuel (deadline fuel : Nat) :
    Alike (Twin f R) (World.borrowFuel T s deadline fuel w)
      (World.borrowFuel T s' deadline fuel w') := by
  induction fuel generalizing w w' with
  | zero => exact h.giveUp
  | succ fuel ih =>
    obtain ⟨link, v, v', htried, htried', hv⟩ := (h.tryBorrow hT hs).exists_pair
    unfold World.borrowFuel
    rw [htried, htried']
    cases link with
    | some link => exact ⟨rfl, hv⟩
    | none =>
      have opened : v'.pool.openOne s'.config v'.clock = v.pool.openOne s.config v.clock := by
        rw [hv.pool, hv.clock, hs.config]
      have roused (u u' : World σ) (hu : Twin f R u u') :
          (u'.pool.wakeups != (v'.pool.openOne s'.config v'.clock).wakeups) =
            (u.pool.wakeups != (v.pool.openOne s.config v.clock).wakeups) := by
        rw [hu.pool, opened]
      obtain ⟨reached, u, u', hwoken, hwoken', hu⟩ :=
        ((hv.setPool opened).passUntil hT hs deadline roused).exists_pair
      dsimp only
      rw [hwoken, hwoken']
      cases reached with
      | true => exact ih hu
      | false => exact hu.giveUp

theorem borrow : Alike (Twin f R) (w.borrow T s) (w'.borrow T s') := by
  unfold World.borrow
  dsimp only
  rw [h.clock, hs.config, h.busyFuel hs]
  exact h.borrowFuel hT hs _ _

theorem drain (ms : Option Nat) : Alike (Twin f R) (w.drain T s ms) (w'.drain T s' ms) := by
  have returned (v v' : World σ) (hv : Twin f R v v') :
      v'.pool.lent.isEmpty = v.pool.lent.isEmpty := by
    rw [hv.pool]
  unfold World.drain
  rw [h.clock, h.errands]
  have after (limit : Nat) := (h.passUntil hT hs limit returned).2
  exact ⟨congrArg (·.lent.length) (after _).pool.symm, after _⟩

theorem wait (token : Cancel.TokenId) (ms : Nat) :
    Alike (Twin f R) (w.wait T s token ms) (w'.wait T s' token ms) := by
  unfold World.wait
  rw [h.handles, h.clock]
  split
  · exact ⟨rfl, h⟩
  · exact ⟨rfl, h.pass hT hs _⟩

theorem answerPatiently {r : Request} (hr : r.isMute = true) :
    Alike (Twin f R) (w.answerPatiently T s r) (w'.answerPatiently T s' r) := by
  cases r with
  | push => cases hr
  | borrow => exact h.borrow hT hs
  | drain ms => exact h.drain hT hs ms
  | wait token ms => exact h.wait hT hs token ms
  | _ => exact h.answerNow hT hs hr

end Answers

/-- Calls made one after the other, if each comes back the same in both. -/
theorem calls {call call' : Call → World σ → Delivery.Reply × World σ}
    (hcall : ∀ c v v', Twin f R v v' → Alike (Twin f R) (call c v) (call' (c.map f) v'))
    (cs : List Call) (h : Twin f R w w') :
    Twin f R (cs.foldl (fun w c => (call c w).2.record (.called (call c w).1)) w)
      ((cs.map (Call.map f)).foldl (fun w c => (call' c w).2.record (.called (call' c w).1)) w') := by
  induction cs generalizing w w' with
  | nil => exact h
  | cons c rest ih =>
    obtain ⟨hreply, hafter⟩ := hcall c w w' h
    exact ih (hafter.record (congrArg Act.called hreply.symm))

include h hT in
/-- A push, where the calls made from inside come back the same in both. -/
theorem push {call call' : Call → World σ → Delivery.Reply × World σ}
    (hcall : ∀ c v v', Twin f R v v' → Alike (Twin f R) (call c v) (call' (c.map f) v'))
    (link : LinkId) (key : String) (payload : Bytes) :
    Alike (Twin f R) (w.push T call link key payload) (w'.push T call' link key (f payload)) := by
  have began : Twin f R (w.record (.began link key payload))
      (w'.record (.began link key (f payload))) := h.record rfl
  obtain ⟨hcalls, hbegun⟩ := hT.beginPush link key payload _ _ began.remote
  unfold World.push
  dsimp only
  rw [hcalls]
  have called := calls hcall
    (T.beginPush link key payload (w.record (.began link key payload)).remote).1
    (began.setRemote hbegun)
  obtain ⟨hanswer, hended⟩ := hT.endPush link key payload _ _ called.remote
  exact ⟨hanswer, called.touch hended (congrArg (Act.ended link) hanswer.symm)⟩

end Pools

/-! ## Calls -/

theorem overheard {x x' : Delivery.Reply × World σ} (c : Call) (h : Twin f R w w')
    (hx : Alike (Twin f R) x x') :
    Alike (Twin f R) (World.overheard c w x) (World.overheard (c.map f) w' x') := by
  unfold World.overheard
  rw [c.isHeard_map]
  split
  · exact hx
  · exact ⟨hx.1, h.hush hx.2⟩

/-- A call, where the requests of its talk are answered the same in both. -/
theorem call_of_answer {e e' : Engine} (he : e.Alike e')
    {answer answer' : (r : Request) → World σ → r.Answer × World σ}
    (hmute : ∀ r v v', r.isMute = true → Twin f R v v' →
      Alike (Twin f R) (answer r v) (answer' r v'))
    (hpush : ∀ l k p v v', Twin f R v v' →
      Alike (Twin f R) (answer (.push l k p) v) (answer' (.push l k (f p)) v'))
    (h : Twin f R w w') (c : Call) :
    Alike (Twin f R) (World.overheard c w ((c.dialogue e).run answer w))
      (World.overheard (c.map f) w' (((c.map f).dialogue e').run answer' w')) := by
  rw [he.dialogue]
  exact h.overheard c ((c.mirrors f e).run hmute hpush h)

variable {e e' : Engine} (hT : T.Blind f e.pool.endpoint e'.pool.endpoint R) (he : e.Alike e')

include hT he

theorem answer_mute (h : Twin f R w w') (depth : Nat) {r : Request} (hr : r.isMute = true) :
    Alike (Twin f R) (World.answer T e depth r w) (World.answer T e' depth r w') := by
  have patiently := h.answerPatiently hT he.pool hr
  cases depth with
  | zero => exact patiently
  | succ depth =>
    cases r with
    | push => cases hr
    | _ => exact patiently

/-- **What a push does**, with all that is called from inside it. -/
theorem answer_push (h : Twin f R w w') (depth : Nat) (link : LinkId) (key : String)
    (payload : Bytes) :
    Alike (Twin f R) (World.answer T e depth (.push link key payload) w)
      (World.answer T e' depth (.push link key (f payload)) w') := by
  induction depth generalizing w w' link key payload with
  | zero => exact h.answerNow_push hT link key payload
  | succ depth ih =>
    exact h.push hT
      (fun c v v' hv => call_of_answer he
        (fun _ _ _ hr hv => hv.answer_mute hT he depth hr)
        (fun l k p _ _ hv => ih hv l k p) hv c)
      link key payload

end Twin

end World

end LogShipper
