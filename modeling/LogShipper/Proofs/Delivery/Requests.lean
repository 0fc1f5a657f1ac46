import LogShipper.Delivery.Lease
import LogShipper.Proofs.Delivery.Exchanges
import LogShipper.Proofs.Delivery.Protocol

/-!
# Which requests a talk makes

`Dialogue.Only ok d` says that `d` makes no requests but such as `ok` accepts. Giving a link back
and checking idle links takes only care of links (`Request.isCare`): it pushes nothing, and leaves
everything alone but the links.

Results:
* `Only.run`: what the answers to such requests keep holds after a run.
* `Only.run_congr`: two who answer such requests alike.
* `Calm.pushes_eq_nil`, `Calm.alarms_eq_nil`: exchanges that leave the keys alone.
* `release_only`: giving a link back makes no requests but such as it needs.
* `evict_checks`: checking idle links makes no requests but such as it needs.
* `release_cares`, `evict_cares`: taking care of links.
* `shutdown_parts`: the end of a pool.
-/

namespace LogShipper.Delivery

open Dialogue (Trace Reaches)

/-- The rules that a talk keeps if it makes only some requests. -/
def only (ok : Request → Bool) : Protocol Unit where
  allows _ r := ok r = true
  admits _ _ _ := True
  after _ _ _ := ()

/-- A talk makes only requests that `ok` accepts. -/
def Dialogue.Only {α : Type} (ok : Request → Bool) (d : Dialogue α) : Prop :=
  d.Abides (only ok) () fun _ _ => True

namespace Dialogue.Only

variable {α β σ : Type} {ok ok' : Request → Bool} {d : Dialogue α}

theorem done {a : α} : (Dialogue.done a).Only ok := trivial

theorem ask {r : Request} {next : r.Answer → Dialogue α} (hr : ok r = true)
    (h : ∀ x, (next x).Only ok) : (Dialogue.ask r next).Only ok :=
  ⟨hr, fun x _ => h x⟩

theorem bind {f : α → Dialogue β} (hd : d.Only ok) (hf : ∀ a, (f a).Only ok) :
    (d.bind f).Only ok :=
  Abides.bind hd fun a _ _ => hf a

theorem log {l : Level} {s : Source} {m : String} {fields : List (String × String)}
    (h : ok (.log ⟨l, s, m, fields⟩) = true) : (Dialogue.log l s m fields).Only ok :=
  ask h fun _ => done

theorem mono (h : d.Only ok) (himp : ∀ r, ok r = true → ok' r = true) : d.Only ok' := by
  induction d with
  | done a => exact done
  | ask r next ih => exact ask (himp r h.1) fun x => ih x (h.2 x trivial)

/-- Every talk makes some requests or other. -/
theorem all (d : Dialogue α) : d.Only fun _ => true := by
  induction d with
  | done a => exact done
  | ask r next ih => exact ask rfl ih

/-- What the answers to such requests keep holds after a run. -/
theorem run {I : σ → Prop} {answer : (r : Request) → σ → r.Answer × σ} (h : d.Only ok)
    (hI : ∀ r w, ok r = true → I w → I (answer r w).2) {w : σ} (hw : I w) :
    I (d.run answer w).2 := by
  obtain ⟨-, -, hrun⟩ := Abides.run (I := fun _ => I) h
    (fun _ r w hw hr => ⟨trivial, hI r w hr hw⟩) hw
  exact hrun

/-- Wherever a run makes a request, it is such a one, and what the answers keep holds. -/
theorem reaches {I : σ → Prop} {answer : (r : Request) → σ → r.Answer × σ} (h : d.Only ok)
    (hI : ∀ r w, ok r = true → I w → I (answer r w).2) {w w' : σ} {r : Request} (hw : I w)
    (hr : Reaches answer d w r w') : ok r = true ∧ I w' := by
  obtain ⟨_, hok, hreached⟩ := Abides.reaches (I := fun _ => I) h
    (fun _ r w hw hr => ⟨trivial, hI r w hr hw⟩) hw hr
  exact ⟨hok, hreached⟩

/-- **Two who answer such requests alike**, from related states, come to the same result, and to
related states again. -/
theorem run_congr {τ : Type} {R : τ → σ → Prop} {answer : (r : Request) → σ → r.Answer × σ}
    {answer' : (r : Request) → τ → r.Answer × τ} (h : d.Only ok)
    (hstep : ∀ r v w, ok r = true → R v w →
      (answer r w).1 = (answer' r v).1 ∧ R (answer' r v).2 (answer r w).2)
    {v : τ} {w : σ} (hR : R v w) :
    (d.run answer w).1 = (d.run answer' v).1 ∧ R (d.run answer' v).2 (d.run answer w).2 := by
  induction d generalizing v w with
  | done a => exact ⟨rfl, hR⟩
  | ask r next ih =>
    obtain ⟨hanswer, hafter⟩ := hstep r v w h.1 hR
    unfold Dialogue.run
    rw [hanswer]
    exact ih _ (h.2 _ trivial) hafter

/-- All requests of a trace are such ones. -/
theorem requests (h : d.Only ok) {t : List Exchange} {a : α} (ht : Trace d t a) :
    ∀ x ∈ t, ok x.request = true := by
  induction ht with
  | done a => exact fun _ hx => absurd hx List.not_mem_nil
  | ask _ ih =>
    intro x hx
    rcases List.mem_cons.mp hx with rfl | hx
    · exact h.1
    · exact ih (h.2 _ trivial) x hx

/-- Without a request to log an alarm there is none. -/
theorem alarms_eq_nil (h : d.Only ok)
    (hok : ∀ entry, ok (.log entry) = true → entry.isAlarm = false)
    {t : List Exchange} {a : α} (ht : Trace d t a) : alarms t = [] := by
  refine List.filter_eq_nil_iff.mpr fun entry hentry => ?_
  obtain ⟨x, hx, hlogged⟩ := List.mem_filterMap.mp hentry
  have hr := h.requests ht x hx
  obtain ⟨r, y⟩ := x
  cases r with
  | log logged =>
    obtain rfl : logged = entry := Option.some.inj hlogged
    rw [hok logged hr]
    exact Bool.false_ne_true
  | _ => cases hlogged

end Dialogue.Only

/-! ## Calm -/

/-- The requests that leave the keys alone: no push, no wait for a try, and nothing that is logged
of either. -/
def Request.isCalm : Request → Bool
  | .push _ _ _ => false
  | .wait _ _ => false
  | .log entry => entry.isCalm
  | _ => true

/-- Exchanges that leave the keys alone. -/
def Calm (t : List Exchange) : Prop := ∀ x ∈ t, x.request.isCalm = true

namespace Calm

variable {t u : List Exchange}

theorem nil : Calm [] := fun _ hx => absurd hx List.not_mem_nil

theorem cons {x : Exchange} (hx : x.request.isCalm = true) (h : Calm t) : Calm (x :: t) :=
  List.forall_mem_cons.mpr ⟨hx, h⟩

theorem append (h : Calm t) (hu : Calm u) : Calm (t ++ u) :=
  List.forall_mem_append.mpr ⟨h, hu⟩

theorem pushes_eq_nil (h : Calm t) : pushes t = [] := by
  refine List.filterMap_eq_nil_iff.mpr fun x hx => ?_
  have hr := h x hx
  obtain ⟨r, y⟩ := x
  cases r with
  | push link key payload => cases hr
  | _ => rfl

theorem pushes_noted (h : Calm t) (entry : LogEntry) : pushes (t ++ [.logged entry]) = [] := by
  rw [pushes_append, h.pushes_eq_nil]
  rfl

theorem isCalm_of_mem (h : Calm t) : ∀ entry ∈ entries t, entry.isCalm = true := by
  intro entry hentry
  obtain ⟨x, hx, hlogged⟩ := List.mem_filterMap.mp hentry
  have hr := h x hx
  obtain ⟨r, y⟩ := x
  cases r with
  | log logged =>
    obtain rfl : logged = entry := Option.some.inj hlogged
    exact hr
  | _ => cases hlogged

theorem alarms_eq_nil (h : Calm t) : alarms t = [] := by
  refine List.filter_eq_nil_iff.mpr fun entry hentry => ?_
  rw [LogEntry.isAlarm_of_isCalm (h.isCalm_of_mem entry hentry)]
  exact Bool.false_ne_true

end Calm

/-! ## Taking care of links -/

/-- The requests that giving a link back needs. -/
def Request.isTidy : Request → Bool
  | .ping _ => true
  | .reset _ => true
  | .idleCount => true
  | .giveBack _ => true
  | .discard _ => true
  | .log entry => entry.isCalm
  | _ => false

/-- The requests that checking idle links needs. -/
def Request.isCheck : Request → Bool
  | .tryBorrow => true
  | .ping _ => true
  | .giveBack _ => true
  | .discard _ => true
  | .log _ => true
  | _ => false

/-- The requests that taking care of links needs. -/
def Request.isCare : Request → Bool
  | .tryBorrow => true
  | .ping _ => true
  | .reset _ => true
  | .idleCount => true
  | .giveBack _ => true
  | .discard _ => true
  | .log _ => true
  | _ => false

/-- A talk that takes only care of links. -/
abbrev Dialogue.Cares {α : Type} (d : Dialogue α) : Prop := d.Only Request.isCare

theorem Request.isCare_of_isTidy {r : Request} (h : r.isTidy = true) : r.isCare = true := by
  cases r <;> first | rfl | exact h

theorem Request.isCare_of_isCheck {r : Request} (h : r.isCheck = true) : r.isCare = true := by
  cases r <;> first | rfl | exact h

theorem Request.isCalm_of_isTidy {r : Request} (h : r.isTidy = true) : r.isCalm = true := by
  cases r <;> first | rfl | exact h

namespace PoolSettings

variable (p : PoolSettings) (link : LinkId)

/-- `ok` accepts the requests that giving a link back needs; what is logged of it is the pool's. -/
def Tidied (ok : Request → Bool) : Prop :=
  ∀ r : Request, r.isTidy = true → (∀ entry, r = .log entry → entry.source = .pool) → ok r = true

variable {ok : Request → Bool} (hok : Tidied ok)
include hok

theorem Tidied.log {level : Level} {message : String} {fields : List (String × String)}
    (h : level = .debug ∨ level = .warn) : (p.log level message fields).Only ok := by
  refine .log (hok _ ?_ ?_)
  · rcases h with rfl | rfl <;> rfl
  · rintro _ ⟨⟩
    rfl

theorem discard_only : (discard link).Only ok := .ask (hok _ rfl nofun) fun _ => .done

theorem putBack_only : (p.putBack link).Only ok := by
  refine .ask (hok _ rfl nofun) fun idle => ?_
  split
  · exact .bind (hok.log p (.inl rfl)) fun _ => discard_only link hok
  · exact .ask (hok _ rfl nofun) fun _ => .done

theorem checkReturned_only : (p.checkReturned link).Only ok := by
  unfold checkReturned
  split
  · refine .ask (hok _ rfl nofun) fun x => ?_
    cases x with
    | ok _ => exact p.putBack_only link hok
    | error _ => exact .bind (hok.log p (.inr rfl)) fun _ => discard_only link hok
  · exact p.putBack_only link hok

/-- **Giving a link back** makes no requests but such as it needs. -/
theorem release_only (healthy : Bool) : (p.release link healthy).Only ok := by
  unfold release
  split
  · refine .ask (hok _ rfl nofun) fun x => ?_
    cases x with
    | ok _ => exact p.checkReturned_only link hok
    | error _ => exact .bind (hok.log p (.inr rfl)) fun _ => discard_only link hok
  · exact .bind (hok.log p (.inl rfl)) fun _ => discard_only link hok

omit hok

theorem release_tidies (healthy : Bool) : (p.release link healthy).Only Request.isTidy :=
  p.release_only link (fun _ hr _ => hr) healthy

/-- Giving a link back leaves the keys alone. -/
theorem calm_release {healthy : Bool} {t : List Exchange} {r : Unit}
    (h : Trace (p.release link healthy) t r) : Calm t :=
  fun x hx => Request.isCalm_of_isTidy ((p.release_tidies link healthy).requests h x hx)

theorem release_cares (healthy : Bool) : (p.release link healthy).Cares :=
  (p.release_tidies link healthy).mono fun _ => Request.isCare_of_isTidy

theorem gather_checks (n : Nat) : (gather n).Only Request.isCheck := by
  induction n with
  | zero => exact .done
  | succ n ih =>
    refine .ask rfl fun x => ?_
    cases x with
    | none => exact .done
    | some link => exact .bind ih fun _ => .done

theorem probe_checks (batch : List LinkId) : (p.probe batch).Only Request.isCheck := by
  induction batch with
  | nil => exact .done
  | cons link rest ih =>
    refine .ask rfl fun x => ?_
    cases x with
    | ok _ => exact ih
    | error _ => exact .bind (.log rfl) fun _ => .bind ih fun _ => .done

theorem disband_checks (failed batch : List LinkId) :
    (disband failed batch).Only Request.isCheck := by
  induction batch with
  | nil => exact .done
  | cons link rest ih =>
    refine .ask ?_ fun _ => ih
    split <;> rfl

/-- **Checking idle links** makes no requests but such as it needs. -/
theorem evict_checks : p.evict.Only Request.isCheck := by
  refine .bind (gather_checks _) fun batch => .bind (p.probe_checks batch) fun failed => ?_
  show Dialogue.Only _ (if batch ≠ [] then _ else _)
  split
  · exact .bind (.log rfl) fun _ => disband_checks failed batch
  · exact disband_checks failed batch

theorem evict_cares : p.evict.Cares := p.evict_checks.mono fun _ => Request.isCare_of_isCheck

end PoolSettings

/-! ## Winding up -/

/-- The requests that the end of a pool needs. -/
def Request.isParting : Request → Bool
  | .closePool => true
  | .drain _ => true
  | .forsakePool => true
  | .log _ => true
  | _ => false

theorem PoolSettings.shutdown_parts (p : PoolSettings) (ms : Option Nat) :
    (p.shutdown ms).Only Request.isParting := by
  have log {l : Level} {m : String} {fields : List (String × String)} :
      (p.log l m fields).Only Request.isParting := .log rfl
  refine .ask rfl fun phase => ?_
  cases phase with
  | created => exact .done
  | shutDown => exact .done
  | running =>
    refine .ask rfl fun lent => ?_
    show Dialogue.Only _ (if lent ≠ 0 then _ else _)
    split
    · exact .bind log fun _ => .bind (.ask rfl fun _ => .done) fun _ => .bind log fun _ => .done
    · exact .bind (.ask rfl fun _ => .done) fun _ => .bind log fun _ => .done

end LogShipper.Delivery
