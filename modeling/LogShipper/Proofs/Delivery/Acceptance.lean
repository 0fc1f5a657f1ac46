import LogShipper.Proofs.Delivery.Batches
import LogShipper.Proofs.Delivery.Ledger
import LogShipper.Proofs.Delivery.Mirrors

/-!
# What the lists take

`taken key t` are the payloads that the list of a key took in the exchanges `t`, in order. A key may
stand in a destination several times, and a payload is pushed to its list once for each of these
positions. So the list takes each payload of a call at most so often (`InTurn`), the payloads in the
order in which they were to be sent, and a payload that is delivered just so often
(`Engine.TookAll`).

A `Duty` is a call that somebody makes who shares an engine with others: to send one payload or
many, or to check idle links in the background.

Results:
* `taken_turns`: what a list took in the turns of keys.
* `Duty.inTurn`: what a list took on behalf of a call.
* `Duty.agrees`: what a call comes back with agrees with that.
-/

namespace LogShipper.Delivery

open Cancel (TokenId)
open Dialogue (Trace)

/-! ## What a list took -/

/-- The payloads that the list of a key took, in order. -/
def taken (key : String) (t : List Exchange) : List Bytes :=
  ((pushes t).filter fun p => p.key == key && p.isAccepted).map Pushed.payload

section Taken

variable {key : String} {t : List Exchange}

@[simp] theorem taken_append (key : String) (t u : List Exchange) :
    taken key (t ++ u) = taken key t ++ taken key u := by
  rw [taken, pushes_append, List.filter_append, List.map_append]
  rfl

theorem taken_of_pushes_eq_nil (h : pushes t = []) : taken key t = [] := by
  rw [taken, h]
  rfl

theorem taken_flatMap {γ : Type} (key : String) (f : γ → List Exchange) (l : List γ) :
    taken key (l.flatMap f) = l.flatMap fun c => taken key (f c) := by
  induction l with
  | nil => rfl
  | cons c l ih => rw [List.flatMap_cons, taken_append, ih, List.flatMap_cons]

/-- Of what lies between exchanges that push nothing, and only of that, a list takes anything. -/
theorem taken_between {before after : List Exchange} (hbefore : pushes before = [])
    (hafter : pushes after = []) : taken key (before ++ (t ++ after)) = taken key t := by
  rw [taken_append, taken_append, taken_of_pushes_eq_nil hbefore, taken_of_pushes_eq_nil hafter,
    List.nil_append, List.append_nil]

/-- Without a request to push there are no pushes. -/
theorem Dialogue.Only.pushes_eq_nil {α : Type} {d : Dialogue α} (h : d.Only Request.isMute)
    {a : α} (ht : Trace d t a) : pushes t = [] := by
  refine List.filterMap_eq_nil_iff.mpr fun x hx => ?_
  have hr := h.requests ht x hx
  obtain ⟨r, y⟩ := x
  cases r with
  | push link key payload => cases hr
  | _ => rfl

end Taken

/-! ## In turn -/

/-- In the second list the items of the first one stand in order, each of them up to `n` times. -/
inductive InTurn {α : Type} (n : Nat) : List α → List α → Prop where
  | nil : InTurn n [] []
  | cons {a : α} {l m : List α} {k : Nat} (hk : k ≤ n) (h : InTurn n l m) :
      InTurn n (a :: l) (List.replicate k a ++ m)

namespace InTurn

variable {α : Type} {n : Nat} {l l' m m' : List α}

/-- None of the items. -/
theorem none (l : List α) : InTurn n l [] := by
  induction l with
  | nil => exact .nil
  | cons a l ih => exact .cons (k := 0) (Nat.zero_le n) ih

theorem replicate (a : α) {k : Nat} (hk : k ≤ n) : InTurn n [a] (List.replicate k a) := by
  have one : InTurn n [a] (List.replicate k a ++ []) := .cons hk .nil
  rwa [List.append_nil] at one

theorem append (h : InTurn n l m) (h' : InTurn n l' m') : InTurn n (l ++ l') (m ++ m') := by
  induction h with
  | nil => exact h'
  | cons hk _ ih =>
    rw [List.append_assoc]
    exact .cons hk ih

theorem flatMap {γ : Type} {f g : γ → List α} {items : List γ}
    (h : ∀ c ∈ items, InTurn n (f c) (g c)) : InTurn n (items.flatMap f) (items.flatMap g) := by
  induction items with
  | nil => exact .nil
  | cons c items ih =>
    exact (h c List.mem_cons_self).append (ih fun b hb => h b (List.mem_cons_of_mem c hb))

/-- Items may be left over. -/
theorem mono_left (h : InTurn n l m) (hl : l <+: l') : InTurn n l' m := by
  obtain ⟨rest, rfl⟩ := hl
  have all := h.append (none rest)
  rwa [List.append_nil] at all

/-- It may break off anywhere: the item at hand then stands fewer times, and those after it not at
all. -/
theorem prefix_of (h : InTurn n l m) (hm : m' <+: m) : InTurn n l m' := by
  induction h generalizing m' with
  | nil =>
    rw [List.prefix_nil.mp hm]
    exact .nil
  | @cons a l m k hk h ih =>
    rcases Nat.le_total m'.length k with hle | hle
    · have within : m' <+: List.replicate k a :=
        List.prefix_of_prefix_length_le hm (List.prefix_append _ m)
          (by rwa [List.length_replicate])
      rw [(List.prefix_replicate_iff.mp within).2]
      exact (replicate a (Nat.le_trans hle hk)).mono_left (List.prefix_append [a] l)
    · obtain ⟨rest, rfl⟩ : List.replicate k a <+: m' :=
        List.prefix_of_prefix_length_le (List.prefix_append _ m) hm
          (by rwa [List.length_replicate])
      exact .cons hk (ih ((List.prefix_append_right_inj _).mp hm))

end InTurn

/-! ## The turns of keys -/

section Turns

variable {e : Engine} {link : LinkId} {payload : Bytes} {token : TokenId} {turns : List Turn}

/-- The list of a key takes a payload once if its push was accepted, and other lists never do. -/
theorem taken_push {key : String} {policy : RetryPolicy} {t : List Exchange} {o : KeyOutcome}
    (h : Trace (push link key payload policy token) t o) (other : String) :
    taken other t = List.replicate (if key == other && o.isDelivered then 1 else 0) payload := by
  obtain ⟨errors, answer, ht, ho⟩ := trace_push h
  have rejected : (errors.map fun e => (⟨link, key, payload, .error (.command e)⟩ : Pushed)).filter
      (fun p => p.key == other && p.isAccepted) = [] := by
    refine List.filter_eq_nil_iff.mpr fun p hp => ?_
    obtain ⟨e, -, rfl⟩ := List.mem_map.mp hp
    simp [Pushed.isAccepted]
  have last : ∀ accepted : Bool, (Pushed.mk link key payload answer).isAccepted = accepted →
      taken other t = List.replicate (if key == other && accepted then 1 else 0) payload := by
    rintro accepted rfl
    rw [taken, ht, List.filter_append, rejected, List.nil_append, List.filter_cons, List.filter_nil]
    dsimp only
    cases (key == other && (Pushed.mk link key payload answer).isAccepted) <;> rfl
  refine last o.isDelivered ?_
  cases o with
  | delivered n =>
    obtain rfl : answer = .ok () := ho
    rfl
  | exhausted n error =>
    obtain ⟨e, rfl⟩ := ho
    rfl
  | cancelled n =>
    obtain ⟨e, rfl⟩ := ho
    rfl
  | lost reason =>
    obtain rfl : answer = .error (.connection reason) := ho
    rfl

/-- **What a list took in turns of keys**: the payload, for each turn of its key that ended with an
accepted push. -/
theorem taken_turns (h : ∀ u ∈ turns, u.Holds e link payload token) (key : String) :
    taken key (turns.flatMap Turn.tries) =
      List.replicate (turns.countP fun u => u.key == key && u.outcome.isDelivered) payload := by
  induction turns with
  | nil => rfl
  | cons u turns ih =>
    rw [List.flatMap_cons, taken_append, taken_push (h u List.mem_cons_self) key,
      ih fun v hv => h v (List.mem_cons_of_mem u hv), List.replicate_append_replicate,
      List.countP_cons, Nat.add_comm]

/-- No key has more turns than it has positions. -/
theorem countP_turns_le (h : turns.map Turn.key <+: e.destination.keys) (key : String) :
    turns.countP (fun u => u.key == key && u.outcome.isDelivered) ≤
      e.destination.keys.count key := by
  calc turns.countP (fun u => u.key == key && u.outcome.isDelivered)
      ≤ turns.countP (fun u => u.key == key) :=
        List.countP_mono_left fun u _ hu => (Bool.and_eq_true_iff.mp hu).1
    _ = (turns.map Turn.key).count key := by
        rw [List.count_eq_countP, List.countP_map]
        rfl
    _ ≤ e.destination.keys.count key := h.sublist.count_le key

/-- A list takes the payload of turns at most as often as its key stands in the destination. -/
theorem inTurn_turns (hkeys : turns.map Turn.key <+: e.destination.keys)
    (hholds : ∀ u ∈ turns, u.Holds e link payload token) (key : String) :
    InTurn (e.destination.keys.count key) [payload] (taken key (turns.flatMap Turn.tries)) := by
  rw [taken_turns hholds]
  exact .replicate payload (countP_turns_le hkeys key)

/-- Every list took the payload once for each position of its key. -/
def Engine.TookAll (e : Engine) (payload : Bytes) (t : List Exchange) : Prop :=
  ∀ key, taken key t = List.replicate (e.destination.keys.count key) payload

/-- Turns that delivered the payload. -/
theorem Concludes.tookAll (hc : Concludes e.destination.keys [] [] turns .delivered)
    (hholds : ∀ u ∈ turns, u.Holds e link payload token) :
    e.TookAll payload (turns.flatMap Turn.tries) := by
  generalize ho : PayloadOutcome.delivered = o at hc
  cases hc with
  | lost before u reason hturns hbefore hu => cases ho
  | kept hkeys hkept =>
    have hnone : keysThat KeyOutcome.isExhausted turns = [] ∧
        keysThat KeyOutcome.isCancelled turns = [] := by
      unfold PayloadOutcome.ofFailures at ho
      split at ho
      · assumption
      · cases ho
    -- no key is reported, so all turns ended with an accepted push, and there is one per position
    have hall := (no_failures_of_kept hkept).mp hnone
    intro key
    rw [taken_turns hholds, ← hkeys, List.count_eq_countP, List.countP_map]
    congr 1
    refine List.countP_congr fun u hu => ?_
    rw [hall u hu, Bool.and_true]
    rfl

end Turns

/-! ## The courses of payloads -/

section Courses

variable {e : Engine} {link : LinkId} {payloads : List Bytes} {t : List Exchange}
  {courses : List Course}

theorem Course.Holds.inTurn {c : Course} (h : c.Holds e link) (key : String) :
    InTurn (e.destination.keys.count key) [c.payload] (taken key c.exchanges) :=
  inTurn_turns h.keys h.turns key

/-- A payload that the store took for every key position is delivered, so every list took it. -/
theorem Course.Holds.tookAll {c : Course} (h : c.Holds e link)
    (hc : c.isTaken e.destination.keys.length = true) : e.TookAll c.payload c.exchanges := by
  rw [← h.isDelivered_eq] at hc
  have hconcludes := h.concludes
  refine Concludes.tookAll ?_ h.turns
  cases ho : c.outcome with
  | delivered => rwa [ho] at hconcludes
  | undelivered exhausted cancelled =>
    rw [ho] at hc
    cases hc
  | lost key reason =>
    rw [ho] at hc
    cases hc

/-- What a list took of a batch it took in the courses of its payloads. -/
theorem Engine.Covers.taken_eq (h : e.Covers payloads t courses) (key : String) :
    taken key t = courses.flatMap fun c => taken key c.exchanges := by
  obtain ⟨before, after, rfl, hbefore, hafter⟩ := h.exchanges
  rw [taken_between hbefore hafter, taken_flatMap]

theorem Engine.Covers.inTurn (h : e.Covers payloads t courses) (key : String) :
    InTurn (e.destination.keys.count key) payloads (taken key t) := by
  have each : InTurn (e.destination.keys.count key) (courses.flatMap fun c => [c.payload])
      (courses.flatMap fun c => taken key c.exchanges) := by
    refine .flatMap fun c hc => ?_
    obtain ⟨link, -, hholds⟩ := h.holds c hc
    exact hholds.inTurn key
  rw [h.taken_eq key]
  refine each.mono_left ?_
  rw [← List.map_eq_flatMap]
  exact h.payloads

end Courses

/-! ## Duties -/

/-- A call of somebody who shares an engine with others. -/
inductive Duty where
  /-- Sends one payload; the waits between tries end when the token is cancelled. -/
  | send (payload : Bytes) (token : TokenId)
  | bulk (payloads : List Bytes)
  /-- Checks idle links in the background. -/
  | check
  deriving DecidableEq, Repr

namespace Duty

/-- The talk of the call. -/
def dialogue (e : Engine) : Duty → Dialogue Reply
  | .send payload token => (e.sendWith payload token).bind fun
    | .ok outcome => .done (.outcome outcome)
    | .error err => .done (.refused err)
  | .bulk payloads => (e.sendBulk payloads).bind fun
    | .ok report => .done (.report report)
    | .error err => .done (.refused err)
  | .check => e.pool.evict.bind fun _ => .done .nothing

/-- The payloads that are to be sent, in order. -/
def payloads : Duty → List Bytes
  | .send payload _ => [payload]
  | .bulk payloads => payloads
  | .check => []

/-- What a call comes back with agrees with what the lists took on its behalf. -/
def Agrees (e : Engine) (t : List Exchange) (reply : Reply) : Duty → Prop
  | .send payload _ => ∃ outcome, reply = .outcome outcome ∧
      (outcome = .delivered → e.TookAll payload t)
  | .bulk payloads => ∃ report courses, reply = .report report ∧ e.Covers payloads t courses ∧
      (∀ key, taken key t = courses.flatMap fun c => taken key c.exchanges) ∧
      (report.delivered = courses.countP fun c => c.isTaken e.destination.keys.length) ∧
      ∀ c ∈ courses, c.isTaken e.destination.keys.length = true → e.TookAll c.payload c.exchanges
  | .check => reply = .nothing ∧ pushes t = []

/-- Every call gives back the links that it borrows. -/
theorem settles (e : Engine) {h : Ledger} (hc : h.Clean) (duty : Duty) :
    (duty.dialogue e).Settles h := by
  cases duty with
  | send payload token =>
    refine (e.sendWith_settles hc payload token).bind fun x => ?_
    cases x <;> exact rfl
  | bulk payloads =>
    refine (e.sendBulk_settles hc payloads).bind fun x => ?_
    cases x <;> exact rfl
  | check => exact (e.pool.evict_settles h).bind fun _ => rfl

/-- No call starts or stops anything. -/
theorem sends (e : Engine) (duty : Duty) : (duty.dialogue e).Sends := by
  cases duty with
  | send payload token =>
    refine .bind (e.sendWith_sends payload token) fun x => ?_
    cases x <;> exact .done
  | bulk payloads =>
    refine .bind (e.sendBulk_sends payloads) fun x => ?_
    cases x <;> exact .done
  | check =>
    exact .bind (e.pool.evict_cares.mono fun _ => Request.isSending_of_isCare) fun _ => .done

variable {e : Engine} {t : List Exchange} {reply : Reply}

/-- **A send**: it is refused, and its lists take nothing; or it comes back with an outcome. -/
theorem trace_send {payload : Bytes} {token : TokenId}
    (h : Trace ((send payload token).dialogue e) t reply) :
    ((∃ phase, phase ≠ Phase.started ∧ (⟨.phase, phase⟩ : Exchange) ∈ t) ∧ pushes t = []) ∨
      ∃ outcome, reply = .outcome outcome ∧ (outcome = .delivered → e.TookAll payload t) ∧
        ∀ key, InTurn (e.destination.keys.count key) [payload] (taken key t) := by
  obtain ⟨t₁, t₂, x, rfl, h₁, h₂⟩ := Dialogue.trace_bind.mp h
  rcases trace_sendWith_cases h₁ with ⟨u, outcome, rfl, rfl, hu⟩ | ⟨phase, error, hphase, rfl, rfl⟩
  · obtain ⟨rfl, rfl⟩ := Dialogue.trace_done.mp h₂
    rw [List.append_nil]
    refine .inr ⟨outcome, rfl, ?_⟩
    rcases trace_sendOverLink hu with ⟨reason, quiet, rfl, rfl, -, -, hcalm⟩ |
      ⟨link, turns, o, back, rfl, hback, hkeys, hholds, hc, rfl⟩
    · refine ⟨fun hdelivered => SendOutcome.noConfusion hdelivered, fun key => ?_⟩
      have nothing : pushes (⟨.phase, .started⟩ ::
          (quiet ++ [.logged (e.unreachableEntry reason)])) = [] := hcalm.pushes_noted _
      rw [taken_of_pushes_eq_nil nothing]
      exact .none [payload]
    · -- only in the turns of the keys is anything pushed
      have same (key : String) : taken key (⟨.phase, .started⟩ :: ⟨.poolPhase, .running⟩ ::
          ⟨.borrow, .ok link⟩ :: (turns.flatMap Turn.tries ++ (back ++ e.lossNote o))) =
            taken key (turns.flatMap Turn.tries) := by
        have before : pushes [⟨.phase, .started⟩, ⟨.poolPhase, .running⟩, ⟨.borrow, .ok link⟩] =
          [] := rfl
        refine taken_between before ?_
        rw [pushes_append, hback.pushes_eq_nil, e.pushes_lossNote]
        rfl
      refine ⟨fun hdelivered key => ?_, fun key => ?_⟩
      · rw [same]
        cases o with
        | delivered => exact hc.tookAll hholds key
        | undelivered _ _ => cases hdelivered
        | lost _ _ => cases hdelivered
      · rw [same]
        exact inTurn_turns hkeys hholds key
  · obtain ⟨rfl, rfl⟩ := Dialogue.trace_done.mp h₂
    exact .inl ⟨⟨phase, hphase, List.mem_cons_self⟩, rfl⟩

/-- **A batch**: it is refused, and its lists take nothing; or it comes back with a report. -/
theorem trace_bulk {payloads : List Bytes} (h : Trace ((bulk payloads).dialogue e) t reply) :
    ((∃ phase, phase ≠ Phase.started ∧ (⟨.phase, phase⟩ : Exchange) ∈ t) ∧ pushes t = []) ∨
      ∃ report courses, reply = .report report ∧ e.Covers payloads t courses ∧
        report.delivered = courses.countP fun c => c.isTaken e.destination.keys.length := by
  obtain ⟨t₁, t₂, x, rfl, h₁, h₂⟩ := Dialogue.trace_bind.mp h
  rcases trace_sendBulk_cases h₁ with ⟨batch, report, u, rfl, rfl, hu⟩ |
    ⟨phase, error, hphase, rfl, rfl⟩
  · obtain ⟨rfl, rfl⟩ := Dialogue.trace_done.mp h₂
    rw [List.append_nil]
    refine .inr ⟨report, ?_⟩
    rcases trace_bulkOverLink hu with ⟨reason, quiet, rfl, rfl, -, -, hcalm⟩ |
      ⟨link, tally, w, rest, courses, after, rfl, htallies, hrest, rfl⟩
    · have nothing : pushes (⟨.phase, .started⟩ :: ⟨.batchName, batch⟩ ::
          (quiet ++ [.logged (e.unreachedEntry batch payloads.length reason)])) = [] :=
        hcalm.pushes_noted _
      exact ⟨[], rfl, e.covers_nothing payloads nothing, rfl⟩
    · exact ⟨courses, rfl, htallies.covers hrest batch, htallies.delivered_eq⟩
  · obtain ⟨rfl, rfl⟩ := Dialogue.trace_done.mp h₂
    exact .inl ⟨⟨phase, hphase, List.mem_cons_self⟩, rfl⟩

/-- A background check pushes nothing. -/
theorem trace_check (h : Trace (check.dialogue e) t reply) :
    reply = .nothing ∧ pushes t = [] := by
  obtain ⟨t₁, t₂, x, rfl, h₁, h₂⟩ := Dialogue.trace_bind.mp h
  obtain ⟨rfl, rfl⟩ := Dialogue.trace_done.mp h₂
  rw [List.append_nil]
  exact ⟨rfl, e.pool.evict_mute.pushes_eq_nil h₁⟩

/-- **What a list takes on behalf of a call** are its payloads in order, each at most as often as
the key stands in the destination. -/
theorem inTurn {duty : Duty} (h : Trace (duty.dialogue e) t reply) (key : String) :
    InTurn (e.destination.keys.count key) duty.payloads (taken key t) := by
  have nothing (hp : pushes t = []) :
      InTurn (e.destination.keys.count key) duty.payloads (taken key t) := by
    rw [taken_of_pushes_eq_nil hp]
    exact .none _
  cases duty with
  | send payload token =>
    rcases trace_send h with ⟨-, hp⟩ | ⟨outcome, -, -, hkeys⟩
    · exact nothing hp
    · exact hkeys key
  | bulk payloads =>
    rcases trace_bulk h with ⟨-, hp⟩ | ⟨report, courses, -, hcovers, -⟩
    · exact nothing hp
    · exact hcovers.inTurn key
  | check => exact nothing (trace_check h).2

/-- **What a call on a started engine comes back with** agrees with what the lists took on its
behalf. -/
theorem agrees {duty : Duty} (h : Trace (duty.dialogue e) t reply) (hs : IsRunning t) :
    duty.Agrees e t reply := by
  cases duty with
  | send payload token =>
    rcases trace_send h with ⟨⟨phase, hphase, hmem⟩, -⟩ | ⟨outcome, hreply, htook, -⟩
    · exact absurd (hs phase hmem) hphase
    · exact ⟨outcome, hreply, htook⟩
  | bulk payloads =>
    rcases trace_bulk h with ⟨⟨phase, hphase, hmem⟩, -⟩ |
      ⟨report, courses, hreply, hcovers, hdelivered⟩
    · exact absurd (hs phase hmem) hphase
    · refine ⟨report, courses, hreply, hcovers, hcovers.taken_eq, hdelivered, fun c hc hall => ?_⟩
      obtain ⟨link, -, hholds⟩ := hcovers.holds c hc
      exact hholds.tookAll hall
  | check => exact trace_check h

end Duty

end LogShipper.Delivery
