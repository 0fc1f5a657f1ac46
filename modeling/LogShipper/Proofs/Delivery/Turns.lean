import LogShipper.Delivery.Engine
import LogShipper.Proofs.Delivery.Tries

/-!
# The turns of keys

A payload is pushed to the keys of a destination one after the other. The tries of one key
position are its `Turn`. The turns of a payload come in the order of the keys, each is a trace of
tries over the one link, and only the last one can lose the link.

How many pushes of a turn were accepted, and whether one lost the link, is read off its outcome
(`accepted_push`, `loss_push`); a turn without a push does not exist (`pushes_push_ne_nil`). So the
outcome of a payload tells what the store took.

Results:
* `trace_deliverKeys`: the exchanges of the key loop are turns, and how they decide its outcome.
* `Engine.Spans.unique`: exchanges fall into turns in one way only.
-/

namespace LogShipper.Delivery

open Cancel (TokenId)
open Dialogue (Trace)

/-! ## The tries of one key -/

namespace KeyOutcome

/-- Whether the push was accepted. -/
def isDelivered : KeyOutcome → Bool
  | .delivered _ => true
  | _ => false

/-- Whether every try met a command error. -/
def isExhausted : KeyOutcome → Bool
  | .exhausted _ _ => true
  | _ => false

/-- Whether the wait for a try was cancelled. -/
def isCancelled : KeyOutcome → Bool
  | .cancelled _ => true
  | _ => false

/-- Whether the link is lost. -/
def isLost : KeyOutcome → Bool
  | .lost _ => true
  | _ => false

end KeyOutcome

section Push

variable {link : LinkId} {key : String} {payload : Bytes} {policy : RetryPolicy} {token : TokenId}
  {t : List Exchange} {o : KeyOutcome}

/-- The pushes to one key: rejected ones, then one that decides the outcome. -/
theorem trace_push (h : Trace (push link key payload policy token) t o) :
    ∃ (errors : List String) (answer : Except LinkError Unit),
      pushes t = errors.map (fun e => ⟨link, key, payload, .error (.command e)⟩) ++
        [⟨link, key, payload, answer⟩] ∧ Job.Decides answer o :=
  (Job.tried_of_trace h).shape

theorem pushes_push_ne_nil (h : Trace (push link key payload policy token) t o) :
    pushes t ≠ [] := by
  obtain ⟨errors, answer, ht, -⟩ := trace_push h
  simp [ht]

theorem mem_pushes_push (h : Trace (push link key payload policy token) t o) :
    ∀ p ∈ pushes t, p.link = link ∧ p.key = key ∧ p.payload = payload := by
  obtain ⟨errors, answer, ht, -⟩ := trace_push h
  intro p hp
  rw [ht, List.mem_append, List.mem_map, List.mem_singleton] at hp
  rcases hp with ⟨e, -, rfl⟩ | rfl
  · exact ⟨rfl, rfl, rfl⟩
  · exact ⟨rfl, rfl, rfl⟩

/-- A key takes the payload once if it is delivered, and else not at all. -/
theorem accepted_push (h : Trace (push link key payload policy token) t o) :
    accepted t = if o.isDelivered then 1 else 0 := by
  obtain ⟨errors, answer, ht, ho⟩ := trace_push h
  have herrors : (errors.map fun e => (⟨link, key, payload, .error (.command e)⟩ : Pushed)).countP
      Pushed.isAccepted = 0 := by
    rw [List.countP_map]
    exact List.countP_eq_zero.mpr fun _ _ => Bool.false_ne_true
  rw [accepted, ht, List.countP_append, herrors]
  cases o with
  | delivered n =>
    obtain rfl : answer = .ok () := ho
    rfl
  | exhausted n last =>
    obtain ⟨e, rfl⟩ := ho
    rfl
  | cancelled n =>
    obtain ⟨e, rfl⟩ := ho
    rfl
  | lost reason =>
    obtain rfl : answer = .error (.connection reason) := ho
    rfl

/-- Tries that lose the link end with the push that lost it. -/
theorem lost_push {reason : String}
    (h : Trace (push link key payload policy token) t (.lost reason)) :
    ∃ before, pushes t = before ++ [⟨link, key, payload, .error (.connection reason)⟩] ∧
      ∀ p ∈ before, p.isLoss = false := by
  obtain ⟨errors, answer, ht, ho⟩ := trace_push h
  obtain rfl : answer = .error (.connection reason) := ho
  refine ⟨_, ht, fun p hp => ?_⟩
  obtain ⟨e, -, rfl⟩ := List.mem_map.mp hp
  rfl

/-- Tries that keep the link lose it with no push. -/
theorem loss_push (h : Trace (push link key payload policy token) t o)
    (ho : o.isLost = false) : ∀ p ∈ pushes t, p.isLoss = false := by
  obtain ⟨errors, answer, ht, hd⟩ := trace_push h
  intro p hp
  rw [ht, List.mem_append, List.mem_map, List.mem_singleton] at hp
  rcases hp with ⟨e, -, rfl⟩ | rfl
  · rfl
  · cases o with
    | delivered n =>
      obtain rfl : answer = .ok () := hd
      rfl
    | exhausted n last =>
      obtain ⟨e, rfl⟩ := hd
      rfl
    | cancelled n =>
      obtain ⟨e, rfl⟩ := hd
      rfl
    | lost reason => exact absurd ho Bool.noConfusion

end Push

/-! ## Turns -/

/-- What was done for one key position, and how it ended. -/
structure Turn where
  key : String
  tries : List Exchange
  outcome : KeyOutcome

namespace Turn

/-- How often the store took the payload in the turn. -/
def accepted (u : Turn) : Nat := Delivery.accepted u.tries

/-- The turn is a trace of tries. -/
def Holds (e : Engine) (link : LinkId) (payload : Bytes) (token : TokenId) (u : Turn) : Prop :=
  Trace (push link u.key payload e.retry token) u.tries u.outcome

end Turn

/-- The keys, in order, whose turns ended in a way. -/
def keysThat (p : KeyOutcome → Bool) (turns : List Turn) : List String :=
  (turns.filter fun u => p u.outcome).map Turn.key

theorem keysThat_cons (p : KeyOutcome → Bool) (u : Turn) (turns : List Turn) :
    keysThat p (u :: turns) =
      if p u.outcome then u.key :: keysThat p turns else keysThat p turns := by
  unfold keysThat
  rw [List.filter_cons]
  split <;> rfl

theorem PayloadOutcome.keepsLink_ofFailures (exhausted cancelled : List String) :
    (PayloadOutcome.ofFailures exhausted cancelled).keepsLink = true := by
  unfold PayloadOutcome.ofFailures
  split <;> rfl

/-- How the turns of keys decide what became of a payload, after some keys have failed. -/
inductive Concludes (keys exhausted cancelled : List String) (turns : List Turn) :
    PayloadOutcome → Prop
  | kept (hkeys : turns.map Turn.key = keys) (hkept : ∀ u ∈ turns, u.outcome.isLost = false) :
      Concludes keys exhausted cancelled turns
        (.ofFailures (exhausted ++ keysThat KeyOutcome.isExhausted turns)
          (cancelled ++ keysThat KeyOutcome.isCancelled turns))
  | lost (before : List Turn) (u : Turn) (reason : String) (hturns : turns = before ++ [u])
      (hbefore : ∀ v ∈ before, v.outcome.isLost = false) (hu : u.outcome = .lost reason) :
      Concludes keys exhausted cancelled turns (.lost u.key reason)

/-- With keys there are turns. -/
theorem Concludes.turns_ne_nil {keys exhausted cancelled : List String} {turns : List Turn}
    {o : PayloadOutcome} (h : Concludes keys exhausted cancelled turns o) (hkeys : keys ≠ []) :
    turns ≠ [] := by
  rintro rfl
  cases h with
  | kept hnil _ => exact hkeys hnil.symm
  | lost before u reason hturns _ _ =>
    exact List.append_ne_nil_of_right_ne_nil before (List.cons_ne_nil u []) hturns.symm

/-- Where no turn loses the link there is one for every key. -/
theorem Concludes.of_kept {keys exhausted cancelled : List String} {turns : List Turn}
    {o : PayloadOutcome} (h : Concludes keys exhausted cancelled turns o)
    (hkept : ∀ u ∈ turns, u.outcome.isLost = false) :
    turns.map Turn.key = keys ∧ o = .ofFailures (exhausted ++ keysThat KeyOutcome.isExhausted turns)
      (cancelled ++ keysThat KeyOutcome.isCancelled turns) := by
  cases h with
  | kept hkeys _ => exact ⟨hkeys, rfl⟩
  | lost before u reason hturns _ hu =>
    have hlost := hkept u (hturns ▸ List.mem_concat_self)
    rw [hu] at hlost
    exact absurd hlost Bool.noConfusion

/-- One more turn that keeps the link, in front. -/
theorem Concludes.cons {keys exhausted cancelled : List String} {turns : List Turn}
    {o : PayloadOutcome} {u : Turn} (hu : u.outcome.isLost = false)
    (h : Concludes keys
      (if u.outcome.isExhausted then exhausted ++ [u.key] else exhausted)
      (if u.outcome.isCancelled then cancelled ++ [u.key] else cancelled) turns o) :
    Concludes (u.key :: keys) exhausted cancelled (u :: turns) o := by
  have append_if (c : Bool) (l m : List String) :
      (if c then l ++ [u.key] else l) ++ m = l ++ if c then u.key :: m else m := by
    cases c
    · rfl
    · exact List.append_assoc l [u.key] m
  cases h with
  | kept hkeys hkept =>
    rw [append_if, append_if, ← keysThat_cons, ← keysThat_cons]
    refine .kept (by rw [List.map_cons, hkeys]) fun v hv => ?_
    rcases List.mem_cons.mp hv with rfl | hv
    · exact hu
    · exact hkept v hv
  | lost before v reason hturns hbefore hv =>
    refine .lost (u :: before) v reason (by rw [hturns]; rfl) (fun w hw => ?_) hv
    rcases List.mem_cons.mp hw with rfl | hw
    · exact hu
    · exact hbefore w hw

/-- **The key loop takes turns**: its exchanges are those of turns of the first keys, and these
decide its outcome. The induction is on the keys that are left. -/
theorem trace_deliverKeys {e : Engine} {link : LinkId} {payload : Bytes} {token : TokenId}
    {keys exhausted cancelled : List String} {t : List Exchange} {o : PayloadOutcome}
    (h : Trace (e.deliverKeys link payload token keys exhausted cancelled) t o) :
    ∃ turns : List Turn, turns.map Turn.key <+: keys ∧
      (∀ u ∈ turns, u.Holds e link payload token) ∧ t = turns.flatMap Turn.tries ∧
      Concludes keys exhausted.reverse cancelled.reverse turns o := by
  induction keys generalizing exhausted cancelled t with
  | nil =>
    obtain ⟨rfl, rfl⟩ := Dialogue.trace_done.mp h
    refine ⟨[], List.prefix_rfl, fun _ hu => absurd hu List.not_mem_nil, rfl, ?_⟩
    have kept : Concludes [] exhausted.reverse cancelled.reverse [] _ :=
      .kept rfl fun _ hu => absurd hu List.not_mem_nil
    simpa [keysThat] using kept
  | cons key keys ih =>
    rw [Engine.deliverKeys] at h
    obtain ⟨t₁, t₂, ko, rfl, h₁, h₂⟩ := Dialogue.trace_bind.mp h
    let u : Turn := ⟨key, t₁, ko⟩
    have more {ex ca : List String}
        (hex : ex.reverse =
          if ko.isExhausted then exhausted.reverse ++ [key] else exhausted.reverse)
        (hca : ca.reverse =
          if ko.isCancelled then cancelled.reverse ++ [key] else cancelled.reverse)
        (hlost : ko.isLost = false)
        (h₂ : Trace (e.deliverKeys link payload token keys ex ca) t₂ o) :
        ∃ turns : List Turn, turns.map Turn.key <+: key :: keys ∧
          (∀ u ∈ turns, u.Holds e link payload token) ∧ t₁ ++ t₂ = turns.flatMap Turn.tries ∧
          Concludes (key :: keys) exhausted.reverse cancelled.reverse turns o := by
      obtain ⟨turns, hkeys, hholds, rfl, hc⟩ := ih h₂
      rw [hex, hca] at hc
      refine ⟨u :: turns, ?_, fun v hv => ?_, rfl, Concludes.cons (u := u) hlost hc⟩
      · rw [List.map_cons]
        exact (List.prefix_cons_inj key).mpr hkeys
      · rcases List.mem_cons.mp hv with rfl | hv
        · exact h₁
        · exact hholds v hv
    match ko with
    | .delivered _ => exact more rfl rfl rfl h₂
    | .exhausted _ _ => exact more List.reverse_cons rfl rfl h₂
    | .cancelled _ => exact more rfl List.reverse_cons rfl h₂
    | .lost reason =>
      obtain ⟨rfl, rfl⟩ := Dialogue.trace_done.mp h₂
      refine ⟨[⟨key, t₁, .lost reason⟩], ?_, fun v hv => ?_, ?_, ?_⟩
      · exact (List.prefix_cons_inj key).mpr List.nil_prefix
      · obtain rfl := List.mem_singleton.mp hv
        exact h₁
      · simp
      · exact .lost [] ⟨key, t₁, .lost reason⟩ reason rfl
          (fun _ hv => absurd hv List.not_mem_nil) rfl

/-! ## Exchanges fall into turns in one way -/

/-- The link that was borrowed among exchanges. -/
def borrowed (t : List Exchange) : Option LinkId :=
  t.findSome? fun
    | ⟨.borrow, .ok link⟩ => some link
    | _ => none

/-- How often the store took the payload for a key position. -/
def acceptedAt (turns : List Turn) (i : Nat) : Nat := turns[i]?.elim 0 Turn.accepted

/-- The exchanges of a send fall into turns: of the first keys, in order, over the link that was
borrowed, with nothing pushed before the first turn and after the last one. -/
structure Engine.Spans (e : Engine) (payload : Bytes) (token : TokenId) (t : List Exchange)
    (turns : List Turn) : Prop where
  keys : turns.map Turn.key <+: e.destination.keys
  holds : ∀ u ∈ turns, ∃ link, borrowed t = some link ∧ u.Holds e link payload token
  exchanges : ∃ before after, t = before ++ (turns.flatMap Turn.tries ++ after) ∧
    pushes before = [] ∧ pushes after = []

variable {e : Engine} {link : LinkId} {payload : Bytes} {token : TokenId}

/-- A turn is told by its key and its tries. -/
theorem legible_turns : Legible Turn.key Turn.tries (Turn.Holds e link payload token) where
  head _ h := (Job.tried_of_trace h).head
  eq_of_append a b ha hb hkey u v h := by
    unfold Turn.Holds at ha hb
    rw [hkey] at ha
    obtain ⟨htries, houtcome⟩ := ha.unique hb h
    cases a
    cases b
    simp_all

/-- **Exchanges fall into turns in one way only.** -/
theorem Engine.Spans.unique {t : List Exchange} {turns₁ turns₂ : List Turn}
    (h₁ : e.Spans payload token t turns₁) (h₂ : e.Spans payload token t turns₂) :
    turns₁ = turns₂ := by
  obtain ⟨b₁, a₁, ht₁, hb₁, ha₁⟩ := h₁.exchanges
  obtain ⟨b₂, a₂, ht₂, hb₂, ha₂⟩ := h₂.exchanges
  cases hlink : borrowed t with
  | none =>
    have empty {turns : List Turn} (h : e.Spans payload token t turns) : turns = [] := by
      refine List.eq_nil_iff_forall_not_mem.mpr fun u hu => ?_
      obtain ⟨link, hl, -⟩ := h.holds u hu
      rw [hlink] at hl
      cases hl
    rw [empty h₁, empty h₂]
  | some link =>
    have held {turns : List Turn} (h : e.Spans payload token t turns) :
        ∀ u ∈ turns, u.Holds e link payload token := by
      intro u hu
      obtain ⟨link', hl, hu⟩ := h.holds u hu
      rw [hlink] at hl
      cases hl
      exact hu
    exact legible_turns.reading_unique h₁.keys h₂.keys (held h₁) (held h₂) hb₁ hb₂ ha₁ ha₂
      (ht₁.symm.trans ht₂)

end LogShipper.Delivery
