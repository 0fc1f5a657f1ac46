import LogShipper.Proofs.Delivery.Requests
import LogShipper.Proofs.Delivery.Turns
import LogShipper.World.Time
import LogShipper.Store.Scripted

/-!
# A send reports what the store took

Whatever the pool, the links, the store and the tokens answer, and however many links of other
talks come between, what a send reports agrees with what it pushed (`Engine.Truthful`). The send is
read as the turns of its keys (`Engine.Spans`), of which there is only one reading.

Of the four reports, one says that no link was borrowed; the other three are told apart by the
answers to the pushes alone.

Covers `send` and `send_with_cancel`, with `deliver` and `push_with_retry`.

Results:
* `trace_sendOverLink`: what a send consists of.
* `send_truthful`: the report of a send agrees with its pushes.
-/

namespace LogShipper.Delivery

open Cancel (TokenId)
open Dialogue (Trace)

/-! ## What a report says -/

/-- The report of a send agrees with what was pushed in the turns of its keys. -/
structure Engine.Truthful (e : Engine) (payload : Bytes) (t : List Exchange) (turns : List Turn)
    (outcome : SendOutcome) : Prop where
  /-- All pushes go over the link that was borrowed and carry the payload. -/
  over_link : ∀ p ∈ pushes t, borrowed t = some p.link ∧ p.payload = payload
  /-- The pushes come in the order of the keys. -/
  in_order : pushes t = turns.flatMap (fun u => pushes u.tries) ∧
    ∀ u ∈ turns, pushes u.tries ≠ [] ∧ ∀ p ∈ pushes u.tries, p.key = u.key
  /-- Delivered: every key position took the payload once. -/
  delivered : outcome = .delivered ↔
    ∀ i < e.destination.keys.length, acceptedAt turns i = 1
  /-- Undelivered: the link was kept, and some key position did not take the payload. -/
  undelivered : (∃ exhausted cancelled, outcome = .failed (.undelivered exhausted cancelled)) ↔
    (borrowed t).isSome ∧ (∀ p ∈ pushes t, p.isLoss = false) ∧
      ∃ i < e.destination.keys.length, acceptedAt turns i = 0
  /-- The two lists are those of the key positions that did not take it, each in one of them; the
  others took it once. -/
  undelivered_keys : ∀ exhausted cancelled, outcome = .failed (.undelivered exhausted cancelled) →
    turns.map Turn.key = e.destination.keys ∧
      exhausted = keysThat KeyOutcome.isExhausted turns ∧
      cancelled = keysThat KeyOutcome.isCancelled turns ∧
      ∀ u ∈ turns, u.accepted = if u.outcome.isExhausted ≠ u.outcome.isCancelled then 0 else 1
  /-- The link is reported lost if a push lost it. -/
  lost : (∃ reason, outcome = .failed (.connectionLost e.endpoint reason)) ↔
    ∃ p ∈ pushes t, p.isLoss = true
  /-- The push that lost it is the last one, in the last turn, and the keys before were tried. -/
  lost_last : ∀ endpoint reason, outcome = .failed (.connectionLost endpoint reason) →
    endpoint = e.endpoint ∧ ∃ before u earlier p, turns = before ++ [u] ∧
      pushes t = earlier ++ [p] ∧ p.answer = .error (.connection reason) ∧ p.key = u.key ∧
      (∀ q ∈ earlier, q.isLoss = false) ∧ u.accepted = 0 ∧ ∀ v ∈ before, v.accepted ≤ 1
  /-- Unavailable: no link was borrowed. -/
  unavailable : (∃ reason, outcome = .failed (.unavailable e.endpoint reason)) ↔
    borrowed t = none
  /-- Without a link nothing is pushed. -/
  nothing : borrowed t = none → pushes t = []

/-! ## The parts of a send -/

/-- What is reported of a payload. -/
def Engine.reported (e : Engine) : PayloadOutcome → SendOutcome
  | .delivered => .delivered
  | .undelivered exhausted cancelled => .failed (.undelivered exhausted cancelled)
  | .lost _ reason => .failed (.connectionLost e.endpoint reason)

/-- The entry of a lost link. -/
def Engine.lostEntry (e : Engine) (key reason : String) : LogEntry where
  level := .error
  source := .engine
  message := "Connection to list store lost, abandoning delivery"
  fields := [("sink", e.name), ("endpoint", e.endpoint), ("key", key), ("error", reason)]

/-- What is noted of a payload beside its report. -/
def Engine.lossNote (e : Engine) : PayloadOutcome → List Exchange
  | .lost key reason => [.logged (e.lostEntry key reason)]
  | _ => []

theorem Engine.pushes_lossNote (e : Engine) (o : PayloadOutcome) : pushes (e.lossNote o) = [] := by
  cases o <;> rfl

theorem trace_report {e : Engine} {o : PayloadOutcome} {t : List Exchange} {r : SendOutcome}
    (h : Trace (e.report o) t r) : r = e.reported o ∧ t = e.lossNote o := by
  match o with
  | .delivered =>
    obtain ⟨rfl, rfl⟩ := Dialogue.trace_done.mp h
    exact ⟨rfl, rfl⟩
  | .undelivered _ _ =>
    obtain ⟨rfl, rfl⟩ := Dialogue.trace_done.mp h
    exact ⟨rfl, rfl⟩
  | .lost key reason =>
    obtain ⟨_, rfl, h₁⟩ := Dialogue.trace_log_bind.mp h
    obtain ⟨rfl, rfl⟩ := Dialogue.trace_done.mp h₁
    exact ⟨rfl, rfl⟩

/-- A link is borrowed from a running pool, or there is none and the keys are left alone. -/
theorem trace_acquire {t : List Exchange} {r : Except PoolError LinkId} (h : Trace acquire t r) :
    (∃ link, r = .ok link ∧ t = [⟨.poolPhase, .running⟩, ⟨.borrow, .ok link⟩]) ∨
      (∃ err, r = .error err) ∧ borrowed t = none ∧ entries t = [] ∧ Calm t := by
  obtain ⟨x, _, rfl, h₁⟩ := Dialogue.trace_ask.mp h
  match x with
  | .running =>
    obtain ⟨y, _, rfl, h₂⟩ := Dialogue.trace_ask.mp h₁
    match y with
    | .ok link =>
      obtain ⟨rfl, rfl⟩ := Dialogue.trace_done.mp h₂
      exact .inl ⟨link, rfl, rfl⟩
    | .error reason =>
      obtain ⟨rfl, rfl⟩ := Dialogue.trace_done.mp h₂
      exact .inr ⟨⟨_, rfl⟩, rfl, rfl, .cons rfl (.cons rfl .nil)⟩
  | .created =>
    obtain ⟨rfl, rfl⟩ := Dialogue.trace_done.mp h₁
    exact .inr ⟨⟨_, rfl⟩, rfl, rfl, .cons rfl .nil⟩
  | .shutDown =>
    obtain ⟨rfl, rfl⟩ := Dialogue.trace_done.mp h₁
    exact .inr ⟨⟨_, rfl⟩, rfl, rfl, .cons rfl .nil⟩

/-- The entry of a send for which no link could be borrowed. -/
def Engine.unreachableEntry (e : Engine) (reason : String) : LogEntry where
  level := .error
  source := .engine
  message := "Unable to connect to list store. Please ensure that it's running on " ++ e.endpoint
  fields := [("sink", e.name), ("endpoint", e.endpoint), ("error", reason)]

/-- **What a send consists of**: without a link that is noted, and the keys are left alone; with
one, the turns of the keys come first, then what leaves them alone, then the note of a loss, and the
turns decide the report. -/
theorem trace_sendOverLink {e : Engine} {payload : Bytes} {token : TokenId} {t : List Exchange}
    {r : SendOutcome} (h : Trace (e.sendOverLink payload token) t r) :
    (∃ reason before, r = .failed (.unavailable e.endpoint reason) ∧
      t = before ++ [.logged (e.unreachableEntry reason)] ∧ borrowed t = none ∧
      entries before = [] ∧ Calm before) ∨
    ∃ (link : LinkId) (turns : List Turn) (o : PayloadOutcome) (back : List Exchange),
      t = ⟨.poolPhase, .running⟩ :: ⟨.borrow, .ok link⟩ ::
          (turns.flatMap Turn.tries ++ (back ++ e.lossNote o)) ∧
        Calm back ∧ turns.map Turn.key <+: e.destination.keys ∧
        (∀ u ∈ turns, u.Holds e link payload token) ∧
        Concludes e.destination.keys [] [] turns o ∧ r = e.reported o := by
  obtain ⟨t₁, t₂, got, rfl, h₁, h₂⟩ := Dialogue.trace_bind.mp h
  rcases trace_acquire h₁ with ⟨link, rfl, rfl⟩ | ⟨⟨err, rfl⟩, hb, hentries, hcalm⟩
  · obtain ⟨t₃, t₄, o, rfl, h₃, h₄⟩ := Dialogue.trace_bind.mp h₂
    obtain ⟨t₅, t₆, _, rfl, h₅, h₆⟩ := Dialogue.trace_bind.mp h₄
    obtain ⟨turns, hkeys, hholds, rfl, hc⟩ := trace_deliverKeys h₃
    obtain ⟨hr, rfl⟩ := trace_report h₆
    exact .inr ⟨link, turns, o, t₅, rfl, e.pool.calm_release link h₅, hkeys, hholds, hc, hr⟩
  · obtain ⟨_, rfl, h₃⟩ := Dialogue.trace_log_bind.mp h₂
    obtain ⟨rfl, rfl⟩ := Dialogue.trace_done.mp h₃
    refine .inl ⟨err.message, t₁, rfl, rfl, ?_, hentries, hcalm⟩
    rw [borrowed, List.findSome?_append]
    exact Option.or_eq_none_iff.mpr ⟨hb, rfl⟩

/-! ## Key positions -/

section Positions

variable {turns : List Turn} {n : Nat}

theorem acceptedAt_of_lt {i : Nat} (h : i < turns.length) :
    acceptedAt turns i = (turns[i]).accepted := by
  simp [acceptedAt, h]

theorem forall_acceptedAt (hn : turns.length = n) (k : Nat) :
    (∀ i < n, acceptedAt turns i = k) ↔ ∀ u ∈ turns, u.accepted = k := by
  subst hn
  constructor
  · intro h u hu
    obtain ⟨i, hi, rfl⟩ := List.getElem_of_mem hu
    rw [← acceptedAt_of_lt hi]
    exact h i hi
  · intro h i hi
    rw [acceptedAt_of_lt hi]
    exact h _ (List.getElem_mem hi)

theorem exists_acceptedAt (hn : turns.length = n) (k : Nat) :
    (∃ i < n, acceptedAt turns i = k) ↔ ∃ u ∈ turns, u.accepted = k := by
  subst hn
  constructor
  · rintro ⟨i, hi, h⟩
    rw [acceptedAt_of_lt hi] at h
    exact ⟨_, List.getElem_mem hi, h⟩
  · rintro ⟨u, hu, h⟩
    obtain ⟨i, hi, rfl⟩ := List.getElem_of_mem hu
    exact ⟨i, hi, by rwa [acceptedAt_of_lt hi]⟩

theorem keysThat_eq_nil {p : KeyOutcome → Bool} :
    keysThat p turns = [] ↔ ∀ u ∈ turns, p u.outcome = false := by
  simp [keysThat, List.filter_eq_nil_iff]

/-- The lists of failed keys are empty exactly when every key is delivered. -/
theorem no_failures_of_kept (hkept : ∀ u ∈ turns, u.outcome.isLost = false) :
    keysThat KeyOutcome.isExhausted turns = [] ∧ keysThat KeyOutcome.isCancelled turns = [] ↔
      ∀ u ∈ turns, u.outcome.isDelivered = true := by
  have one (u : Turn) (hu : u ∈ turns) : u.outcome.isDelivered = true ↔
      u.outcome.isExhausted = false ∧ u.outcome.isCancelled = false := by
    cases ho : u.outcome with
    | lost reason => exact absurd (ho ▸ hkept u hu) Bool.noConfusion
    | _ => simp [KeyOutcome.isExhausted, KeyOutcome.isCancelled, KeyOutcome.isDelivered]
  rw [keysThat_eq_nil, keysThat_eq_nil]
  constructor
  · rintro ⟨he, hc⟩ u hu
    exact (one u hu).mpr ⟨he u hu, hc u hu⟩
  · intro hall
    exact ⟨fun u hu => ((one u hu).mp (hall u hu)).1, fun u hu => ((one u hu).mp (hall u hu)).2⟩

end Positions

/-- Tries that keep the link are delivered, exhausted or cancelled, one of the three. -/
theorem KeyOutcome.isDelivered_of_kept {o : KeyOutcome} (h : o.isLost = false) :
    o.isDelivered = decide (o.isExhausted = o.isCancelled) := by
  cases o with
  | lost reason => exact absurd h Bool.noConfusion
  | _ => rfl

/-! ## The cases of a report -/

section Cases

variable {e : Engine} {link : LinkId} {payload : Bytes} {token : TokenId} {t : List Exchange}
  {turns : List Turn}

theorem truthful_unavailable {reason : String} (hd : e.destination.IsValid)
    (hb : borrowed t = none) (hp : pushes t = []) :
    e.Truthful payload t [] (.failed (.unavailable e.endpoint reason)) where
  over_link p hm := by simp [hp] at hm
  in_order := ⟨hp, fun _ hu => absurd hu List.not_mem_nil⟩
  delivered := by
    refine iff_of_false (by simp) fun h => ?_
    have hpos := List.length_pos_iff.mpr hd.keys_ne_nil
    exact absurd (h 0 hpos) (by simp [acceptedAt])
  undelivered := by simp [hb]
  undelivered_keys _ _ h := by simp at h
  lost := by simp [hp]
  lost_last _ _ h := by simp at h
  unavailable := by simp [hb]
  nothing _ := hp

/-- What a report over a borrowed link has in common with every other one. -/
structure Spanned (e : Engine) (link : LinkId) (payload : Bytes) (token : TokenId)
    (t : List Exchange) (turns : List Turn) : Prop where
  link_eq : borrowed t = some link
  pushes_eq : pushes t = turns.flatMap fun u => pushes u.tries
  keys : turns.map Turn.key <+: e.destination.keys
  holds : ∀ u ∈ turns, u.Holds e link payload token

namespace Spanned

variable (h : Spanned e link payload token t turns)
include h

theorem over_link : ∀ p ∈ pushes t, borrowed t = some p.link ∧
    p.payload = payload := by
  intro p hp
  rw [h.pushes_eq, List.mem_flatMap] at hp
  obtain ⟨u, hu, hp⟩ := hp
  obtain ⟨hl, -, hpl⟩ := mem_pushes_push (h.holds u hu) p hp
  exact ⟨hl ▸ h.link_eq, hpl⟩

theorem in_order : pushes t = turns.flatMap (fun u => pushes u.tries) ∧
    ∀ u ∈ turns, pushes u.tries ≠ [] ∧ ∀ p ∈ pushes u.tries, p.key = u.key :=
  ⟨h.pushes_eq, fun u hu => ⟨pushes_push_ne_nil (h.holds u hu), fun p hp =>
    (mem_pushes_push (h.holds u hu) p hp).2.1⟩⟩

theorem accepted_eq {u : Turn} (hu : u ∈ turns) :
    u.accepted = if u.outcome.isDelivered then 1 else 0 :=
  accepted_push (h.holds u hu)

theorem loss_iff : (∃ p ∈ pushes t, p.isLoss = true) ↔
    ∃ u ∈ turns, u.outcome.isLost = true := by
  rw [h.pushes_eq]
  constructor
  · rintro ⟨p, hp, hl⟩
    obtain ⟨u, hu, hp⟩ := List.mem_flatMap.mp hp
    refine ⟨u, hu, ?_⟩
    cases hk : u.outcome.isLost with
    | true => rfl
    | false =>
      rw [loss_push (h.holds u hu) hk p hp] at hl
      exact Bool.noConfusion hl
  · rintro ⟨u, hu, hl⟩
    have hholds := h.holds u hu
    unfold Turn.Holds at hholds
    cases ho : u.outcome with
    | lost reason =>
      rw [ho] at hholds
      obtain ⟨before, hp, -⟩ := lost_push hholds
      exact ⟨_, List.mem_flatMap.mpr ⟨u, hu, hp ▸ List.mem_concat_self⟩, rfl⟩
    | _ => exact absurd (ho ▸ hl) Bool.noConfusion

theorem accepted_zero_or_one {u : Turn} (hu : u ∈ turns) : u.accepted = 0 ∨ u.accepted = 1 := by
  rw [h.accepted_eq hu]
  split
  · exact .inr rfl
  · exact .inl rfl

/-- For tries that keep the link: taken once, or not at all by an exhausted or cancelled key. -/
theorem accepted_kept {u : Turn} (hu : u ∈ turns) (hk : u.outcome.isLost = false) :
    u.accepted = if u.outcome.isExhausted ≠ u.outcome.isCancelled then 0 else 1 := by
  rw [h.accepted_eq hu, KeyOutcome.isDelivered_of_kept hk]
  by_cases he : u.outcome.isExhausted = u.outcome.isCancelled <;> simp [he]

/-- The lists of failed keys are empty exactly when every key took the payload. -/
theorem no_failures_iff (hkept : ∀ u ∈ turns, u.outcome.isLost = false) :
    keysThat KeyOutcome.isExhausted turns = [] ∧ keysThat KeyOutcome.isCancelled turns = [] ↔
      ∀ u ∈ turns, u.accepted = 1 := by
  rw [no_failures_of_kept hkept]
  refine forall₂_congr fun u hu => ?_
  rw [h.accepted_eq hu]
  cases u.outcome.isDelivered <;> simp

/-- The link was kept in every turn. -/
theorem truthful_kept (hkeys : turns.map Turn.key = e.destination.keys)
    (hkept : ∀ u ∈ turns, u.outcome.isLost = false) :
    e.Truthful payload t turns (e.reported (.ofFailures (keysThat KeyOutcome.isExhausted turns)
      (keysThat KeyOutcome.isCancelled turns))) := by
  have hn : turns.length = e.destination.keys.length := by rw [← hkeys, List.length_map]
  have hloss : ¬ ∃ p ∈ pushes t, p.isLoss = true := by
    rw [h.loss_iff]
    rintro ⟨u, hu, hl⟩
    rw [hkept u hu] at hl
    exact Bool.noConfusion hl
  have hnone : ∀ p ∈ pushes t, p.isLoss = false := fun p hp =>
    Bool.eq_false_iff.mpr fun hl => hloss ⟨p, hp, hl⟩
  have hlink : (borrowed t).isSome = true := by rw [h.link_eq]; rfl
  have hsome : borrowed t ≠ none := by rw [h.link_eq]; exact Option.some_ne_none link
  have hiff := h.no_failures_iff hkept
  rw [PayloadOutcome.ofFailures]
  split
  · rename_i hempty
    have hall := hiff.mp hempty
    refine ⟨h.over_link, h.in_order, ?_, ?_, ?_, ?_, ?_, ?_, fun hb => absurd hb hsome⟩
    · exact iff_of_true rfl ((forall_acceptedAt hn 1).mpr hall)
    · refine iff_of_false (by simp [Engine.reported]) ?_
      rintro ⟨-, -, hmissed⟩
      obtain ⟨u, hu, h0⟩ := (exists_acceptedAt hn 0).mp hmissed
      exact absurd (h0.symm.trans (hall u hu)) (by decide)
    · intro _ _ ho
      exact absurd ho (by simp [Engine.reported])
    · exact iff_of_false (by simp [Engine.reported]) hloss
    · intro _ _ ho
      exact absurd ho (by simp [Engine.reported])
    · exact iff_of_false (by simp [Engine.reported]) hsome
  · rename_i hfailed
    have hmissed : ¬ ∀ u ∈ turns, u.accepted = 1 := fun hall => hfailed (hiff.mpr hall)
    refine ⟨h.over_link, h.in_order, ?_, ?_, ?_, ?_, ?_, ?_, fun hb => absurd hb hsome⟩
    · exact iff_of_false (by simp [Engine.reported]) fun hall =>
        hmissed ((forall_acceptedAt hn 1).mp hall)
    · refine iff_of_true ⟨_, _, rfl⟩ ⟨hlink, hnone, (exists_acceptedAt hn 0).mpr ?_⟩
      obtain ⟨u, hu, hne⟩ : ∃ u ∈ turns, u.accepted ≠ 1 := by simpa using hmissed
      exact ⟨u, hu, (h.accepted_zero_or_one hu).resolve_right hne⟩
    · intro exhausted cancelled ho
      obtain ⟨rfl, rfl⟩ : keysThat KeyOutcome.isExhausted turns = exhausted ∧
          keysThat KeyOutcome.isCancelled turns = cancelled := by
        simpa [Engine.reported] using ho
      exact ⟨hkeys, rfl, rfl, fun u hu => h.accepted_kept hu (hkept u hu)⟩
    · exact iff_of_false (by simp [Engine.reported]) hloss
    · intro _ _ ho
      exact absurd ho (by simp [Engine.reported])
    · exact iff_of_false (by simp [Engine.reported]) hsome

/-- The link was lost in the last turn. -/
theorem truthful_lost {before : List Turn} {u : Turn} {reason : String}
    (hturns : turns = before ++ [u]) (hbefore : ∀ v ∈ before, v.outcome.isLost = false)
    (hu : u.outcome = .lost reason) :
    e.Truthful payload t turns (e.reported (.lost u.key reason)) := by
  have hmem : u ∈ turns := hturns ▸ List.mem_concat_self
  have h0 : u.accepted = 0 := by rw [h.accepted_eq hmem, hu]; rfl
  have hloss : ∃ p ∈ pushes t, p.isLoss = true :=
    h.loss_iff.mpr ⟨u, hmem, by rw [hu]; rfl⟩
  have hsome : borrowed t ≠ none := by rw [h.link_eq]; exact Option.some_ne_none link
  refine ⟨h.over_link, h.in_order, ?_, ?_, ?_, ?_, ?_, ?_, fun hb => absurd hb hsome⟩
  · refine iff_of_false (by simp [Engine.reported]) fun hall => ?_
    have hlt : before.length < turns.length := by rw [hturns]; simp
    have hle : turns.length ≤ e.destination.keys.length := by
      simpa using h.keys.length_le
    have h1 := hall before.length (by omega)
    rw [acceptedAt_of_lt hlt] at h1
    have hget : turns[before.length] = u := by simp [hturns]
    rw [hget, h0] at h1
    exact absurd h1 (by decide)
  · refine iff_of_false (by simp [Engine.reported]) ?_
    rintro ⟨-, hnone, -⟩
    obtain ⟨p, hp, hl⟩ := hloss
    rw [hnone p hp] at hl
    exact Bool.noConfusion hl
  · intro _ _ ho
    exact absurd ho (by simp [Engine.reported])
  · exact iff_of_true ⟨reason, rfl⟩ hloss
  · intro endpoint reason' ho
    obtain ⟨rfl, rfl⟩ : e.endpoint = endpoint ∧ reason = reason' := by
      simpa [Engine.reported] using ho
    have hholds := h.holds u hmem
    unfold Turn.Holds at hholds
    rw [hu] at hholds
    obtain ⟨earlier, hp, hearlier⟩ := lost_push hholds
    refine ⟨rfl, before, u, before.flatMap (fun v => pushes v.tries) ++ earlier,
      ⟨link, u.key, payload, .error (.connection reason)⟩, hturns, ?_, rfl, rfl,
      fun q hq => ?_, h0, fun v hv => ?_⟩
    · rw [h.pushes_eq, hturns, List.flatMap_append, List.flatMap_singleton, hp, List.append_assoc]
    · rcases List.mem_append.mp hq with hq | hq
      · obtain ⟨v, hv, hq⟩ := List.mem_flatMap.mp hq
        exact loss_push (h.holds v (hturns ▸ List.mem_append_left _ hv)) (hbefore v hv) q hq
      · exact hearlier q hq
    · rcases h.accepted_zero_or_one (hturns ▸ List.mem_append_left _ hv) with hv | hv <;> omega
  · exact iff_of_false (by simp [Engine.reported]) hsome

end Spanned

end Cases

/-! ## A send is truthful -/

/-- The entry of a call that an engine does not take. -/
def Engine.refusedEntry (e : Engine) (error : LifecycleError) : LogEntry where
  level := .error
  source := .engine
  message := error.message
  fields := [("sink", e.name)]

/-- The engine is found started whenever somebody looks. -/
def IsRunning (t : List Exchange) : Prop :=
  ∀ phase : Phase, (⟨.phase, phase⟩ : Exchange) ∈ t → phase = .started

theorem IsRunning.left {t u : List Exchange} (h : IsRunning (t ++ u)) : IsRunning t :=
  fun phase hp => h phase (List.mem_append_left _ hp)

theorem IsRunning.right {t u : List Exchange} (h : IsRunning (t ++ u)) : IsRunning u :=
  fun phase hp => h phase (List.mem_append_right _ hp)

/-- An engine takes a call while it is started, and otherwise notes that it does not. -/
theorem trace_ensureStarted {e : Engine} {t : List Exchange} {r : Except LifecycleError Unit}
    (h : Trace e.ensureStarted t r) :
    (t = [⟨.phase, .started⟩] ∧ r = .ok ()) ∨
      ∃ phase error, phase ≠ Phase.started ∧ r = .error error ∧
        t = [⟨.phase, phase⟩] ++ [.logged (e.refusedEntry error)] := by
  obtain ⟨phase, u, rfl, h₁⟩ := Dialogue.trace_ask.mp h
  cases phase with
  | started =>
    obtain ⟨rfl, rfl⟩ := Dialogue.trace_done.mp h₁
    exact .inl ⟨rfl, rfl⟩
  | created =>
    obtain ⟨v, rfl, h₂⟩ := Dialogue.trace_log_bind.mp h₁
    obtain ⟨rfl, rfl⟩ := Dialogue.trace_done.mp h₂
    exact .inr ⟨.created, .notStarted, Phase.noConfusion, rfl, rfl⟩
  | stopped =>
    obtain ⟨v, rfl, h₂⟩ := Dialogue.trace_log_bind.mp h₁
    obtain ⟨rfl, rfl⟩ := Dialogue.trace_done.mp h₂
    exact .inr ⟨.stopped, .stopped, Phase.noConfusion, rfl, rfl⟩

/-- A send looks at the engine's phase first; it borrows a link if the engine is started, and is
refused if it is not. -/
theorem trace_sendWith_cases {e : Engine} {payload : Bytes} {token : TokenId} {t : List Exchange}
    {r : Except LifecycleError SendOutcome} (h : Trace (e.sendWith payload token) t r) :
    (∃ u outcome, t = ⟨.phase, .started⟩ :: u ∧ r = .ok outcome ∧
      Trace (e.sendOverLink payload token) u outcome) ∨
      ∃ phase error, phase ≠ Phase.started ∧ r = .error error ∧
        t = [⟨.phase, phase⟩] ++ [.logged (e.refusedEntry error)] := by
  obtain ⟨t₁, t₂, x, rfl, h₁, h₂⟩ := Dialogue.trace_bind.mp h
  rcases trace_ensureStarted h₁ with ⟨rfl, rfl⟩ | ⟨phase, error, hphase, rfl, rfl⟩
  · obtain ⟨t₃, t₄, outcome, rfl, h₃, h₄⟩ := Dialogue.trace_bind.mp h₂
    obtain ⟨rfl, rfl⟩ := Dialogue.trace_done.mp h₄
    exact .inl ⟨_, outcome, rfl, rfl, by rwa [List.append_nil]⟩
  · obtain ⟨rfl, rfl⟩ := Dialogue.trace_done.mp h₂
    exact .inr ⟨phase, error, hphase, rfl, rfl⟩

theorem trace_sendWith {e : Engine} {payload : Bytes} {token : TokenId} {t : List Exchange}
    {r : Except LifecycleError SendOutcome} (h : Trace (e.sendWith payload token) t r)
    {u : List Exchange} (ht : t = ⟨.phase, .started⟩ :: u) :
    ∃ outcome, r = .ok outcome ∧ Trace (e.sendOverLink payload token) u outcome := by
  rcases trace_sendWith_cases h with ⟨v, outcome, hv, hr, h⟩ | ⟨phase, error, hphase, -, hrefused⟩
  · cases ht.symm.trans hv
    exact ⟨outcome, hr, h⟩
  · cases ht.symm.trans hrefused
    exact absurd rfl hphase

/-- Where nothing is pushed there are no turns. -/
theorem Engine.spans_nothing (e : Engine) (payload : Bytes) (token : TokenId) {t : List Exchange}
    (hp : pushes t = []) : e.Spans payload token t [] :=
  ⟨List.nil_prefix, fun _ hu => absurd hu List.not_mem_nil, [], t, rfl, rfl, hp⟩

/-- The turns of a send over a link that was borrowed. -/
theorem Engine.spans_turns (e : Engine) {link : LinkId} {payload : Bytes} {token : TokenId}
    {turns : List Turn} {back : List Exchange} (hkeys : turns.map Turn.key <+: e.destination.keys)
    (hholds : ∀ u ∈ turns, u.Holds e link payload token) (hback : Calm back) (o : PayloadOutcome) :
    e.Spans payload token (⟨.phase, .started⟩ :: ⟨.poolPhase, .running⟩ :: ⟨.borrow, .ok link⟩ ::
      (turns.flatMap Turn.tries ++ (back ++ e.lossNote o))) turns := by
  refine ⟨hkeys, fun u hu => ⟨link, rfl, hholds u hu⟩,
    [⟨.phase, .started⟩, ⟨.poolPhase, .running⟩, ⟨.borrow, .ok link⟩], back ++ e.lossNote o, rfl,
    rfl, ?_⟩
  rw [pushes_append, hback.pushes_eq_nil, e.pushes_lossNote]
  rfl

theorem Engine.Spans.pushes_eq {e : Engine} {payload : Bytes} {token : TokenId}
    {t : List Exchange} {turns : List Turn} (h : e.Spans payload token t turns) :
    pushes t = turns.flatMap fun u => pushes u.tries := by
  obtain ⟨before, after, rfl, hbefore, hafter⟩ := h.exchanges
  rw [pushes_append, pushes_append, hbefore, hafter, List.append_nil, pushes_flatMap]
  rfl

/-- A send comes back with a report, its exchanges fall into turns of its keys in one way, and the
report agrees with the pushes of these. -/
def Engine.Reports (e : Engine) (payload : Bytes) (token : TokenId) (t : List Exchange)
    (r : Except LifecycleError SendOutcome) : Prop :=
  ∃ outcome turns, r = .ok outcome ∧ e.Spans payload token t turns ∧
    (∀ turns', e.Spans payload token t turns' → turns' = turns) ∧
    e.Truthful payload t turns outcome

/-- Every engine is made with a valid destination. -/
theorem Engine.isValid_of_ofConfig {c : Config} {token : TokenId} {e : Engine}
    (h : (Engine.ofConfig c token).result = .ok e) : e.destination.IsValid := by
  unfold Engine.ofConfig Logged.andThen at h
  split at h
  · cases h
  · dsimp only at h
    split at h
    · cases h
    · rename_i destination hdest
      cases h
      unfold Config.destination Destination.ofKeys at hdest
      split at hdest
      · cases hdest
      · rename_i made hmade
        cases hdest
        exact Destination.isValid_of_ofKeys? hmade

/-- **A send of a started engine reports what the store took**, whoever answers it and however. A
send on the engine's own token is one of them. -/
theorem send_truthful (e : Engine) (hd : e.destination.IsValid) (payload : Bytes) (token : TokenId)
    {σ : Type} (answer : (r : Request) → σ → r.Answer × σ) (s : σ)
    (hs : (answer .phase s).1 = .started) :
    e.Reports payload token ((e.sendWith payload token).exchanges answer s)
      ((e.sendWith payload token).run answer s).1 := by
  have htrace := Dialogue.trace_run answer (e.sendWith payload token) s
  obtain ⟨u, hu⟩ : ∃ u, (e.sendWith payload token).exchanges answer s =
      ⟨.phase, .started⟩ :: u := ⟨_, by rw [← hs]; rfl⟩
  obtain ⟨outcome, hr, h⟩ := trace_sendWith htrace hu
  rw [hu]
  rcases trace_sendOverLink h with ⟨reason, quiet, rfl, rfl, hb, -, hcalm⟩ |
    ⟨link, turns, o, back, rfl, hback, hkeys, hholds, hc, rfl⟩
  · have hp : pushes (⟨.phase, .started⟩ ::
        (quiet ++ [.logged (e.unreachableEntry reason)])) = [] :=
      hcalm.pushes_noted _
    have hspans := e.spans_nothing payload token hp
    exact ⟨_, [], hr, hspans, fun _ h' => h'.unique hspans, truthful_unavailable hd hb hp⟩
  · have hspans := e.spans_turns hkeys hholds hback o
    have hspanned : Spanned e link payload token _ turns := ⟨rfl, hspans.pushes_eq, hkeys, hholds⟩
    refine ⟨_, turns, hr, hspans, fun _ h' => h'.unique hspans, ?_⟩
    cases hc with
    | kept hkeys hkept => exact hspanned.truthful_kept hkeys hkept
    | lost before v reason hturns hbefore hv => exact hspanned.truthful_lost hturns hbefore hv

/-- An engine with two keys. -/
def Engine.twoKeys : Engine where
  name := "sink"
  destination := ⟨["a", "b"]⟩
  retry := {}
  pool := { endpoint := { host := "localhost" }, config := {} }
  token := 0

theorem Engine.twoKeys_isValid : Engine.twoKeys.destination.IsValid := by
  have made : (Engine.ofConfig
      { name := "sink", endpoint := { host := "localhost" }, keys := ["a", "b"] } 0).result =
      .ok Engine.twoKeys := rfl
  exact Engine.isValid_of_ofConfig made

/-- A started engine's world, with a store that rejects all pushes to the second key. -/
def halfDeaf : World ScriptedStore where
  remote := { plans := [("b", { after := .reject "OOM" })] }
  pool := { phase := .running }
  phase := .started

/-- The key that does not take the payload is the one that is reported. -/
theorem send_truthful_half :
    Engine.twoKeys.destination.IsValid ∧
      (World.answer ScriptedStore.transport Engine.twoKeys 1 .phase halfDeaf).1 = .started ∧
      ((Engine.twoKeys.sendWith [104] 0).run
        (World.answer ScriptedStore.transport Engine.twoKeys 1) halfDeaf).1.toOption =
          some (.failed (.undelivered ["b"] [])) ∧
      Engine.twoKeys.Reports [104] 0
        ((Engine.twoKeys.sendWith [104] 0).exchanges
          (World.answer ScriptedStore.transport Engine.twoKeys 1) halfDeaf)
        ((Engine.twoKeys.sendWith [104] 0).run
          (World.answer ScriptedStore.transport Engine.twoKeys 1) halfDeaf).1 := by
  refine ⟨Engine.twoKeys_isValid, rfl, by decide +kernel, ?_⟩
  exact send_truthful Engine.twoKeys Engine.twoKeys_isValid [104] 0
    (World.answer ScriptedStore.transport Engine.twoKeys 1) halfDeaf rfl

end LogShipper.Delivery
