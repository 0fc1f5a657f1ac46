import LogShipper.Proofs.Delivery.Sending
import LogShipper.Proofs.Delivery.Truth

/-!
# What a batch comes to

A batch is sent over one link, one payload after the other. What was done for one payload is its
`Course`: the turns of the keys, and how they ended. The courses come in the order of the batch, and
only the last one can lose the link; the payloads after it are abandoned. So the courses, of which
there is only one reading (`Engine.Covers`), account for all payloads (`Engine.Accounts`).

A course by itself is a send over a link that was borrowed before, and its outcome is as truthful
as the report of a send (`Course.Holds.truthful`).

Covers `send_bulk`.

Results:
* `trace_deliverAll`: the exchanges of the payload loop are courses, and how they decide the tally.
* `trace_bulkOverLink`: what a batch consists of.
* `bulk_accounted`: the report of a batch accounts for every payload once.
-/

namespace LogShipper.Delivery

open Dialogue (Trace)

/-! ## The turns of one payload -/

/-- Whether the payload was delivered. -/
def PayloadOutcome.isDelivered : PayloadOutcome → Bool
  | .delivered => true
  | _ => false

/-- What was done for one payload of a batch, and how it ended. -/
structure Course where
  payload : Bytes
  turns : List Turn
  outcome : PayloadOutcome

namespace Course

variable {e : Engine} {link : LinkId} {c : Course}

/-- The exchanges of the course. -/
def exchanges (c : Course) : List Exchange := c.turns.flatMap Turn.tries

/-- Whether the store took the payload for each of so many key positions. -/
def isTaken (c : Course) (keys : Nat) : Bool := decide (∀ i < keys, 0 < acceptedAt c.turns i)

/-- The course is a trace of the pushes of its payload to all keys, and the turns are those of the
first keys. -/
structure Holds (e : Engine) (link : LinkId) (c : Course) : Prop where
  trace : Trace (e.deliver link c.payload e.token) c.exchanges c.outcome
  keys : c.turns.map Turn.key <+: e.destination.keys
  turns : ∀ u ∈ c.turns, u.Holds e link c.payload e.token

/-- The pushes of a payload are a course. -/
theorem holds_of_trace {payload : Bytes} {t : List Exchange} {o : PayloadOutcome}
    (h : Trace (e.deliver link payload e.token) t o) :
    ∃ turns, t = turns.flatMap Turn.tries ∧ Holds e link ⟨payload, turns, o⟩ := by
  obtain ⟨turns, hkeys, hholds, rfl, -⟩ := trace_deliverKeys h
  exact ⟨turns, rfl, h, hkeys, hholds⟩

namespace Holds

variable (h : c.Holds e link)
include h

/-- How the turns decide the outcome. -/
theorem concludes : Concludes e.destination.keys [] [] c.turns c.outcome := by
  obtain ⟨turns, hkeys, hholds, ht, hc⟩ := trace_deliverKeys h.trace
  have same : c.turns = turns := legible_turns.parts_unique h.keys hkeys h.turns hholds rfl rfl
    (congrArg (· ++ []) ht)
  rwa [same]

/-- A course is a send over a link that was borrowed before. -/
theorem spanned :
    Spanned e link c.payload e.token (⟨.borrow, .ok link⟩ :: c.exchanges) c.turns where
  link_eq := rfl
  pushes_eq := by
    rw [pushes_cons_of_none rfl, exchanges, pushes_flatMap]
  keys := h.keys
  holds := h.turns

/-- A course is as truthful as a send. -/
theorem truthful : e.Truthful c.payload (⟨.borrow, .ok link⟩ :: c.exchanges) c.turns
    (e.reported c.outcome) := by
  have hc := h.concludes
  revert hc
  generalize c.outcome = o
  rintro (⟨hkeys, hkept⟩ | ⟨before, u, reason, hturns, hbefore, hu⟩)
  · exact h.spanned.truthful_kept hkeys hkept
  · exact h.spanned.truthful_lost hturns hbefore hu

/-- The payload is delivered if the store took it for every key, and else it is not. -/
theorem isDelivered_eq :
    c.outcome.isDelivered = c.isTaken e.destination.keys.length := by
  have one_iff (i : Nat) : 0 < acceptedAt c.turns i ↔ acceptedAt c.turns i = 1 := by
    by_cases hi : i < c.turns.length
    · rw [acceptedAt_of_lt hi]
      have := h.spanned.accepted_zero_or_one (List.getElem_mem hi)
      omega
    · simp [acceptedAt, hi]
  have hiff := h.truthful.delivered
  rw [Bool.eq_iff_iff, isTaken, decide_eq_true_iff]
  simp only [one_iff, ← hiff]
  cases c.outcome <;> simp [Engine.reported, PayloadOutcome.isDelivered]

/-- Without a loss no push of the course lost the link. -/
theorem kept (hc : c.outcome.keepsLink = true) : ∀ p ∈ pushes c.exchanges, p.isLoss = false := by
  intro p hp
  rw [Bool.eq_false_iff]
  intro hl
  obtain ⟨reason, hr⟩ := h.truthful.lost.mpr ⟨p, hp, hl⟩
  cases ho : c.outcome with
  | lost key reason =>
    rw [ho] at hc
    exact absurd hc Bool.false_ne_true
  | _ =>
    rw [ho] at hr
    cases hr

/-- With a loss the course ends with the push that lost the link. -/
theorem lost {key reason : String} (hc : c.outcome = .lost key reason) :
    ∃ own p, pushes c.exchanges = own ++ [p] ∧ p.key = key ∧
      p.answer = .error (.connection reason) ∧ ∀ q ∈ own, q.isLoss = false := by
  obtain ⟨-, before, u, own, p, hturns, hpushes, hanswer, hkey, hown, -⟩ :=
    h.truthful.lost_last e.endpoint reason (by rw [hc]; rfl)
  refine ⟨own, p, hpushes, hkey.trans ?_, hanswer, hown⟩
  have hconcludes := h.concludes
  generalize c.outcome = o at hconcludes hc
  cases hconcludes with
  | kept hkeys hkept =>
    have keeps : (PayloadOutcome.lost key reason).keepsLink = true :=
      hc ▸ PayloadOutcome.keepsLink_ofFailures _ _
    exact absurd keeps Bool.false_ne_true
  | lost before' v reason' hturns' hbefore' hv =>
    obtain ⟨rfl, -⟩ := PayloadOutcome.lost.inj hc
    rw [hturns] at hturns'
    rw [List.singleton_inj.mp (List.append_inj_right' hturns' rfl)]

/-- All pushes of a turn are of its key and of the payload. -/
theorem pushes_turn {u : Turn} (hu : u ∈ c.turns) : pushes u.tries ≠ [] ∧
    ∀ p ∈ pushes u.tries, p.link = link ∧ p.payload = c.payload ∧ p.key = u.key := by
  refine ⟨pushes_push_ne_nil (h.turns u hu), fun p hp => ?_⟩
  obtain ⟨hlink, hkey, hpayload⟩ := mem_pushes_push (h.turns u hu) p hp
  exact ⟨hlink, hpayload, hkey⟩

end Holds

/-- A course is told by its payload and its exchanges. -/
theorem legible (hd : e.destination.IsValid) :
    Legible Course.payload Course.exchanges (Holds e link) where
  head c h := by
    have hne := h.concludes.turns_ne_nil hd.keys_ne_nil
    obtain ⟨u, turns, hturns⟩ := List.exists_cons_of_ne_nil hne
    have hu : u.Holds e link c.payload e.token := h.turns u (hturns ▸ List.mem_cons_self)
    obtain ⟨x, t, hx, hpush⟩ := legible_turns.head u hu
    exact ⟨x, _, by rw [exchanges, hturns, List.flatMap_cons, hx]; rfl, hpush⟩
  eq_of_append a b ha hb hpayload u v h := by
    obtain ⟨hexchanges, houtcome⟩ := ha.trace.unique (hpayload ▸ hb.trace) h
    have hturns : a.turns = b.turns := legible_turns.parts_unique ha.keys hb.keys ha.turns
      (hpayload ▸ hb.turns) rfl rfl (congrArg (· ++ []) hexchanges)
    cases a
    cases b
    simp_all

end Course

/-! ## A batch falls into courses -/

/-- The exchanges of a batch fall into courses: of the first payloads, in order, over the link that
was borrowed, with nothing pushed before the first course and after the last one. -/
structure Engine.Covers (e : Engine) (payloads : List Bytes) (t : List Exchange)
    (courses : List Course) : Prop where
  payloads : courses.map Course.payload <+: payloads
  holds : ∀ c ∈ courses, ∃ link, borrowed t = some link ∧ c.Holds e link
  exchanges : ∃ before after, t = before ++ (courses.flatMap Course.exchanges ++ after) ∧
    pushes before = [] ∧ pushes after = []

/-- **A batch falls into courses in one way only.** -/
theorem Engine.Covers.unique {e : Engine} (hd : e.destination.IsValid) {payloads : List Bytes}
    {t : List Exchange} {courses₁ courses₂ : List Course} (h₁ : e.Covers payloads t courses₁)
    (h₂ : e.Covers payloads t courses₂) : courses₁ = courses₂ := by
  obtain ⟨b₁, a₁, ht₁, hb₁, ha₁⟩ := h₁.exchanges
  obtain ⟨b₂, a₂, ht₂, hb₂, ha₂⟩ := h₂.exchanges
  cases hlink : borrowed t with
  | none =>
    have empty {courses : List Course} (h : e.Covers payloads t courses) : courses = [] := by
      refine List.eq_nil_iff_forall_not_mem.mpr fun c hc => ?_
      obtain ⟨link, hl, -⟩ := h.holds c hc
      rw [hlink] at hl
      cases hl
    rw [empty h₁, empty h₂]
  | some link =>
    have held {courses : List Course} (h : e.Covers payloads t courses) :
        ∀ c ∈ courses, c.Holds e link := by
      intro c hc
      obtain ⟨link', hl, hc⟩ := h.holds c hc
      rw [hlink] at hl
      cases hl
      exact hc
    exact (Course.legible hd).reading_unique h₁.payloads h₂.payloads (held h₁) (held h₂) hb₁ hb₂
      ha₁ ha₂ (ht₁.symm.trans ht₂)

/-! ## What a report says -/

/-- The entry of a batch for which no link could be borrowed. -/
def Engine.unreachedEntry (e : Engine) (batch : String) (payloads : Nat) (reason : String) :
    LogEntry where
  level := .error
  source := .engine
  message := "Unable to connect to list store, abandoning batch"
  fields := [("sink", e.name), ("batch_id", batch), ("endpoint", e.endpoint),
    ("abandoned", Text.decimal payloads), ("error", reason)]

/-- The report of a batch agrees with what was pushed in the courses of its payloads. -/
structure Engine.Accounts (e : Engine) (payloads : List Bytes) (t : List Exchange)
    (courses : List Course) (report : BulkReport) : Prop where
  /-- Every payload is accounted for once. -/
  total : report.delivered + report.failed + report.abandoned = payloads.length
  /-- The payloads after those of the courses are abandoned. -/
  abandoned : courses.length + report.abandoned = payloads.length
  /-- Delivered are those that the store took for every key. -/
  delivered : report.delivered = courses.countP fun c => c.isTaken e.destination.keys.length
  /-- Failed are the others that were tried. -/
  failed : report.failed = courses.countP fun c => !c.isTaken e.destination.keys.length
  /-- All pushes go over the link that was borrowed. -/
  over_link : ∀ p ∈ pushes t, borrowed t = some p.link
  /-- The pushes come in the order of the batch, and for each payload in the order of the keys. -/
  in_order : pushes t = courses.flatMap (fun c => c.turns.flatMap fun u => pushes u.tries) ∧
    ∀ c ∈ courses, c.turns.map Turn.key <+: e.destination.keys ∧ ∀ u ∈ c.turns,
      pushes u.tries ≠ [] ∧ ∀ p ∈ pushes u.tries, p.payload = c.payload ∧ p.key = u.key
  /-- A reason to abandon payloads: no link was borrowed, or a push lost it. -/
  reason : 0 < report.abandoned → borrowed t = none ∨ ∃ p ∈ pushes t, p.isLoss = true
  /-- Without a link nothing is pushed, and that is the one alarm. -/
  unreached : borrowed t = none → courses = [] ∧ pushes t = [] ∧
    ∃ reason, alarms t = [e.unreachedEntry report.batch payloads.length reason]
  /-- A push that loses the link is the last one and belongs to the last payload that was tried,
  which the store did not take; that is the one alarm. -/
  lost : ∀ p ∈ pushes t, ∀ reason, p.answer = .error (.connection reason) →
    (∃ earlier, pushes t = earlier ++ [p] ∧ ∀ q ∈ earlier, q.isLoss = false) ∧
    (∃ before c own, courses = before ++ [c] ∧ pushes c.exchanges = own ++ [p] ∧
      c.isTaken e.destination.keys.length = false) ∧
    alarms t = [e.lostEntry p.key reason]
  /-- There is no other alarm. -/
  quiet : borrowed t ≠ none → (∀ p ∈ pushes t, p.isLoss = false) → alarms t = []

/-! ## The payload loop -/

/-- How the courses of a batch end it: how many payloads are abandoned, whether the link is still
good, and what follows the courses. -/
inductive Ends (e : Engine) (payloads : List Bytes) (courses : List Course) :
    Nat → Bool → List Exchange → Prop
  | kept (hpayloads : courses.map Course.payload = payloads)
      (hkept : ∀ c ∈ courses, c.outcome.keepsLink = true) : Ends e payloads courses 0 true []
  | lost (before : List Course) (c : Course) (rest : List Bytes) (key reason : String)
      (hcourses : courses = before ++ [c])
      (hpayloads : courses.map Course.payload ++ rest = payloads)
      (hkept : ∀ b ∈ before, b.outcome.keepsLink = true) (hc : c.outcome = .lost key reason) :
      Ends e payloads courses rest.length false [.logged (e.lostEntry key reason)]

/-- One more course that keeps the link, in front. -/
theorem Ends.cons {e : Engine} {payloads : List Bytes} {courses : List Course} {n : Nat}
    {healthy : Bool} {t : List Exchange} {c : Course} (hc : c.outcome.keepsLink = true)
    (h : Ends e payloads courses n healthy t) :
    Ends e (c.payload :: payloads) (c :: courses) n healthy t := by
  cases h with
  | kept hpayloads hkept =>
    refine .kept (by rw [List.map_cons, hpayloads]) fun b hb => ?_
    rcases List.mem_cons.mp hb with rfl | hb
    · exact hc
    · exact hkept b hb
  | lost before d rest key reason hcourses hpayloads hkept hd =>
    refine .lost (c :: before) d rest key reason (by rw [hcourses]; rfl) ?_ (fun b hb => ?_) hd
    · rw [List.map_cons, List.cons_append, hpayloads]
    · rcases List.mem_cons.mp hb with rfl | hb
      · exact hc
      · exact hkept b hb

/-- The exchanges of the payload loop are courses, and these make one tally of another. -/
structure Tallies (e : Engine) (link : LinkId) (payloads : List Bytes) (tally r : Engine.Tally)
    (t : List Exchange) (courses : List Course) (after : List Exchange) : Prop where
  exchanges : t = courses.flatMap Course.exchanges ++ after
  holds : ∀ c ∈ courses, c.Holds e link
  ends : Ends e payloads courses r.abandoned r.healthy after
  delivered : r.delivered = tally.delivered + courses.countP fun c => c.outcome.isDelivered
  failed : r.failed = tally.failed + courses.countP fun c => !c.outcome.isDelivered

/-- One more course that keeps the link, in front. -/
theorem Tallies.cons {e : Engine} {link : LinkId} {payloads : List Bytes}
    {tally tally' r : Engine.Tally} {t : List Exchange} {courses : List Course}
    {after : List Exchange} {c : Course} (hc : c.Holds e link)
    (hkeeps : c.outcome.keepsLink = true) (h : Tallies e link payloads tally' r t courses after)
    (hdelivered : tally'.delivered = tally.delivered + if c.outcome.isDelivered then 1 else 0)
    (hfailed : tally'.failed = tally.failed + if !c.outcome.isDelivered then 1 else 0) :
    Tallies e link (c.payload :: payloads) tally r (c.exchanges ++ t) (c :: courses) after where
  exchanges := by rw [h.exchanges, List.flatMap_cons, List.append_assoc]
  holds b hb := by
    rcases List.mem_cons.mp hb with rfl | hb
    · exact hc
    · exact h.holds b hb
  ends := h.ends.cons hkeeps
  delivered := by
    rw [List.countP_cons, h.delivered, hdelivered]
    omega
  failed := by
    rw [List.countP_cons, h.failed, hfailed]
    omega

/-- **The payload loop takes courses**: its exchanges are those of courses of the first payloads,
and these decide its tally. The induction is on the payloads that are left. -/
theorem trace_deliverAll {e : Engine} {link : LinkId} {payloads : List Bytes}
    {tally r : Engine.Tally} {t : List Exchange}
    (h : Trace (e.deliverAll link payloads tally) t r) (hnone : tally.abandoned = 0)
    (hhealthy : tally.healthy = true) :
    ∃ courses after, Tallies e link payloads tally r t courses after := by
  induction payloads generalizing tally t with
  | nil =>
    obtain ⟨rfl, rfl⟩ := Dialogue.trace_done.mp h
    refine ⟨[], [], rfl, fun _ hc => absurd hc List.not_mem_nil, ?_, rfl, rfl⟩
    rw [hnone, hhealthy]
    exact .kept rfl fun _ hc => absurd hc List.not_mem_nil
  | cons payload rest ih =>
    rw [Engine.deliverAll] at h
    obtain ⟨t₁, t₂, o, rfl, h₁, h₂⟩ := Dialogue.trace_bind.mp h
    obtain ⟨turns, rfl, hcourse⟩ := Course.holds_of_trace h₁
    match o with
    | .delivered =>
      obtain ⟨courses, after, htallies⟩ := ih h₂ hnone hhealthy
      exact ⟨_, after, Tallies.cons hcourse rfl htallies rfl rfl⟩
    | .undelivered _ _ =>
      obtain ⟨courses, after, htallies⟩ := ih h₂ hnone hhealthy
      exact ⟨_, after, Tallies.cons hcourse rfl htallies rfl rfl⟩
    | .lost key reason =>
      obtain ⟨_, rfl, h₃⟩ := Dialogue.trace_log_bind.mp h₂
      obtain ⟨rfl, rfl⟩ := Dialogue.trace_done.mp h₃
      refine ⟨[⟨payload, turns, .lost key reason⟩], [.logged (e.lostEntry key reason)], ?_,
        fun c hc => ?_, ?_, rfl, rfl⟩
      · rw [List.flatMap_singleton]
        rfl
      · obtain rfl := List.mem_singleton.mp hc
        exact hcourse
      · exact .lost [] _ rest key reason rfl rfl (fun _ hb => absurd hb List.not_mem_nil) rfl

/-! ## The report agrees with the courses -/

section Report

variable {e : Engine} {link : LinkId} {payloads : List Bytes} {courses : List Course}
  {tally : Engine.Tally} {t after : List Exchange}

theorem Course.pushes_exchanges (c : Course) :
    pushes c.exchanges = c.turns.flatMap fun u => pushes u.tries :=
  pushes_flatMap _ _

theorem Ends.first {n : Nat} {healthy : Bool} (h : Ends e payloads courses n healthy t) :
    courses.map Course.payload <+: payloads ∧ courses.length + n = payloads.length := by
  cases h with
  | kept hpayloads hkept =>
    subst hpayloads
    exact ⟨List.prefix_rfl, by simp⟩
  | lost before c rest key reason hcourses hpayloads hkept hc =>
    subst hpayloads
    exact ⟨List.prefix_append _ rest, by simp⟩

/-- Where no course loses the link there is one for every payload. -/
theorem Ends.of_kept {n : Nat} {healthy : Bool} (h : Ends e payloads courses n healthy t)
    (hkept : ∀ c ∈ courses, c.outcome.keepsLink = true) :
    courses.map Course.payload = payloads ∧ n = 0 := by
  cases h with
  | kept hpayloads _ => exact ⟨hpayloads, rfl⟩
  | lost before c rest key reason hcourses _ _ hc =>
    have hkeeps := hkept c (hcourses ▸ List.mem_concat_self)
    rw [hc] at hkeeps
    exact absurd hkeeps Bool.false_ne_true

theorem Ends.pushes_eq_nil {n : Nat} {healthy : Bool} (h : Ends e payloads courses n healthy t) :
    pushes t = [] := by
  cases h <;> rfl

/-- The courses of a batch raise no alarm. -/
theorem alarms_courses (h : ∀ c ∈ courses, c.Holds e link) :
    alarms (courses.flatMap Course.exchanges) = [] := by
  rw [alarms_flatMap, List.flatMap_eq_nil_iff]
  refine fun c hc => (e.deliver_tries link c.payload e.token).alarms_eq_nil (fun entry hentry => ?_)
    (h c hc).trace
  refine LogEntry.isAlarm_of_source ?_
  rw [eq_of_beq hentry]
  exact Source.noConfusion

namespace Tallies

section

variable {r : Engine.Tally} (h : Tallies e link payloads tally r t courses after)
include h

theorem pushes_eq : pushes t = courses.flatMap fun c => pushes c.exchanges := by
  rw [h.exchanges, pushes_append, h.ends.pushes_eq_nil, List.append_nil, pushes_flatMap]

theorem alarms_eq : alarms t = alarms after := by
  rw [h.exchanges, alarms_append, alarms_courses h.holds, List.nil_append]

theorem over_link : ∀ p ∈ pushes t, p.link = link := by
  intro p hp
  rw [h.pushes_eq] at hp
  obtain ⟨c, hc, hp⟩ := List.mem_flatMap.mp hp
  rw [c.pushes_exchanges] at hp
  obtain ⟨u, hu, hp⟩ := List.mem_flatMap.mp hp
  exact (((h.holds c hc).pushes_turn hu).2 p hp).1

theorem in_order : pushes t = courses.flatMap (fun c => c.turns.flatMap fun u => pushes u.tries) ∧
    ∀ c ∈ courses, c.turns.map Turn.key <+: e.destination.keys ∧ ∀ u ∈ c.turns,
      pushes u.tries ≠ [] ∧ ∀ p ∈ pushes u.tries, p.payload = c.payload ∧ p.key = u.key := by
  refine ⟨?_, fun c hc => ⟨(h.holds c hc).keys, fun u hu => ?_⟩⟩
  · rw [h.pushes_eq]
    simp only [Course.pushes_exchanges]
  · obtain ⟨hpushes, hall⟩ := (h.holds c hc).pushes_turn hu
    exact ⟨hpushes, fun p hp => (hall p hp).2⟩

/-- Either no push loses the link and no payload is abandoned, or the last push of the last course
loses it, and that is the one alarm. -/
theorem kept_or_lost :
    (r.abandoned = 0 ∧ (∀ p ∈ pushes t, p.isLoss = false) ∧ alarms t = []) ∨
    ∃ before c earlier own p reason, courses = before ++ [c] ∧ pushes t = earlier ++ [p] ∧
      pushes c.exchanges = own ++ [p] ∧ (∀ q ∈ earlier, q.isLoss = false) ∧
      p.answer = .error (.connection reason) ∧ c.outcome.isDelivered = false ∧
      alarms t = [e.lostEntry p.key reason] := by
  have kept {cs : List Course} (hcs : ∀ c ∈ cs, c ∈ courses)
      (hkept : ∀ c ∈ cs, c.outcome.keepsLink = true) :
      ∀ p ∈ cs.flatMap fun c => pushes c.exchanges, p.isLoss = false := by
    intro p hp
    obtain ⟨c, hc, hp⟩ := List.mem_flatMap.mp hp
    exact (h.holds c (hcs c hc)).kept (hkept c hc) p hp
  rw [h.alarms_eq, h.pushes_eq]
  have hends := h.ends
  generalize r.abandoned = n at hends ⊢
  generalize r.healthy = healthy at hends
  cases hends with
  | kept hpayloads hkept => exact .inl ⟨rfl, kept (fun _ hc => hc) hkept, rfl⟩
  | lost before c rest key reason hcourses hpayloads hkept hc =>
    have hmem : c ∈ courses := hcourses ▸ List.mem_concat_self
    obtain ⟨own, p, hown, hkey, hanswer, hbefore⟩ := (h.holds c hmem).lost hc
    have earlier := kept (fun b hb => hcourses ▸ List.mem_append_left [c] hb) hkept
    refine .inr ⟨before, c, before.flatMap (fun c => pushes c.exchanges) ++ own, own, p, reason,
      hcourses, ?_, hown, fun q hq => ?_, hanswer, by rw [hc]; rfl, by rw [hkey]; rfl⟩
    · rw [hcourses, List.flatMap_append, List.flatMap_singleton, hown, List.append_assoc]
    · rcases List.mem_append.mp hq with hq | hq
      · exact earlier q hq
      · exact hbefore q hq

end

section

variable (h : Tallies e link payloads {} tally t courses after)
include h

theorem delivered_eq :
    tally.delivered = courses.countP fun c => c.isTaken e.destination.keys.length := by
  rw [h.delivered, Nat.zero_add]
  exact List.countP_congr fun c hc => by rw [(h.holds c hc).isDelivered_eq]

theorem failed_eq :
    tally.failed = courses.countP fun c => !c.isTaken e.destination.keys.length := by
  rw [h.failed, Nat.zero_add]
  exact List.countP_congr fun c hc => by rw [(h.holds c hc).isDelivered_eq]

/-- Every payload that was tried is delivered or failed. -/
theorem tried : tally.delivered + tally.failed = courses.length := by
  have hfailed : tally.failed = courses.countP fun c => decide ¬ c.outcome.isDelivered = true := by
    rw [h.failed, Nat.zero_add]
    exact List.countP_congr fun c _ => by simp
  rw [h.delivered, Nat.zero_add, hfailed]
  exact (List.length_eq_countP_add_countP _).symm

/-- **A batch over a borrowed link** is accounted for. -/
theorem accounts_borrowed {before rest u : List Exchange} (batch : String)
    (hu : u = before ++ (t ++ rest)) (hlink : borrowed u = some link)
    (hbefore : pushes before = [] ∧ alarms before = [])
    (hrest : pushes rest = [] ∧ alarms rest = []) :
    e.Accounts payloads u courses ⟨batch, tally.delivered, tally.failed, tally.abandoned⟩ := by
  have hpushes : pushes u = pushes t := by
    rw [hu, pushes_append, pushes_append, hbefore.1, hrest.1, List.nil_append, List.append_nil]
  have halarms : alarms u = alarms t := by
    rw [hu, alarms_append, alarms_append, hbefore.2, hrest.2, List.nil_append, List.append_nil]
  have hsome : borrowed u ≠ none := by rw [hlink]; exact Option.some_ne_none link
  have hlength := h.ends.first.2
  have htotal : tally.delivered + tally.failed + tally.abandoned = payloads.length := by
    rw [h.tried, hlength]
  have hover : ∀ p ∈ pushes t, borrowed u = some p.link := fun p hp => by
    rw [hlink, h.over_link p hp]
  have horder := h.in_order
  rcases h.kept_or_lost with ⟨hnone, hkept, hquiet⟩ |
    ⟨earlier, c, others, own, p, reason, hcourses, hlast, hown, hkept, hanswer, hc, halarm⟩
  · refine ⟨htotal, hlength, h.delivered_eq, h.failed_eq, hpushes ▸ hover, hpushes ▸ horder,
      fun h0 => absurd hnone (Nat.pos_iff_ne_zero.mp h0), fun hb => absurd hb hsome,
      fun p hp reason hanswer => ?_, fun _ _ => halarms.trans hquiet⟩
    have hloss := hkept p (hpushes ▸ hp)
    rw [Pushed.isLoss_of_answer hanswer] at hloss
    cases hloss
  · have hp : p ∈ pushes t := hlast ▸ List.mem_concat_self
    have hloss := Pushed.isLoss_of_answer hanswer
    refine ⟨htotal, hlength, h.delivered_eq, h.failed_eq, hpushes ▸ hover, hpushes ▸ horder,
      fun _ => .inr ⟨p, hpushes ▸ hp, hloss⟩, fun hb => absurd hb hsome,
      fun q hq reason' hanswer' => ?_, fun _ hall => ?_⟩
    · obtain rfl : q = p := by
        rw [hpushes, hlast] at hq
        rcases List.mem_append.mp hq with hq | hq
        · have hkeeps := hkept q hq
          rw [Pushed.isLoss_of_answer hanswer'] at hkeeps
          cases hkeeps
        · exact List.mem_singleton.mp hq
      obtain rfl : reason = reason' := by simpa [hanswer] using hanswer'
      refine ⟨⟨others, hpushes.trans hlast, hkept⟩, ⟨earlier, c, own, hcourses, hown, ?_⟩,
        halarms.trans halarm⟩
      rw [← (h.holds c (hcourses ▸ List.mem_concat_self)).isDelivered_eq, hc]
    · have hkeeps := hall p (hpushes ▸ hp)
      rw [hloss] at hkeeps
      cases hkeeps

end

end Tallies

/-- A batch for which no link was borrowed. -/
theorem accounts_unreached {batch reason : String} (hb : borrowed t = none) (hp : pushes t = [])
    (ha : alarms t = [e.unreachedEntry batch payloads.length reason]) :
    e.Accounts payloads t [] ⟨batch, 0, 0, payloads.length⟩ where
  total := by simp
  abandoned := by simp
  delivered := rfl
  failed := rfl
  over_link p hm := by simp [hp] at hm
  in_order := ⟨hp, fun _ hc => absurd hc List.not_mem_nil⟩
  reason _ := .inl hb
  unreached _ := ⟨rfl, hp, reason, ha⟩
  lost p hm := by simp [hp] at hm
  quiet h := absurd hb h

end Report

/-! ## A batch is accounted for -/

/-- The entry before the pushes of a batch. -/
def Engine.sendingEntry (e : Engine) (batch : String) : LogEntry where
  level := .debug
  source := .engine
  message := "Sending batch"
  fields := [("sink", e.name), ("batch_id", batch)]

/-- What is logged of a batch that was sent is calm. -/
theorem trace_logBatch {e : Engine} {report : BulkReport} {t : List Exchange} {r : Unit}
    (h : Trace (e.logBatch report) t r) : Calm t := by
  unfold Engine.logBatch at h
  split at h
  all_goals
    obtain ⟨x, _, rfl, h₁⟩ := Dialogue.trace_ask.mp h
    obtain ⟨rfl, -⟩ := Dialogue.trace_done.mp h₁
    exact .cons rfl .nil

/-- **What a batch consists of**: without a link that is noted, and the keys are left alone; with
one, the courses of the payloads come first, then what leaves the keys alone. -/
theorem trace_bulkOverLink {e : Engine} {payloads : List Bytes} {batch : String}
    {t : List Exchange} {r : BulkReport} (h : Trace (e.bulkOverLink payloads batch) t r) :
    (∃ reason before, r = ⟨batch, 0, 0, payloads.length⟩ ∧
      t = before ++ [.logged (e.unreachedEntry batch payloads.length reason)] ∧
      borrowed t = none ∧ entries before = [] ∧ Calm before) ∨
    ∃ (link : LinkId) (tally : Engine.Tally) (u rest : List Exchange) (courses : List Course)
      (after : List Exchange),
      t = ⟨.poolPhase, .running⟩ :: ⟨.borrow, .ok link⟩ :: .logged (e.sendingEntry batch) ::
        (u ++ rest) ∧ Tallies e link payloads {} tally u courses after ∧ Calm rest ∧
      r = ⟨batch, tally.delivered, tally.failed, tally.abandoned⟩ := by
  obtain ⟨t₁, t₂, got, rfl, h₁, h₂⟩ := Dialogue.trace_bind.mp h
  rcases trace_acquire h₁ with ⟨link, rfl, rfl⟩ | ⟨⟨err, rfl⟩, hb, hentries, hcalm⟩
  · obtain ⟨t₃, rfl, h₃⟩ := Dialogue.trace_log_bind.mp h₂
    obtain ⟨t₄, t₅, tally, rfl, h₄, h₅⟩ := Dialogue.trace_bind.mp h₃
    obtain ⟨t₆, t₇, _, rfl, h₆, h₇⟩ := Dialogue.trace_bind.mp h₅
    obtain ⟨t₈, t₉, _, rfl, h₈, h₉⟩ := Dialogue.trace_bind.mp h₇
    obtain ⟨rfl, rfl⟩ := Dialogue.trace_done.mp h₉
    obtain ⟨courses, after, htallies⟩ := trace_deliverAll h₄ rfl rfl
    refine .inr ⟨link, tally, t₄, t₆ ++ (t₈ ++ []), courses, after, rfl, htallies, ?_, rfl⟩
    rw [List.append_nil]
    exact (e.pool.calm_release link h₆).append (trace_logBatch h₈)
  · obtain ⟨_, rfl, h₃⟩ := Dialogue.trace_log_bind.mp h₂
    obtain ⟨rfl, rfl⟩ := Dialogue.trace_done.mp h₃
    refine .inl ⟨err.message, t₁, rfl, rfl, ?_, hentries, hcalm⟩
    rw [borrowed, List.findSome?_append]
    exact Option.or_eq_none_iff.mpr ⟨hb, rfl⟩

/-- A batch looks at the engine's phase first; it takes a name for itself if the engine is started,
and is refused if it is not. -/
theorem trace_sendBulk_cases {e : Engine} {payloads : List Bytes} {t : List Exchange}
    {r : Except LifecycleError BulkReport} (h : Trace (e.sendBulk payloads) t r) :
    (∃ batch report u, t = ⟨.phase, .started⟩ :: ⟨.batchName, batch⟩ :: u ∧ r = .ok report ∧
      Trace (e.bulkOverLink payloads batch) u report) ∨
      ∃ phase error, phase ≠ Phase.started ∧ r = .error error ∧
        t = [⟨.phase, phase⟩] ++ [.logged (e.refusedEntry error)] := by
  obtain ⟨t₁, t₂, x, rfl, h₁, h₂⟩ := Dialogue.trace_bind.mp h
  rcases trace_ensureStarted h₁ with ⟨rfl, rfl⟩ | ⟨phase, error, hphase, rfl, rfl⟩
  · obtain ⟨batch, u, rfl, h₃⟩ := Dialogue.trace_ask.mp h₂
    have h₃ : Trace ((e.bulkOverLink payloads batch).bind fun report => .done (.ok report)) u r :=
      h₃
    obtain ⟨t₃, t₄, report, rfl, h₄, h₅⟩ := Dialogue.trace_bind.mp h₃
    obtain ⟨rfl, rfl⟩ := Dialogue.trace_done.mp h₅
    exact .inl ⟨batch, report, _, rfl, rfl, by rwa [List.append_nil]⟩
  · obtain ⟨rfl, rfl⟩ := Dialogue.trace_done.mp h₂
    exact .inr ⟨phase, error, hphase, rfl, rfl⟩

theorem trace_sendBulk {e : Engine} {payloads : List Bytes} {t : List Exchange}
    {r : Except LifecycleError BulkReport} (h : Trace (e.sendBulk payloads) t r)
    {u : List Exchange} (ht : t = ⟨.phase, .started⟩ :: u) :
    ∃ batch report v, r = .ok report ∧ u = ⟨.batchName, batch⟩ :: v ∧
      Trace (e.bulkOverLink payloads batch) v report := by
  rcases trace_sendBulk_cases h with ⟨batch, report, v, hv, hr, h⟩ |
    ⟨phase, error, hphase, -, hrefused⟩
  · cases ht.symm.trans hv
    exact ⟨batch, report, v, hr, rfl, h⟩
  · cases ht.symm.trans hrefused
    exact absurd rfl hphase

/-- Where nothing is pushed there are no courses. -/
theorem Engine.covers_nothing (e : Engine) (payloads : List Bytes) {t : List Exchange}
    (hp : pushes t = []) : e.Covers payloads t [] :=
  ⟨List.nil_prefix, fun _ hc => absurd hc List.not_mem_nil, [], t, rfl, rfl, hp⟩

/-- What comes before the courses of a batch over a link that was borrowed. -/
def Engine.opening (e : Engine) (link : LinkId) (batch : String) : List Exchange :=
  [⟨.phase, .started⟩, ⟨.batchName, batch⟩, ⟨.poolPhase, .running⟩, ⟨.borrow, .ok link⟩,
    .logged (e.sendingEntry batch)]

/-- The courses of a batch over a link that was borrowed. -/
theorem Tallies.covers {e : Engine} {link : LinkId} {payloads : List Bytes}
    {tally r : Engine.Tally} {t after rest : List Exchange} {courses : List Course}
    (h : Tallies e link payloads tally r t courses after) (hrest : Calm rest) (batch : String) :
    e.Covers payloads (e.opening link batch ++ (t ++ rest)) courses := by
  refine ⟨h.ends.first.1, fun c hc => ⟨link, rfl, h.holds c hc⟩, e.opening link batch,
    after ++ rest, ?_, rfl, ?_⟩
  · rw [h.exchanges, List.append_assoc]
  · rw [pushes_append, h.ends.pushes_eq_nil, hrest.pushes_eq_nil, List.nil_append]

/-- A batch comes back with a report, its exchanges fall into courses of its payloads in one way,
and the report accounts for these. -/
def Engine.AccountsFor (e : Engine) (payloads : List Bytes) (t : List Exchange)
    (r : Except LifecycleError BulkReport) : Prop :=
  ∃ report courses, r = .ok report ∧ e.Covers payloads t courses ∧
    (∀ courses', e.Covers payloads t courses' → courses' = courses) ∧
    e.Accounts payloads t courses report

/-- **The report of a batch accounts for every payload once**, whoever answers it and however. -/
theorem bulk_accounted (e : Engine) (hd : e.destination.IsValid) (payloads : List Bytes)
    {σ : Type} (answer : (r : Request) → σ → r.Answer × σ) (s : σ)
    (hs : (answer .phase s).1 = .started) :
    e.AccountsFor payloads ((e.sendBulk payloads).exchanges answer s)
      ((e.sendBulk payloads).run answer s).1 := by
  have htrace := Dialogue.trace_run answer (e.sendBulk payloads) s
  obtain ⟨u, hu⟩ : ∃ u, (e.sendBulk payloads).exchanges answer s = ⟨.phase, .started⟩ :: u :=
    ⟨_, by rw [← hs]; rfl⟩
  obtain ⟨batch, report, v, hr, rfl, h⟩ := trace_sendBulk htrace hu
  rw [hu]
  rcases trace_bulkOverLink h with ⟨reason, quiet, rfl, rfl, hb, hentries, hcalm⟩ |
    ⟨link, tally, w, rest, courses, after, rfl, htallies, hrest, rfl⟩
  · have hp : pushes (⟨.phase, .started⟩ :: ⟨.batchName, batch⟩ ::
        (quiet ++ [.logged (e.unreachedEntry batch payloads.length reason)])) = [] :=
      hcalm.pushes_noted _
    have ha : alarms (⟨.phase, .started⟩ :: ⟨.batchName, batch⟩ ::
        (quiet ++ [.logged (e.unreachedEntry batch payloads.length reason)])) =
          [e.unreachedEntry batch payloads.length reason] := by
      show alarms (quiet ++ _) = _
      rw [alarms_append, hcalm.alarms_eq_nil]
      rfl
    have covers := e.covers_nothing payloads hp
    exact ⟨_, [], hr, covers, fun _ h' => h'.unique hd covers, accounts_unreached hb hp ha⟩
  · have covers := htallies.covers hrest batch
    exact ⟨_, courses, hr, covers, fun _ h' => h'.unique hd covers,
      htallies.accounts_borrowed batch (Eq.refl (e.opening link batch ++ (w ++ rest))) rfl
        ⟨rfl, rfl⟩ ⟨hrest.pushes_eq_nil, hrest.alarms_eq_nil⟩⟩

/-- A started engine's world, with a store that loses the link with the second push to the second
key. -/
def fragile : World ScriptedStore where
  remote := { plans := [("b", { next := [.accept, .sever "reset by peer"] })] }
  pool := { phase := .running }
  phase := .started

/-- The payload whose push lost the link has failed, and the two after it are abandoned. -/
theorem bulk_accounted_fragile :
    Engine.twoKeys.destination.IsValid ∧
      (World.answer ScriptedStore.transport Engine.twoKeys 1 .phase fragile).1 = .started ∧
      ((Engine.twoKeys.sendBulk [[104], [105], [106], [107]]).run
        (World.answer ScriptedStore.transport Engine.twoKeys 1) fragile).1.toOption.map
          (fun r => (r.delivered, r.failed, r.abandoned)) = some (1, 1, 2) ∧
      Engine.twoKeys.AccountsFor [[104], [105], [106], [107]]
        ((Engine.twoKeys.sendBulk [[104], [105], [106], [107]]).exchanges
          (World.answer ScriptedStore.transport Engine.twoKeys 1) fragile)
        ((Engine.twoKeys.sendBulk [[104], [105], [106], [107]]).run
          (World.answer ScriptedStore.transport Engine.twoKeys 1) fragile).1 := by
  refine ⟨Engine.twoKeys_isValid, rfl, by decide +kernel, ?_⟩
  exact bulk_accounted Engine.twoKeys Engine.twoKeys_isValid [[104], [105], [106], [107]]
    (World.answer ScriptedStore.transport Engine.twoKeys 1) fragile rfl

end LogShipper.Delivery
