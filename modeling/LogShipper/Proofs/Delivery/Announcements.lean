import LogShipper.Proofs.Delivery.Batches

/-!
# What is said of a delivery

The log is the only trace of a record that is lost. It is written in three places: the tries of a
key tell how they ended, the engine tells that a link was lost or that none could be borrowed, and
the pool tells of links only. Together they are exact: for each key position that was tried there is
one verdict, of its outcome, and beside the verdicts of those that failed nothing is complained of.

`Engine.Announces e t turns troubles` says so of exchanges `t` and the turns in them. It is closed
under going on (`Announces.append`), so it holds of a send and of a batch because it holds of one
turn (`announces_kept`, `announces_lost`) and of what leaves the keys alone (`Calm.announces`).

Covers what `send`, `send_bulk` and `push_with_retry` log.

Out of scope: what is logged in the background, which belongs to no delivery.

Results:
* `Turn.Holds.told`: which verdict it is, by the pushes and the waits of the turn.
* `Concludes.announces`: the turns of one payload.
* `Tallies.announces`: the courses of a batch.
* `delivery_announced`: what a send and what a batch say, whoever answers them.
-/

namespace LogShipper

/-- Whether an entry tells how a key position ended: whatever tries tell but that they go on, and
the note of a lost link. -/
def LogEntry.isVerdict (x : LogEntry) : Bool :=
  (x.source == .retry && x.level != .warn) ||
    (x.source == .engine && x.level == .error &&
      x.message == "Connection to list store lost, abandoning delivery")

/-- Whether an entry tells that a push will be tried again. -/
def LogEntry.isRetrying (x : LogEntry) : Bool :=
  x.source == .retry && x.level == .warn && x.message == "Failed to push record, retrying"

/-- Whether an entry complains. -/
def LogEntry.isComplaint (x : LogEntry) : Bool := x.level == .error || x.level == .info

theorem LogEntry.of_isCalm {x : LogEntry} (h : x.isCalm = true) :
    x.isVerdict = false ∧ x.isRetrying = false ∧ x.isComplaint = false := by
  obtain ⟨level, source, message, fields⟩ := x
  cases level <;> cases source <;>
    simp_all [isCalm, isVerdict, isRetrying, isComplaint]

namespace Delivery

open Cancel (TokenId)
open Dialogue (Trace)

/-! ## Verdicts -/

/-- The verdict on a key, by how its tries ended. -/
def Engine.verdict (e : Engine) (key : String) : KeyOutcome → LogEntry
  | .delivered n =>
    ⟨.debug, .retry, "Pushed record", [("key", key), ("attempts", Text.decimal n)]⟩
  | .exhausted n error =>
    ⟨.error, .retry, "Unable to send a log record after " ++ Text.decimal n ++ " tries",
      [("key", key), ("attempts", Text.decimal n), ("error", error)]⟩
  | .cancelled n =>
    ⟨.info, .retry, "Retry wait cancelled, aborting remaining retries for key",
      [("key", key), ("attempts", Text.decimal n)]⟩
  | .lost reason => e.lostEntry key reason

/-- The verdict on the key position of a turn. -/
def Turn.verdict (e : Engine) (u : Turn) : LogEntry := e.verdict u.key u.outcome

/-- Whether the store turned the payload down. -/
def Pushed.isRejected (p : Pushed) : Bool :=
  match p.answer with
  | .error (.command _) => true
  | _ => false

/-- Whether a wait between two tries is entered. -/
def Exchange.isWait (x : Exchange) : Bool :=
  match x.request with
  | .wait _ _ => true
  | _ => false

/-- Whether a wait between two tries is cancelled. -/
def Exchange.isCancelledWait : Exchange → Bool
  | ⟨.wait _ _, .cancelled⟩ => true
  | _ => false

@[simp] theorem Exchange.isCancelledWait_logged (entry : LogEntry) :
    (Exchange.logged entry).isCancelledWait = false := rfl

@[simp] theorem Job.isCancelledWait_pushed (j : Job) (answer : Except LinkError Unit) :
    (j.pushed answer).isCancelledWait = false := rfl

@[simp] theorem Job.isCancelledWait_waited (j : Job) (outcome : Cancel.WaitOutcome) :
    (j.waited outcome).isCancelledWait = decide (outcome = .cancelled) := by
  cases outcome <;> rfl

/-- The complaints among exchanges. -/
def complaints (t : List Exchange) : List LogEntry := (entries t).filter LogEntry.isComplaint

theorem complaints_append (t u : List Exchange) :
    complaints (t ++ u) = complaints t ++ complaints u := by
  rw [complaints, entries_append, List.filter_append]
  rfl

/-- How a turn ended agrees with its pushes and its waits, and so does the number of tries that its
verdict tells. Just one of the four holds of a turn. -/
structure Turn.Told (e : Engine) (u : Turn) : Prop where
  /-- A push was accepted. -/
  delivered : u.outcome = .delivered (pushes u.tries).length ↔
    ∃ p ∈ pushes u.tries, p.isAccepted = true
  /-- Every push was rejected, as many as the policy allows. -/
  exhausted : (∃ error, u.outcome = .exhausted (pushes u.tries).length error) ↔
    (pushes u.tries).length = e.retry.attempts ∧ ∀ p ∈ pushes u.tries, p.isRejected = true
  /-- The error that is told is that of the last push. -/
  last_error : ∀ n error, u.outcome = .exhausted n error →
    ∃ p, (pushes u.tries).getLast? = some p ∧ p.answer = .error (.command error)
  /-- A wait was cancelled. -/
  cancelled : u.outcome = .cancelled (pushes u.tries).length ↔
    ∃ x ∈ u.tries, x.isCancelledWait = true
  /-- A push lost the link. -/
  lost : ∀ reason, u.outcome = .lost reason ↔
    ∃ p ∈ pushes u.tries, p.answer = .error (.connection reason)

/-! ## The tries of a key -/

namespace Job.Tried

variable {j : Job} {left used : Nat} {t : List Exchange} {o : KeyOutcome}
  (h : j.Tried left used t o)
include h

/-- The tries tell one verdict, unless they lose the link. -/
theorem verdicts (e : Engine) : (entries t).filter LogEntry.isVerdict =
    if o.isLost then [] else [e.verdict j.key o] := by
  induction h with
  | again error _ ih => exact ih
  | _ => rfl

/-- The tries complain if they end without success and keep the link. -/
theorem complaints_eq (e : Engine) : complaints t =
    if o.isLost || o.isDelivered then [] else [e.verdict j.key o] := by
  induction h with
  | again error _ ih => exact ih
  | _ => rfl

/-- As many entries tell of another try as waits are entered. -/
theorem countP_retrying :
    (entries t).countP LogEntry.isRetrying = t.countP Exchange.isWait := by
  have one (n : Nat) (error : String) : (j.retryingEntry n error).isRetrying = true := by
    simp [retryingEntry, LogEntry.isRetrying]
  induction h with
  | delivered left used => rfl
  | lost left used reason => rfl
  | exhausted used error => rfl
  | cancelled left used error =>
    show [j.retryingEntry (used + 1) error, j.cancelledEntry (used + 1)].countP _ = 1
    rw [List.countP_cons_of_pos (one _ _)]
    rfl
  | @again left used t o error _ ih =>
    show (j.retryingEntry (used + 1) error :: entries t).countP LogEntry.isRetrying =
      (j.waited .elapsed :: t).countP Exchange.isWait
    rw [List.countP_cons_of_pos (one _ _), List.countP_cons_of_pos rfl, ih]

theorem delivered_iff : o = .delivered (used + (pushes t).length) ↔
    ∃ p ∈ pushes t, p.isAccepted = true := by
  induction h with
  | again error _ ih => simpa [Pushed.isAccepted, Nat.add_assoc, Nat.add_comm 1] using ih
  | _ => simp [Pushed.isAccepted]

theorem exhausted_iff : (∃ error, o = .exhausted (used + (pushes t).length) error) ↔
    (pushes t).length = left + 1 ∧ ∀ p ∈ pushes t, p.isRejected = true := by
  induction h with
  | again error _ ih => simpa [Pushed.isRejected, Nat.add_assoc, Nat.add_comm 1] using ih
  | _ => simp [Pushed.isRejected]

theorem last_error {n : Nat} {error : String} (ho : o = .exhausted n error) :
    ∃ p, (pushes t).getLast? = some p ∧ p.answer = .error (.command error) := by
  induction h with
  | again _ _ ih =>
    obtain ⟨p, hp, hanswer⟩ := ih ho
    refine ⟨p, ?_, hanswer⟩
    rw [pushes_pushed, pushes_logged, pushes_waited, List.getLast?_cons, hp]
    rfl
  | _ => simp_all

theorem cancelled_iff : o = .cancelled (used + (pushes t).length) ↔
    ∃ x ∈ t, x.isCancelledWait = true := by
  induction h with
  | again error _ ih => simpa [Nat.add_assoc, Nat.add_comm 1] using ih
  | _ => simp

theorem lost_iff (reason : String) : o = .lost reason ↔
    ∃ p ∈ pushes t, p.answer = .error (.connection reason) := by
  induction h with
  | again error _ ih => simpa using ih
  | _ => simp [eq_comm]

end Job.Tried

section Turns

variable {e : Engine} {link : LinkId} {payload : Bytes} {token : TokenId}

/-- **How a turn ended** is what its pushes and its waits were. -/
theorem Turn.Holds.told {u : Turn} (h : u.Holds e link payload token) : u.Told e := by
  have htried := Job.tried_of_trace h
  have hleft : e.retry.attempts - 1 + 1 = e.retry.attempts :=
    Nat.sub_add_cancel e.retry.one_le_attempts
  constructor
  · simpa using htried.delivered_iff
  · simpa [hleft] using htried.exhausted_iff
  · exact fun _ _ => htried.last_error
  · simpa using htried.cancelled_iff
  · exact htried.lost_iff

/-! ## Announcements -/

/-- What exchanges say of the turns in them, and what they complain of beside. -/
structure Engine.Announces (e : Engine) (t : List Exchange) (turns : List Turn)
    (troubles : List LogEntry) : Prop where
  /-- Each turn has its verdict, in order, and there is no other one. -/
  verdicts : (entries t).filter LogEntry.isVerdict = turns.map (Turn.verdict e)
  /-- The verdict of each turn agrees with its pushes and its waits. -/
  told : ∀ u ∈ turns, u.Told e
  /-- The verdicts of turns that failed are complaints. -/
  complains : complaints t =
    troubles ++ (turns.filter fun u => !u.outcome.isDelivered).map (Turn.verdict e)
  /-- Each wait between two tries is told. -/
  retries : (entries t).countP LogEntry.isRetrying = t.countP Exchange.isWait

/-- Going on, exchanges announce what each part does. -/
theorem Engine.Announces.append {t t' : List Exchange} {turns turns' : List Turn}
    {troubles : List LogEntry} (h : e.Announces t turns troubles) (h' : e.Announces t' turns' []) :
    e.Announces (t ++ t') (turns ++ turns') troubles where
  verdicts := by
    rw [entries_append, List.filter_append, h.verdicts, h'.verdicts, List.map_append]
  told := List.forall_mem_append.mpr ⟨h.told, h'.told⟩
  complains := by
    rw [complaints_append, h.complains, h'.complains, List.filter_append, List.map_append,
      List.nil_append, List.append_assoc]
  retries := by
    rw [entries_append, List.countP_append, List.countP_append, h.retries, h'.retries]

/-- Exchanges that leave the keys alone announce nothing. -/
theorem Calm.announces {t : List Exchange} (h : Calm t) : e.Announces t [] [] where
  verdicts := List.filter_eq_nil_iff.mpr fun x hx => by
    simp [(LogEntry.of_isCalm (h.isCalm_of_mem x hx)).1]
  told _ hu := absurd hu List.not_mem_nil
  complains := List.filter_eq_nil_iff.mpr fun x hx => by
    simp [(LogEntry.of_isCalm (h.isCalm_of_mem x hx)).2.2]
  retries := by
    have htold : (entries t).countP LogEntry.isRetrying = 0 :=
      List.countP_eq_zero.mpr fun x hx => by
        simp [(LogEntry.of_isCalm (h.isCalm_of_mem x hx)).2.1]
    have hwaits : t.countP Exchange.isWait = 0 := by
      refine List.countP_eq_zero.mpr fun x hx => ?_
      have hr := h x hx
      obtain ⟨r, y⟩ := x
      cases r with
      | wait token ms => cases hr
      | _ => exact Bool.false_ne_true
    rw [htold, hwaits]

/-- A turn that keeps the link announces itself. -/
theorem announces_kept {u : Turn} (h : u.Holds e link payload token)
    (hkept : u.outcome.isLost = false) : e.Announces u.tries [u] [] := by
  have htried := Job.tried_of_trace h
  refine ⟨?_, fun v hv => ?_, ?_, htried.countP_retrying⟩
  · rw [htried.verdicts e, hkept]
    rfl
  · obtain rfl := List.mem_singleton.mp hv
    exact h.told
  · rw [htried.complaints_eq e, hkept, List.filter_cons]
    cases u.outcome.isDelivered <;> rfl

/-- A turn that loses the link is announced by what is noted of the loss. -/
theorem announces_lost {u : Turn} {reason : String} {back : List Exchange}
    (h : u.Holds e link payload token) (hlost : u.outcome = .lost reason) (hback : Calm back) :
    e.Announces (u.tries ++ (back ++ [.logged (e.lostEntry u.key reason)])) [u] [] := by
  have htried := Job.tried_of_trace h
  have hquiet := hback.announces (e := e)
  have hverdict : u.verdict e = e.lostEntry u.key reason := by rw [Turn.verdict, hlost]; rfl
  have hnote : (e.lostEntry u.key reason).isVerdict = true := by
    simp [LogEntry.isVerdict, Engine.lostEntry]
  refine ⟨?_, fun v hv => ?_, ?_, ?_⟩
  · rw [entries_append, entries_append, List.filter_append, List.filter_append,
      htried.verdicts e, hquiet.verdicts, hlost, List.map_singleton, hverdict]
    exact List.filter_cons_of_pos hnote
  · obtain rfl := List.mem_singleton.mp hv
    exact h.told
  · rw [complaints_append, complaints_append, htried.complaints_eq e, hquiet.complains, hlost,
      List.filter_cons, hlost]
    exact congrArg (fun x => [x]) hverdict.symm
  · rw [entries_append, entries_append, List.countP_append, List.countP_append, List.countP_append,
      List.countP_append, htried.countP_retrying, hquiet.retries]
    rfl

/-- Turns that keep the link announce themselves. -/
theorem announces_turns {turns : List Turn} (h : ∀ u ∈ turns, u.Holds e link payload token)
    (hkept : ∀ u ∈ turns, u.outcome.isLost = false) :
    e.Announces (turns.flatMap Turn.tries) turns [] := by
  induction turns with
  | nil => exact Calm.nil.announces
  | cons u turns ih =>
    rw [List.forall_mem_cons] at h hkept
    exact (announces_kept h.1 hkept.1).append (ih h.2 hkept.2)

theorem Engine.lossNote_of_keepsLink {o : PayloadOutcome} (h : o.keepsLink = true) :
    e.lossNote o = [] := by
  cases o with
  | lost key reason => exact absurd h Bool.false_ne_true
  | _ => rfl

/-- **The turns of one payload announce themselves**, if a loss is noted behind them. -/
theorem Concludes.announces {keys exhausted cancelled : List String} {turns : List Turn}
    {o : PayloadOutcome} {back : List Exchange} (hc : Concludes keys exhausted cancelled turns o)
    (h : ∀ u ∈ turns, u.Holds e link payload token) (hback : Calm back) :
    e.Announces (turns.flatMap Turn.tries ++ (back ++ e.lossNote o)) turns [] := by
  cases hc with
  | kept _ hkept =>
    rw [Engine.lossNote_of_keepsLink (PayloadOutcome.keepsLink_ofFailures _ _), List.append_nil]
    simpa using (announces_turns h hkept).append hback.announces
  | lost before u reason hturns hbefore hu =>
    subst hturns
    rw [List.forall_mem_append, List.forall_mem_singleton] at h
    rw [List.flatMap_append, List.flatMap_singleton, List.append_assoc]
    exact (announces_turns h.1 hbefore).append (announces_lost h.2 hu hback)

/-- A payload is delivered if every key position took it. -/
theorem Concludes.delivered_iff {keys : List String} {turns : List Turn} {o : PayloadOutcome}
    (hc : Concludes keys [] [] turns o) :
    o = .delivered ↔ ∀ u ∈ turns, u.outcome.isDelivered = true := by
  cases hc with
  | kept _ hkept =>
    rw [List.nil_append, List.nil_append, ← no_failures_of_kept hkept, PayloadOutcome.ofFailures]
    split <;> simp_all
  | lost before u reason hturns hbefore hu =>
    refine iff_of_false PayloadOutcome.noConfusion fun hall => ?_
    have hmem : u ∈ turns := hturns ▸ List.mem_concat_self
    have hdelivered := hall u hmem
    rw [hu] at hdelivered
    exact Bool.false_ne_true hdelivered

end Turns

/-! ## Batches -/

section Batches

variable {e : Engine} {link : LinkId}

/-- A course announces its turns, if a loss is noted behind it. -/
theorem Course.Holds.announces {c : Course} (h : c.Holds e link) :
    e.Announces (c.exchanges ++ e.lossNote c.outcome) c.turns [] :=
  h.concludes.announces h.turns Calm.nil

/-- Courses that keep the link announce their turns. -/
theorem announces_courses {courses : List Course} (h : ∀ c ∈ courses, c.Holds e link)
    (hkept : ∀ c ∈ courses, c.outcome.keepsLink = true) :
    e.Announces (courses.flatMap Course.exchanges) (courses.flatMap Course.turns) [] := by
  induction courses with
  | nil => exact Calm.nil.announces
  | cons c courses ih =>
    rw [List.forall_mem_cons] at h hkept
    have hc := h.1.announces
    rw [Engine.lossNote_of_keepsLink hkept.1, List.append_nil] at hc
    exact hc.append (ih h.2 hkept.2)

/-- **The courses of a batch announce their turns.** -/
theorem Tallies.announces {payloads : List Bytes} {tally r : Engine.Tally} {t after : List Exchange}
    {courses : List Course} (h : Tallies e link payloads tally r t courses after) :
    e.Announces t (courses.flatMap Course.turns) [] := by
  have hends := h.ends
  rw [h.exchanges]
  generalize r.abandoned = n at hends
  generalize r.healthy = healthy at hends
  cases hends with
  | kept _ hkept =>
    rw [List.append_nil]
    exact announces_courses h.holds hkept
  | lost before c rest key reason hcourses _ hkept hc =>
    have hholds := h.holds
    subst hcourses
    rw [List.forall_mem_append, List.forall_mem_singleton] at hholds
    have hlast := hholds.2.announces
    rw [hc] at hlast
    rw [List.flatMap_append, List.flatMap_append, List.flatMap_singleton, List.flatMap_singleton,
      List.append_assoc]
    exact (announces_courses hholds.1 hkept).append hlast

end Batches

/-! ## Troubles -/

/-- What a call complains of beside its keys: the engine does not take it, or no link could be
borrowed for it. -/
inductive Engine.Troubles {α : Type} (e : Engine) (unreached : α → String → LogEntry)
    (t : List Exchange) : Except LifecycleError α → List LogEntry → Prop
  | refused (error : LifecycleError) : Troubles e unreached t (.error error) [e.refusedEntry error]
  | unreached (a : α) (reason : String) (h : borrowed t = none) :
      Troubles e unreached t (.ok a) [unreached a reason]
  | reached (a : α) (h : borrowed t ≠ none) : Troubles e unreached t (.ok a) []

section Troubles

variable (e : Engine) {α : Type} {t : List Exchange}

theorem isVerdict_refusedEntry (error : LifecycleError) :
    (e.refusedEntry error).isVerdict = false := by
  cases error <;> simp [LogEntry.isVerdict, Engine.refusedEntry, LifecycleError.message]

theorem isVerdict_unreachedEntry (batch : String) (n : Nat) (reason : String) :
    (e.unreachedEntry batch n reason).isVerdict = false := by
  simp [LogEntry.isVerdict, Engine.unreachedEntry]

theorem isVerdict_unreachableEntry (reason : String) :
    (e.unreachableEntry reason).isVerdict = false := by
  have hmessage : "Unable to connect to list store. Please ensure that it's running on " ++
      e.endpoint ≠ "Connection to list store lost, abandoning delivery" := by
    intro h
    have hhead := congrArg (fun s => s.toList.head?) h
    simp at hhead
  simp [LogEntry.isVerdict, Engine.unreachableEntry, hmessage]

/-- One complaint that is about no key, after exchanges that leave the keys alone. -/
theorem announces_trouble (hcalm : Calm t) {x : LogEntry} (hverdict : x.isVerdict = false)
    (hlevel : x.level = .error) : e.Announces (t ++ [.logged x]) [] [x] := by
  have hquiet := hcalm.announces (e := e)
  have hretrying : x.isRetrying = false := by simp [LogEntry.isRetrying, hlevel]
  refine ⟨?_, fun u hu => absurd hu List.not_mem_nil, ?_, ?_⟩
  · rw [entries_append, List.filter_append, hquiet.verdicts]
    exact List.filter_cons_of_neg (by simp [hverdict])
  · rw [complaints_append, hquiet.complains]
    exact List.filter_cons_of_pos (by simp [LogEntry.isComplaint, hlevel])
  · rw [entries_append, List.countP_append, List.countP_append, hquiet.retries]
    exact congrArg _ (List.countP_cons_of_neg (by simp [hretrying]))

end Troubles

/-! ## Sends and batches -/

section Calls

variable {e : Engine} {t : List Exchange}

/-- The announcements of a send or of a batch, which came back with `r` from an engine in a
phase. -/
structure Engine.Speaks {α : Type} (e : Engine) (unreached : α → String → LogEntry) (phase : Phase)
    (t : List Exchange) (r : Except LifecycleError α) (turns : List Turn)
    (troubles : List LogEntry) : Prop where
  /-- The engine takes the call while it is started. -/
  taken : (∃ a, r = .ok a) ↔ phase = .started
  /-- What is complained of beside the keys. -/
  troubled : e.Troubles unreached t r troubles
  /-- What is said of each key position that was tried, and that there is nothing else. -/
  announces : e.Announces t turns troubles

/-- A send falls into turns in one way, and says of them what they came to. It is delivered if it
complains of nothing. -/
def Engine.SendSpeaks (e : Engine) (payload : Bytes) (token : TokenId) (phase : Phase)
    (t : List Exchange) (r : Except LifecycleError SendOutcome) : Prop :=
  ∃ turns troubles, e.Spans payload token t turns ∧
    (∀ turns', e.Spans payload token t turns' → turns' = turns) ∧
    e.Speaks (fun _ => e.unreachableEntry) phase t r turns troubles ∧
    (r = .ok .delivered ↔ complaints t = [])

/-- A batch falls into courses in one way, and says of their turns what they came to. -/
def Engine.BulkSpeaks (e : Engine) (payloads : List Bytes) (phase : Phase) (t : List Exchange)
    (r : Except LifecycleError BulkReport) : Prop :=
  ∃ courses troubles, e.Covers payloads t courses ∧
    (∀ courses', e.Covers payloads t courses' → courses' = courses) ∧
    e.Speaks (fun report => e.unreachedEntry report.batch payloads.length) phase t r
      (courses.flatMap Course.turns) troubles

theorem Engine.Announces.complaints_eq_nil_iff {turns : List Turn} (h : e.Announces t turns []) :
    complaints t = [] ↔ ∀ u ∈ turns, u.outcome.isDelivered = true := by
  rw [h.complains, List.nil_append, List.map_eq_nil_iff, List.filter_eq_nil_iff]
  simp

/-- A call that is refused. -/
theorem speaks_refused {α : Type} (unreached : α → String → LogEntry) {phase : Phase}
    (hphase : phase ≠ .started) (error : LifecycleError) :
    e.Speaks unreached phase ([⟨.phase, phase⟩] ++ [.logged (e.refusedEntry error)])
      (.error error) [] [e.refusedEntry error] where
  taken := iff_of_false (by simp) hphase
  troubled := .refused error
  announces := announces_trouble e (.cons rfl .nil) (isVerdict_refusedEntry e error) rfl

theorem reported_eq_delivered_iff {o : PayloadOutcome} :
    e.reported o = .delivered ↔ o = .delivered := by
  cases o <;> simp [Engine.reported]

/-- A call for which no link could be borrowed. -/
theorem speaks_unreached {α : Type} {unreached : α → String → LogEntry} {a : α} {x : LogEntry}
    (reason : String) (hx : unreached a reason = x) (hb : borrowed (t ++ [.logged x]) = none)
    (hcalm : Calm t) (hverdict : x.isVerdict = false) (hlevel : x.level = .error) :
    e.Speaks unreached .started (t ++ [.logged x]) (.ok a) [] [x] where
  taken := iff_of_true ⟨a, rfl⟩ rfl
  troubled := hx ▸ .unreached a reason (hx ▸ hb)
  announces := announces_trouble e hcalm hverdict hlevel

/-- A call for which a link was borrowed. -/
theorem speaks_reached {α : Type} (unreached : α → String → LogEntry) {a : α} {link : LinkId}
    {turns : List Turn} (hb : borrowed t = some link) (h : e.Announces t turns []) :
    e.Speaks unreached .started t (.ok a) turns [] where
  taken := iff_of_true ⟨a, rfl⟩ rfl
  troubled := .reached a (by rw [hb]; exact Option.some_ne_none link)
  announces := h

/-- A send that came to no turn. -/
theorem sendSpeaks_of_trouble {payload : Bytes} {token : TokenId} {phase : Phase}
    {r : Except LifecycleError SendOutcome} {x : LogEntry} (hr : r ≠ .ok .delivered)
    (hp : pushes t = []) (h : e.Speaks (fun _ => e.unreachableEntry) phase t r [] [x]) :
    e.SendSpeaks payload token phase t r := by
  have hspans := e.spans_nothing payload token hp
  refine ⟨[], [x], hspans, fun _ h' => h'.unique hspans, h, iff_of_false hr fun hnone => ?_⟩
  exact List.cons_ne_nil x _ (h.announces.complains.symm.trans hnone)

/-- **A send of a started engine** says what it came to. -/
theorem speaks_sendOverLink {payload : Bytes} {token : TokenId} {u : List Exchange}
    {outcome : SendOutcome} (h : Trace (e.sendOverLink payload token) u outcome) :
    e.SendSpeaks payload token .started (⟨.phase, .started⟩ :: u) (.ok outcome) := by
  rcases trace_sendOverLink h with ⟨reason, quiet, rfl, rfl, hb, -, hcalm⟩ |
    ⟨link, turns, o, back, rfl, hback, hkeys, hholds, hc, rfl⟩
  · have hcalm : Calm (⟨.phase, .started⟩ :: quiet) := .cons rfl hcalm
    exact sendSpeaks_of_trouble (by simp) (hcalm.pushes_noted _)
      (speaks_unreached (t := ⟨.phase, .started⟩ :: quiet) reason rfl hb hcalm
        (isVerdict_unreachableEntry e reason) rfl)
  · have hspans := e.spans_turns hkeys hholds hback o
    have hopening : Calm [⟨.phase, .started⟩, ⟨.poolPhase, .running⟩, ⟨.borrow, .ok link⟩] :=
      .cons rfl (.cons rfl (.cons rfl .nil))
    have hannounces := hopening.announces.append (hc.announces hholds hback)
    refine ⟨turns, [], hspans, fun _ h' => h'.unique hspans,
      speaks_reached _ rfl hannounces, ?_⟩
    have hdelivered : (Except.ok (e.reported o) : Except LifecycleError _) = .ok .delivered ↔
        o = .delivered := by
      rw [Except.ok.injEq, reported_eq_delivered_iff]
    exact (hdelivered.trans hc.delivered_iff).trans hannounces.complaints_eq_nil_iff.symm

theorem speaks_send {payload : Bytes} {token : TokenId} {phase : Phase} {u : List Exchange}
    {r : Except LifecycleError SendOutcome}
    (h : Trace (e.sendWith payload token) (⟨.phase, phase⟩ :: u) r) :
    e.SendSpeaks payload token phase (⟨.phase, phase⟩ :: u) r := by
  rcases trace_sendWith_cases h with ⟨v, outcome, hv, rfl, h₁⟩ |
    ⟨phase', error, hphase, rfl, hrefused⟩
  · cases hv
    exact speaks_sendOverLink h₁
  · cases hrefused
    exact sendSpeaks_of_trouble (by simp) rfl (speaks_refused _ hphase error)

/-- A batch that came to no course. -/
theorem bulkSpeaks_of_trouble (hd : e.destination.IsValid) {payloads : List Bytes} {phase : Phase}
    {r : Except LifecycleError BulkReport} {x : LogEntry} (hp : pushes t = [])
    (h : e.Speaks (fun report => e.unreachedEntry report.batch payloads.length) phase t r [] [x]) :
    e.BulkSpeaks payloads phase t r := by
  have hcovers := e.covers_nothing payloads hp
  exact ⟨[], [x], hcovers, fun _ h' => h'.unique hd hcovers, h⟩

theorem speaks_sendBulk (hd : e.destination.IsValid) {payloads : List Bytes} {phase : Phase}
    {u : List Exchange} {r : Except LifecycleError BulkReport}
    (h : Trace (e.sendBulk payloads) (⟨.phase, phase⟩ :: u) r) :
    e.BulkSpeaks payloads phase (⟨.phase, phase⟩ :: u) r := by
  rcases trace_sendBulk_cases h with ⟨batch, report, v, hv, rfl, h₁⟩ |
    ⟨phase', error, hphase, rfl, hrefused⟩
  · cases hv
    rcases trace_bulkOverLink h₁ with ⟨reason, quiet, rfl, rfl, hb, -, hcalm⟩ |
      ⟨link, tally, w, rest, courses, after, rfl, htallies, hrest, rfl⟩
    · have hcalm : Calm (⟨.phase, .started⟩ :: ⟨.batchName, batch⟩ :: quiet) :=
        .cons rfl (.cons rfl hcalm)
      exact bulkSpeaks_of_trouble hd (hcalm.pushes_noted _)
        (speaks_unreached (t := ⟨.phase, .started⟩ :: ⟨.batchName, batch⟩ :: quiet) reason rfl hb
          hcalm (isVerdict_unreachedEntry e batch _ reason) rfl)
    · have hcovers := htallies.covers hrest batch
      have hopening : Calm (e.opening link batch) :=
        .cons rfl (.cons rfl (.cons rfl (.cons rfl (.cons rfl .nil))))
      have hannounces := hopening.announces.append (htallies.announces.append hrest.announces)
      rw [List.append_nil, List.nil_append] at hannounces
      exact ⟨courses, [], hcovers, fun _ h' => h'.unique hd hcovers,
        speaks_reached _ rfl hannounces⟩
  · cases hrefused
    exact bulkSpeaks_of_trouble hd rfl (speaks_refused _ hphase error)

end Calls

/-- **No failure is silent and none is told twice**, whoever answers a send or a batch and
however. A send on the engine's own token is one of the sends. -/
theorem delivery_announced (e : Engine) (hd : e.destination.IsValid) {σ : Type}
    (answer : (r : Request) → σ → r.Answer × σ) (s : σ) :
    (∀ payload token, e.SendSpeaks payload token (answer .phase s).1
      ((e.sendWith payload token).exchanges answer s) ((e.sendWith payload token).run answer s).1) ∧
    ∀ payloads, e.BulkSpeaks payloads (answer .phase s).1
      ((e.sendBulk payloads).exchanges answer s) ((e.sendBulk payloads).run answer s).1 :=
  ⟨fun payload token => speaks_send (Dialogue.trace_run answer (e.sendWith payload token) s),
    fun payloads => speaks_sendBulk hd (Dialogue.trace_run answer (e.sendBulk payloads) s)⟩

/-- One key takes the payload and the other turns it down until no try is left. -/
theorem delivery_announced_half :
    Engine.twoKeys.destination.IsValid ∧
      (entries ((Engine.twoKeys.sendWith [104] 0).exchanges
        (World.answer ScriptedStore.transport Engine.twoKeys 1) halfDeaf)).map
          (fun x => (x.level, x.message)) =
        [(.debug, "Pushed record"), (.warn, "Failed to push record, retrying"),
          (.warn, "Failed to push record, retrying"),
          (.error, "Unable to send a log record after 3 tries")] ∧
      Engine.twoKeys.SendSpeaks [104] 0 .started
        ((Engine.twoKeys.sendWith [104] 0).exchanges
          (World.answer ScriptedStore.transport Engine.twoKeys 1) halfDeaf)
        ((Engine.twoKeys.sendWith [104] 0).run
          (World.answer ScriptedStore.transport Engine.twoKeys 1) halfDeaf).1 := by
  refine ⟨Engine.twoKeys_isValid, by decide +kernel, ?_⟩
  exact (delivery_announced Engine.twoKeys Engine.twoKeys_isValid
    (World.answer ScriptedStore.transport Engine.twoKeys 1) halfDeaf).1 [104] 0

end Delivery

end LogShipper
