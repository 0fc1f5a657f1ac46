import LogShipper.Proofs.Delivery.Announcements

/-!
# What is left to do once waits are cut short

Between two tries of a key there is a wait, and a wait that is cancelled ends the tries. So if from
some push on every wait is cancelled (`Hurried`), little is left: the key of that push is not tried
again, and every key after it is tried once (`Curbed`). Nothing of this depends on what the store
answers; a push that loses the link merely ends the exchanges sooner.

Exchanges are cut in two behind a push, or before all of them (`AtPush`). The cut falls into the
tries of one key at most, and behind the last push of these.

Results:
* `Job.Tried.ended`, `Job.Tried.single`: the tries of a key that are cut, and those behind the cut.
* `Job.Tried.ofLast`: how the last push of a key decides how its tries end.
* `Engine.Comprises.curbed`: exchanges that fall into turns.
* `comprises_send`, `comprises_bulk`: sends and batches that borrow a link.
* `Dialogue.steps_later`: what holds at the cut of a run and is kept holds of all steps behind it.
-/

namespace LogShipper.Delivery

open Cancel (TokenId)
open Dialogue (Trace)

/-! ## Cuts -/

/-- Exchanges that end with a push, or have not begun. -/
def AtPush (t : List Exchange) : Prop := ∀ x ∈ t.getLast?, x.pushed? ≠ none

/-- Exchanges in which every wait is cancelled. -/
def Hurried (t : List Exchange) : Prop := ∀ x ∈ t, x.isWait = true → x.isCancelledWait = true

theorem AtPush.of_append {t u : List Exchange} (h : AtPush (t ++ u)) : AtPush u := by
  intro x hx
  refine h x ?_
  rw [List.getLast?_append, Option.mem_def.mp hx]
  rfl

theorem Hurried.of_subset {t u : List Exchange} (h : Hurried u) (hs : t ⊆ u) : Hurried t :=
  fun x hx => h x (hs hx)

theorem Exchange.pushed?_of_isWait {x : Exchange} (h : x.isWait = true) : x.pushed? = none := by
  obtain ⟨r, y⟩ := x
  cases r with
  | push link key payload => exact absurd h Bool.false_ne_true
  | _ => rfl

/-- A wait that has elapsed stands before the cut, and so does a push behind it. -/
theorem cut_behind_wait {t u d r : List Exchange} {x : Exchange} (h : t ++ [x] ++ u = d ++ r)
    (hwait : x.isWait = true) (helapsed : x.isCancelledWait = false) (hd : AtPush d)
    (hr : Hurried r) : ∃ d', d' ≠ [] ∧ d = t ++ [x] ++ d' ∧ u = d' ++ r := by
  have before : d ≠ t ++ [x] := by
    rintro rfl
    exact hd x List.getLast?_concat (Exchange.pushed?_of_isWait hwait)
  rcases List.append_eq_append_iff.mp h with ⟨d', rfl, hu⟩ | ⟨c, hc, rfl⟩
  · refine ⟨d', fun hnil => before ?_, rfl, hu⟩
    rw [hnil, List.append_nil]
  · cases hl : c.getLast? with
    | none =>
      rw [List.getLast?_eq_none_iff.mp hl, List.append_nil] at hc
      exact absurd hc.symm before
    | some y =>
      have hlast := congrArg List.getLast? hc
      rw [List.getLast?_concat, List.getLast?_append, hl] at hlast
      obtain rfl : x = y := Option.some.inj hlast
      have hcancelled := hr x (List.mem_append_left u (List.mem_of_getLast? hl)) hwait
      exact absurd (helapsed.symm.trans hcancelled) Bool.false_ne_true

/-- Where a push comes first and no other one follows, a cut is behind that push. -/
theorem cut_behind_push {x : Exchange} {u d r : List Exchange} (h : x :: u = d ++ r)
    (hu : pushes u = []) (hne : d ≠ []) : pushes (x :: u) = pushes d := by
  obtain ⟨y, d, rfl⟩ := List.exists_cons_of_ne_nil hne
  rw [List.cons_append, List.cons.injEq] at h
  obtain ⟨rfl, rfl⟩ := h
  rw [pushes_append, List.append_eq_nil_iff] at hu
  show pushes ([x] ++ (d ++ r)) = pushes ([x] ++ d)
  rw [pushes_append, pushes_append, pushes_append, hu.2, List.append_nil]

/-! ## The tries of a key -/

/-- How tries end with the last push, of so many pushes that were made and are allowed. -/
def KeyOutcome.ofLast (allowed tries : Nat) : Except LinkError Unit → KeyOutcome
  | .ok () => .delivered tries
  | .error (.connection reason) => .lost reason
  | .error (.command error) => if tries < allowed then .cancelled tries else .exhausted tries error

namespace Job.Tried

variable {j : Job} {left used : Nat} {t : List Exchange} {o : KeyOutcome}
  (h : j.Tried left used t o)
include h

/-- **Tries in which every wait is cancelled** are one try. -/
theorem single (ht : Hurried t) : (pushes t).length = 1 := by
  cases h with
  | again error _ =>
    have hwait := ht (j.waited .elapsed) (by simp) rfl
    exact absurd hwait Bool.false_ne_true
  | _ => rfl

/-- **Tries that are cut** behind a push end with it, if every wait behind the cut is cancelled. The
induction is on the tries: all but the last one end with a wait that has elapsed. -/
theorem ended {d r : List Exchange} (ht : t = d ++ r) (hd : AtPush d) (hne : d ≠ [])
    (hr : Hurried r) : pushes t = pushes d := by
  induction h generalizing d with
  | @again left used t o error _ ih =>
    obtain ⟨d', hne', rfl, hrest⟩ := cut_behind_wait (x := j.waited .elapsed)
      (t := [j.pushed (.error (.command error)), .logged (j.retryingEntry (used + 1) error)])
      ht rfl rfl hd hr
    rw [pushes_append, ← ih hrest hd.of_append hne']
    rfl
  | _ => exact cut_behind_push ht rfl hne

/-- Every wait between tries is for the delay of the job, on its token. -/
theorem wait_request : ∀ x ∈ t, x.isWait = true →
    x.request = .wait j.token j.retryDelayMs.toNat := by
  induction h with
  | again error _ ih =>
    intro x hx hw
    simp only [List.mem_cons] at hx
    rcases hx with rfl | rfl | rfl | hx
    · exact absurd hw Bool.false_ne_true
    · exact absurd hw Bool.false_ne_true
    · rfl
    · exact ih x hx hw
  | _ =>
    intro x hx hw
    simp only [List.mem_cons, List.not_mem_nil, or_false] at hx
    rcases hx with rfl | rfl | rfl | rfl <;>
      first | rfl | exact absurd hw Bool.false_ne_true

theorem wait_token : ∀ x ∈ t, x.isWait = true → ∃ ms, x.request = .wait j.token ms :=
  fun x hx hw => ⟨_, h.wait_request x hx hw⟩

/-- The last push decides how the tries end: no more than `left + 1` are made, and of those that
failed the last one has no wait behind it. -/
theorem ofLast : (pushes t).length ≤ left + 1 ∧ ∃ p, (pushes t).getLast? = some p ∧
    o = .ofLast (used + left + 1) (used + (pushes t).length) p.answer := by
  induction h with
  | delivered left used => exact ⟨Nat.le_add_left 1 left, _, rfl, rfl⟩
  | lost left used reason => exact ⟨Nat.le_add_left 1 left, _, rfl, rfl⟩
  | exhausted used error =>
    refine ⟨Nat.le_refl 1, _, rfl, ?_⟩
    exact (if_neg (Nat.lt_irrefl (used + 1))).symm
  | cancelled left used error =>
    refine ⟨Nat.le_add_left 1 (left + 1), _, rfl, ?_⟩
    exact (if_pos (show used + 1 < used + (left + 1) + 1 by omega)).symm
  | @again left used t o error _ ih =>
    obtain ⟨hle, p, hp, ho⟩ := ih
    have hpushes : pushes (j.pushed (.error (.command error)) ::
        .logged (j.retryingEntry (used + 1) error) :: j.waited .elapsed :: t) =
          ⟨j.link, j.key, j.payload, .error (.command error)⟩ :: pushes t := rfl
    rw [hpushes, List.length_cons, List.getLast?_cons, hp]
    refine ⟨Nat.succ_le_succ hle, p, rfl, ?_⟩
    rw [ho, show used + 1 + left + 1 = used + (left + 1) + 1 by omega,
      show used + 1 + (pushes t).length = used + ((pushes t).length + 1) by omega]

end Job.Tried

/-! ## Turns -/

/-- How a turn of so many pushes ended, by the answer to the last of them. -/
structure Turn.Decided (allowed : Nat) (u : Turn) : Prop where
  bounded : (pushes u.tries).length ≤ allowed
  outcome : ∃ p, (pushes u.tries).getLast? = some p ∧
    u.outcome = .ofLast allowed (pushes u.tries).length p.answer

variable {e : Engine} {token : TokenId} {t d r : List Exchange} {turns : List Turn}

/-- A turn of the engine, of some payload over some link. -/
def Engine.Takes (e : Engine) (token : TokenId) (u : Turn) : Prop :=
  ∃ link payload, u.Holds e link payload token

namespace Engine.Takes

variable {u : Turn} (h : e.Takes token u)
include h

theorem pushes_ne_nil : pushes u.tries ≠ [] := by
  obtain ⟨link, payload, hu⟩ := h
  exact pushes_push_ne_nil hu

/-- **The last push of a turn decides how it ended.** -/
theorem decided : u.Decided e.retry.attempts := by
  obtain ⟨link, payload, hu⟩ := h
  obtain ⟨hle, p, hp, ho⟩ := (Job.tried_of_trace hu).ofLast
  have hallowed : e.retry.attempts - 1 + 1 = e.retry.attempts :=
    Nat.sub_add_cancel e.retry.one_le_attempts
  rw [Nat.zero_add, Nat.zero_add, hallowed] at ho
  exact ⟨hallowed ▸ hle, p, hp, ho⟩

theorem single (ht : Hurried u.tries) : (pushes u.tries).length = 1 := by
  obtain ⟨link, payload, hu⟩ := h
  exact (Job.tried_of_trace hu).single ht

theorem ended (ht : u.tries = d ++ r) (hd : AtPush d) (hne : d ≠ []) (hr : Hurried r) :
    pushes u.tries = pushes d := by
  obtain ⟨link, payload, hu⟩ := h
  exact (Job.tried_of_trace hu).ended ht hd hne hr

theorem wait_token : ∀ x ∈ u.tries, x.isWait = true → ∃ ms, x.request = .wait token ms := by
  obtain ⟨link, payload, hu⟩ := h
  exact (Job.tried_of_trace hu).wait_token

end Engine.Takes

/-- Exchanges without a push and without a wait. -/
def Idle (t : List Exchange) : Prop := ∀ x ∈ t, x.pushed? = none ∧ x.isWait = false

/-- Exchanges that fall into turns, with neither pushes nor waits around these. -/
structure Engine.Comprises (e : Engine) (token : TokenId) (t : List Exchange)
    (turns : List Turn) : Prop where
  takes : ∀ u ∈ turns, e.Takes token u
  exchanges : ∃ before after, t = before ++ (turns.flatMap Turn.tries ++ after) ∧
    Idle before ∧ Idle after

/-- What is left to do of turns behind a cut, if waits are cut short from then on. -/
structure Engine.Curbed (e : Engine) (d r : List Exchange) (earlier later : List Turn) :
    Prop where
  /-- The earlier turns have all their pushes before the cut. -/
  ended : pushes d = earlier.flatMap fun u => pushes u.tries
  /-- The push at the cut is the last one of the last of them. -/
  current : ∀ x ∈ d.getLast?, ∃ before u p, earlier = before ++ [u] ∧ x.pushed? = some p ∧
    (pushes u.tries).getLast? = some p
  /-- The later turns are behind the cut, with one push each. -/
  single : ∀ v ∈ later, (pushes v.tries).length = 1
  /-- How each ended: a push that failed with tries left has had its wait cancelled. -/
  decided : ∀ u ∈ earlier ++ later, u.Decided e.retry.attempts
  /-- No wait behind the cut blocks. -/
  hurried : Hurried r

theorem Idle.pushes_eq_nil (h : Idle t) : pushes t = [] :=
  List.filterMap_eq_nil_iff.mpr fun x hx => (h x hx).1

theorem Idle.append {u : List Exchange} (h : Idle t) (hu : Idle u) : Idle (t ++ u) :=
  List.forall_mem_append.mpr ⟨h, hu⟩

theorem Calm.idle (h : Calm t) : Idle t := by
  intro x hx
  have hcalm := h x hx
  obtain ⟨r, y⟩ := x
  cases r with
  | push link key payload => exact absurd hcalm Bool.false_ne_true
  | wait token ms => exact absurd hcalm Bool.false_ne_true
  | _ => exact ⟨rfl, rfl⟩

theorem Idle.logged (entry : LogEntry) : Idle [.logged entry] := by
  intro x hx
  obtain rfl := List.mem_singleton.mp hx
  exact ⟨rfl, rfl⟩

/-- Turns behind the cut have one push each. -/
theorem single_turns (hturns : ∀ u ∈ turns, e.Takes token u)
    (hr : Hurried (turns.flatMap Turn.tries)) : ∀ u ∈ turns, (pushes u.tries).length = 1 :=
  fun u hu => (hturns u hu).single
    (hr.of_subset fun _ hx => List.mem_flatMap.mpr ⟨u, hu, hx⟩)

/-- The cut leaves a turn whole, but for what follows its last push. The induction is on the turns
before the cut. -/
theorem split_turns {after : List Exchange} (hturns : ∀ u ∈ turns, e.Takes token u)
    (hafter : Idle after) (ht : turns.flatMap Turn.tries ++ after = d ++ r) (hd : AtPush d)
    (hr : Hurried r) : ∃ earlier later, turns = earlier ++ later ∧
      pushes d = (earlier.flatMap fun u => pushes u.tries) ∧
      ∀ v ∈ later, (pushes v.tries).length = 1 := by
  induction turns generalizing d with
  | nil =>
    have hp := hafter.pushes_eq_nil
    rw [show after = d ++ r from ht, pushes_append, List.append_eq_nil_iff] at hp
    exact ⟨[], [], rfl, hp.1, fun _ hv => absurd hv List.not_mem_nil⟩
  | cons u turns ih =>
    obtain ⟨hu, hrest⟩ := List.forall_mem_cons.mp hturns
    rw [List.flatMap_cons, List.append_assoc] at ht
    rcases List.append_eq_append_iff.mp ht with ⟨d', rfl, hd'⟩ | ⟨c, hc, rfl⟩
    · obtain ⟨earlier, later, rfl, hpushes, hlater⟩ := ih hrest hd' hd.of_append
      refine ⟨u :: earlier, later, rfl, ?_, hlater⟩
      rw [pushes_append, hpushes, List.flatMap_cons]
    · have later : Hurried (turns.flatMap Turn.tries) :=
        hr.of_subset fun _ hx => List.mem_append_right c (List.mem_append_left after hx)
      by_cases hne : d = []
      · subst hne
        refine ⟨[], u :: turns, rfl, rfl, List.forall_mem_cons.mpr ⟨?_, single_turns hrest later⟩⟩
        rw [List.nil_append] at hc
        exact hu.single (hc ▸ hr.of_subset fun _ => List.mem_append_left _)
      · refine ⟨[u], turns, rfl, ?_, single_turns hrest later⟩
        rw [List.flatMap_singleton]
        exact (hu.ended hc hd hne (hr.of_subset fun _ => List.mem_append_left _)).symm

namespace Engine.Comprises

variable (h : e.Comprises token t turns)
include h

/-- Every wait is on the token of the turns. -/
theorem wait_token : ∀ x ∈ t, x.isWait = true → ∃ ms, x.request = .wait token ms := by
  obtain ⟨before, after, rfl, hbefore, hafter⟩ := h.exchanges
  intro x hx hwait
  rcases List.mem_append.mp hx with hx | hx
  · exact absurd ((hbefore x hx).2.symm.trans hwait) Bool.false_ne_true
  · rcases List.mem_append.mp hx with hx | hx
    · obtain ⟨u, hu, hx⟩ := List.mem_flatMap.mp hx
      exact (h.takes u hu).wait_token x hx hwait
    · exact absurd ((hafter x hx).2.symm.trans hwait) Bool.false_ne_true

/-- **Where waits are cut short from some push on**, its key is not tried again, and every later
turn is one try. -/
theorem curbed (ht : t = d ++ r) (hd : AtPush d) (hr : Hurried r) :
    ∃ earlier later, turns = earlier ++ later ∧ e.Curbed d r earlier later := by
  obtain ⟨before, after, hexchanges, hbefore, hafter⟩ := h.exchanges
  have split : ∃ earlier later, turns = earlier ++ later ∧
      pushes d = (earlier.flatMap fun u => pushes u.tries) ∧
      ∀ v ∈ later, (pushes v.tries).length = 1 := by
    rcases List.append_eq_append_iff.mp (hexchanges.symm.trans ht) with
      ⟨d', rfl, hd'⟩ | ⟨c, rfl, rfl⟩
    · obtain ⟨earlier, later, hturns, hpushes, hlater⟩ :=
        split_turns h.takes hafter hd' hd.of_append hr
      refine ⟨earlier, later, hturns, ?_, hlater⟩
      rw [pushes_append, hbefore.pushes_eq_nil, List.nil_append, hpushes]
    · have hp := hbefore.pushes_eq_nil
      rw [pushes_append, List.append_eq_nil_iff] at hp
      refine ⟨[], turns, rfl, hp.1, single_turns h.takes (hr.of_subset fun _ hx => ?_)⟩
      exact List.mem_append_right c (List.mem_append_left after hx)
  obtain ⟨earlier, later, rfl, hpushes, hlater⟩ := split
  refine ⟨earlier, later, rfl, hpushes, fun x hx => ?_, hlater,
    fun u hu => (h.takes u hu).decided, hr⟩
  obtain ⟨p, hp⟩ := Option.ne_none_iff_exists'.mp (hd x hx)
  obtain ⟨front, rfl⟩ : ∃ front, d = front ++ [x] := List.getLast?_eq_some_iff.mp hx
  have hlast : (pushes (front ++ [x])).getLast? = some p := by
    rw [pushes_append, pushes, pushes, List.filterMap_cons_some hp, List.filterMap_nil,
      List.getLast?_concat]
  rcases List.eq_nil_or_concat earlier with rfl | ⟨others, u, rfl⟩
  · rw [hpushes] at hlast
    cases hlast
  · refine ⟨others, u, p, List.concat_eq_append, hp, ?_⟩
    rw [hpushes, List.concat_eq_append, List.flatMap_append, List.flatMap_singleton,
      List.getLast?_append] at hlast
    cases hl : (pushes u.tries).getLast? with
    | none =>
      exact absurd (List.getLast?_eq_none_iff.mp hl) (h.takes u (by simp)).pushes_ne_nil
    | some q =>
      rw [hl] at hlast
      exact hlast

end Engine.Comprises

/-! ## What sends and batches consist of -/

theorem Engine.idle_lossNote (e : Engine) (o : PayloadOutcome) : Idle (e.lossNote o) := by
  cases o with
  | lost key reason => exact .logged _
  | _ => exact fun _ hx => absurd hx List.not_mem_nil

theorem Ends.idle {payloads : List Bytes} {courses : List Course} {n : Nat} {healthy : Bool}
    (h : Ends e payloads courses n healthy t) : Idle t := by
  cases h with
  | kept _ _ => exact fun _ hx => absurd hx List.not_mem_nil
  | lost _ _ _ _ _ _ _ _ _ => exact .logged _

/-- A payload is reported as its turns ended. -/
theorem Concludes.truthful {link : LinkId} {payload : Bytes} {o : PayloadOutcome}
    (hc : Concludes e.destination.keys [] [] turns o) (h : Spanned e link payload token t turns) :
    e.Truthful payload t turns (e.reported o) := by
  cases hc with
  | kept hkeys hkept => exact h.truthful_kept hkeys hkept
  | lost before u reason hturns hbefore hu => exact h.truthful_lost hturns hbefore hu

/-- Unless a push loses the link, every key has its turn. -/
theorem Concludes.keys_eq {link : LinkId} {payload : Bytes} {o : PayloadOutcome}
    (hc : Concludes e.destination.keys [] [] turns o) (h : Spanned e link payload token t turns)
    (hkept : ∀ p ∈ pushes t, p.isLoss = false) : turns.map Turn.key = e.destination.keys := by
  refine (hc.of_kept fun u hu => ?_).1
  rw [Bool.eq_false_iff]
  intro hlost
  obtain ⟨p, hp, hloss⟩ := h.loss_iff.mpr ⟨u, hu, hlost⟩
  exact absurd ((hkept p hp).symm.trans hloss) Bool.false_ne_true

/-- A send that borrows a link, as the turns of its keys. -/
theorem comprises_send {payload : Bytes} {r : Except LifecycleError SendOutcome}
    (h : Trace (e.sendWith payload token) t r) (hb : borrowed t ≠ none) :
    ∃ turns outcome, r = .ok outcome ∧ e.Comprises token t turns ∧
      e.Spans payload token t turns ∧ e.Truthful payload t turns outcome ∧
      ((∀ p ∈ pushes t, p.isLoss = false) → turns.map Turn.key = e.destination.keys) := by
  rcases trace_sendWith_cases h with ⟨u, outcome, rfl, hr, h⟩ | ⟨phase, error, -, -, rfl⟩
  · rcases trace_sendOverLink h with ⟨reason, quiet, -, rfl, hnone, -, -⟩ |
      ⟨link, turns, o, back, rfl, hback, hkeys, hholds, hc, rfl⟩
    · exact absurd hnone hb
    · have hspans := e.spans_turns hkeys hholds hback o
      have hspanned : Spanned e link payload token _ turns :=
        ⟨rfl, hspans.pushes_eq, hkeys, hholds⟩
      have opening : Calm [⟨.phase, .started⟩, ⟨.poolPhase, .running⟩, ⟨.borrow, .ok link⟩] :=
        .cons rfl (.cons rfl (.cons rfl .nil))
      exact ⟨turns, _, hr, ⟨fun u hu => ⟨link, payload, hholds u hu⟩, _, _, rfl, opening.idle,
        hback.idle.append (e.idle_lossNote o)⟩, hspans, hc.truthful hspanned, hc.keys_eq hspanned⟩
  · exact absurd rfl hb

/-- Unless a push loses the link, no course does. -/
theorem Tallies.keepsLink {link : LinkId} {payloads : List Bytes} {tally tally' : Engine.Tally}
    {courses : List Course} {after : List Exchange}
    (h : Tallies e link payloads tally tally' t courses after)
    (hkept : ∀ p ∈ pushes t, p.isLoss = false) : ∀ c ∈ courses, c.outcome.keepsLink = true := by
  intro c hc
  cases ho : c.outcome with
  | lost key reason =>
    obtain ⟨own, p, hpushes, -, hanswer, -⟩ := (h.holds c hc).lost ho
    have hp : p ∈ pushes t := by
      rw [h.pushes_eq]
      exact List.mem_flatMap.mpr ⟨c, hc, hpushes ▸ List.mem_concat_self⟩
    exact absurd ((hkept p hp).symm.trans (Pushed.isLoss_of_answer hanswer)) Bool.false_ne_true
  | _ => rfl

/-- A batch that borrows a link, as the turns of its courses. -/
theorem comprises_bulk {payloads : List Bytes} {r : Except LifecycleError BulkReport}
    (h : Trace (e.sendBulk payloads) t r) (hb : borrowed t ≠ none) :
    ∃ courses report, r = .ok report ∧ e.Comprises e.token t (courses.flatMap Course.turns) ∧
      e.Covers payloads t courses ∧ e.Accounts payloads t courses report ∧
      ((∀ p ∈ pushes t, p.isLoss = false) → courses.map Course.payload = payloads ∧
        ∀ c ∈ courses, c.turns.map Turn.key = e.destination.keys) := by
  rcases trace_sendBulk_cases h with ⟨batch, report, u, rfl, hr, h⟩ | ⟨phase, error, -, -, rfl⟩
  · rcases trace_bulkOverLink h with ⟨reason, quiet, -, rfl, hnone, -, -⟩ |
      ⟨link, tally, w, rest, courses, after, rfl, htallies, hrest, rfl⟩
    · exact absurd hnone hb
    · have hexchanges : w = (courses.flatMap Course.turns).flatMap Turn.tries ++ after := by
        rw [htallies.exchanges, List.flatMap_assoc]
        rfl
      have opening : Calm (e.opening link batch) :=
        .cons rfl (.cons rfl (.cons rfl (.cons rfl (.cons rfl .nil))))
      refine ⟨courses, _, hr, ⟨fun u hu => ?_, e.opening link batch, after ++ rest, ?_,
        opening.idle, htallies.ends.idle.append hrest.idle⟩, htallies.covers hrest batch,
        htallies.accounts_borrowed batch (Eq.refl (e.opening link batch ++ (w ++ rest))) rfl
          ⟨rfl, rfl⟩ ⟨hrest.pushes_eq_nil, hrest.alarms_eq_nil⟩, fun hkept => ?_⟩
      · obtain ⟨c, hc, hu⟩ := List.mem_flatMap.mp hu
        exact ⟨link, c.payload, (htallies.holds c hc).turns u hu⟩
      · show e.opening link batch ++ (w ++ rest) = _
        rw [hexchanges, List.append_assoc]
      · have kept : ∀ p ∈ pushes w, p.isLoss = false :=
          fun p hp => hkept p (show p ∈ pushes (w ++ rest) by
            rw [pushes_append]
            exact List.mem_append_left _ hp)
        have hkeeps := htallies.keepsLink kept
        exact ⟨(htallies.ends.of_kept hkeeps).1, fun c hc =>
          (htallies.holds c hc).concludes.keys_eq (htallies.holds c hc).spanned
            ((htallies.holds c hc).kept (hkeeps c hc))⟩
  · exact absurd rfl hb

/-! ## Runs that are cut -/

/-- One request of a run, with the states of whoever answers it. -/
structure Step (σ : Type) where
  before : σ
  exchange : Exchange
  after : σ

namespace Dialogue

variable {σ α : Type} {answer : (r : Request) → σ → r.Answer × σ}

/-- The steps of a run. -/
def steps (answer : (r : Request) → σ → r.Answer × σ) : Dialogue α → σ → List (Step σ)
  | done _, _ => []
  | ask r next, s =>
    ⟨s, ⟨r, (answer r s).1⟩, (answer r s).2⟩ :: (next (answer r s).1).steps answer (answer r s).2

theorem exchanges_steps (d : Dialogue α) (s : σ) :
    (d.steps answer s).map Step.exchange = d.exchanges answer s := by
  induction d generalizing s with
  | done a => rfl
  | ask r next ih => exact congrArg (List.cons _) (ih _ _)

/-- The state after some steps. -/
def stateAfter (done : List (Step σ)) (s : σ) : σ := (done.getLast?.map Step.after).getD s

theorem stateAfter_cons (x : Step σ) (done : List (Step σ)) (s : σ) :
    stateAfter (x :: done) s = stateAfter done x.after := by
  cases h : done.getLast? <;> simp [stateAfter, List.getLast?_cons, h]

/-- **What holds at a cut and is kept holds behind it**: before every step, and what that step
answers and leaves is the answer to its request. The induction is on the talk. -/
theorem steps_later {I : σ → Prop} (hI : ∀ r w, I w → I (answer r w).2) {d : Dialogue α} {s : σ}
    {done todo : List (Step σ)} (hsteps : d.steps answer s = done ++ todo)
    (hs : I (stateAfter done s)) : ∀ x ∈ todo, I x.before ∧
      x.exchange.answer = (answer x.exchange.request x.before).1 ∧
      x.after = (answer x.exchange.request x.before).2 := by
  induction d generalizing s done todo with
  | done a =>
    obtain ⟨-, rfl⟩ := List.append_eq_nil_iff.mp hsteps.symm
    exact fun _ hx => absurd hx List.not_mem_nil
  | ask r next ih =>
    cases done with
    | nil =>
      rw [List.nil_append] at hsteps
      rw [← hsteps]
      have later := ih (answer r s).1 (List.nil_append _).symm (hI r s hs)
      exact List.forall_mem_cons.mpr ⟨⟨hs, rfl, rfl⟩, later⟩
    | cons x done =>
      obtain ⟨rfl, hrest⟩ := List.cons.inj hsteps
      rw [stateAfter_cons] at hs
      exact ih _ hrest hs

end Dialogue

end LogShipper.Delivery
