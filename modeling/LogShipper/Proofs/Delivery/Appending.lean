import LogShipper.Appender
import LogShipper.Proofs.Delivery.Ledger
import LogShipper.Proofs.Delivery.Sending

/-!
# What appending is made of

A record comes from shipping itself if the first segment of its target is one of four names; a
target that merely begins with such a name is no reason to refuse it. To append records as a batch
is to warn of each one that is refused, in order, and then to send the payloads of all others in
bulk, each framed by the header and the footer of the layout. Nothing that delivery logs meanwhile
is such a warning.

Results:
* `isInternalTarget_iff_firstSegment`: a target is internal by its first segment.
* `trace_appendBatch`: what a batch is made of.
* `recursions_appendBatch`: the warnings of a batch.
-/

namespace LogShipper

open Delivery (Dialogue Exchange Request BulkReport Ledger entries)
open Delivery.Dialogue (Trace)

/-! ## First segments -/

/-- The characters before the first two colons in a row, or all of them if there are none. -/
def beforeColons : List Char → List Char
  | [] => []
  | ':' :: ':' :: _ => []
  | c :: rest => c :: beforeColons rest

/-- The first of the segments of a target, which two colons part. -/
def firstSegment (target : String) : String := String.ofList (beforeColons target.toList)

/-- A name without a colon is what stands before the colons if it is all, or if two colons follow
it. The induction is on the target, along with which the name gets shorter. -/
theorem beforeColons_eq_iff {name target : List Char} (hname : ':' ∉ name) :
    beforeColons target = name ↔ target = name ∨ name ++ [':', ':'] <+: target := by
  induction target using beforeColons.induct generalizing name with
  | case1 =>
    rw [beforeColons, List.prefix_nil]
    simp
  | case2 rest =>
    rw [beforeColons]
    cases name with
    | nil => simp
    | cons c name =>
      have hc : c ≠ ':' := fun h => hname (h ▸ List.mem_cons_self)
      simp [hc, hc.symm]
  | case3 c rest hcolons ih =>
    rw [beforeColons]
    · cases name with
      | nil =>
        have hnot : ¬[':', ':'] <+: c :: rest := by
          rintro ⟨after, hafter⟩
          obtain ⟨hc, hrest⟩ := List.cons.inj hafter
          exact hcolons after hc.symm hrest.symm
        simp [hnot]
      | cons d name =>
        rw [List.cons.injEq, ih fun h => hname (List.mem_cons_of_mem d h), List.cons.injEq,
          List.cons_append, List.cons_prefix_cons]
        constructor
        · rintro ⟨rfl, h | h⟩
          · exact .inl ⟨rfl, h⟩
          · exact .inr ⟨rfl, h⟩
        · rintro (⟨rfl, h⟩ | ⟨rfl, h⟩)
          · exact ⟨rfl, .inl h⟩
          · exact ⟨rfl, .inr h⟩
    · exact hcolons

/-- No internal target has a colon in it. -/
theorem colon_not_mem_of_internal {name : String} (h : name ∈ internalTargets) :
    ':' ∉ name.toList := by
  unfold internalTargets at h
  simp only [List.mem_cons, List.not_mem_nil, or_false] at h
  rcases h with rfl | rfl | rfl | rfl <;> decide

/-- **A target is internal by its first segment.** -/
theorem isInternalTarget_iff_firstSegment {target : String} :
    isInternalTarget target = true ↔ firstSegment target ∈ internalTargets := by
  have same {name : String} (h : name ∈ internalTargets) :
      firstSegment target = name ↔
        target = name ∨ name.toList ++ [':', ':'] <+: target.toList := by
    rw [← String.toList_inj, ← String.toList_inj, firstSegment, String.toList_ofList]
    exact beforeColons_eq_iff (colon_not_mem_of_internal h)
  rw [isInternalTarget_iff]
  constructor
  · rintro ⟨name, hname, h⟩
    exact (same hname).mpr h ▸ hname
  · intro h
    exact ⟨_, h, (same h).mp rfl⟩

example : ["redis::cmd", "redis_client::pool", "redis:::x"].map firstSegment =
    ["redis", "redis_client", "redis"] := by decide

/-- The record comes from shipping itself. -/
def Record.IsOwn (r : Record) : Prop :=
  firstSegment r.target ∈ ["list_sink_core", "list_sink_appender", "redis", "r2d2"]

instance : DecidablePred Record.IsOwn := fun r =>
  inferInstanceAs (Decidable (firstSegment r.target ∈ _))

theorem Appender.refuses_eq (r : Record) : Appender.refuses r = decide r.IsOwn :=
  Bool.eq_iff_iff.mpr (isInternalTarget_iff_firstSegment.trans decide_eq_true_iff.symm)

/-! ## What delivery logs -/

/-- Whether an entry warns of a record that comes from shipping itself. -/
def LogEntry.isRecursion (x : LogEntry) : Bool := x.source == .appender && x.level == .warn

namespace Delivery

/-- The requests of talks below an appender: these log nothing in its name. -/
def Request.isBelow : Request → Bool
  | .log entry => entry.source != .appender
  | _ => true

theorem Request.isBelow_of_isTry {r : Request} (h : r.isTry = true) : r.isBelow = true := by
  cases r with
  | log entry => rw [isBelow, beq_iff_eq.mp h]; rfl
  | _ => rfl

theorem acquire_below : acquire.Only Request.isBelow := by
  refine .ask rfl fun phase => ?_
  cases phase with
  | running =>
    refine .ask rfl fun x => ?_
    cases x <;> exact .done
  | created => exact .done
  | shutDown => exact .done

theorem PoolSettings.release_below (p : PoolSettings) (link : LinkId) (healthy : Bool) :
    (p.release link healthy).Only Request.isBelow := by
  refine p.release_only link (fun r _ hpool => ?_) healthy
  cases r with
  | log entry => rw [Request.isBelow, hpool entry rfl]; rfl
  | _ => rfl

namespace Engine

variable (e : Engine)

theorem log_below {l : Level} {m : String} {fields : List (String × String)} :
    (e.log l m fields).Only Request.isBelow := .log rfl

theorem ensureStarted_below : e.ensureStarted.Only Request.isBelow := by
  refine .ask rfl fun phase => ?_
  cases phase with
  | started => exact .done
  | created => exact .bind e.log_below fun _ => .done
  | stopped => exact .bind e.log_below fun _ => .done

theorem deliverAll_below (link : LinkId) (payloads : List Bytes) (tally : Tally) :
    (e.deliverAll link payloads tally).Only Request.isBelow := by
  induction payloads generalizing tally with
  | nil => exact .done
  | cons payload rest ih =>
    refine .bind ((e.deliver_tries link payload e.token).mono fun _ => Request.isBelow_of_isTry)
      fun o => ?_
    cases o with
    | delivered => exact ih _
    | undelivered _ _ => exact ih _
    | lost _ _ => exact .bind e.log_below fun _ => .done

theorem logBatch_below (r : BulkReport) : (e.logBatch r).Only Request.isBelow := by
  unfold logBatch
  split <;> exact e.log_below

/-- **A bulk send** logs nothing in an appender's name. -/
theorem sendBulk_below (payloads : List Bytes) : (e.sendBulk payloads).Only Request.isBelow := by
  refine .bind e.ensureStarted_below fun x => ?_
  cases x with
  | error err => exact .done
  | ok _ =>
    refine .bind (.ask rfl fun _ => .done) fun batch =>
      .bind (.bind acquire_below fun got => ?_) fun _ => .done
    cases got with
    | error err => exact .bind e.log_below fun _ => .done
    | ok link =>
      exact .bind e.log_below fun _ =>
        .bind (e.deliverAll_below link payloads {}) fun tally =>
          .bind (e.pool.release_below link tally.healthy) fun _ =>
            .bind (e.logBatch_below _) fun _ => .done

end Engine

/-- Talks below an appender warn of no record. -/
theorem Dialogue.Only.recursions_eq_nil {α : Type} {d : Dialogue α}
    (h : d.Only Request.isBelow) {t : List Exchange} {x : α} (ht : Trace d t x) :
    (entries t).filter LogEntry.isRecursion = [] := by
  refine List.filter_eq_nil_iff.mpr fun entry hentry => ?_
  obtain ⟨⟨r, y⟩, hy, hlogged⟩ := List.mem_filterMap.mp hentry
  have hr := h.requests ht _ hy
  cases r with
  | log logged =>
    obtain rfl : logged = entry := Option.some.inj hlogged
    have hsource : (logged.source == .appender) = false := by
      simpa [Request.isBelow] using hr
    rw [LogEntry.isRecursion, hsource]
    exact Bool.false_ne_true
  | _ => cases hlogged

end Delivery

/-! ## Batches -/

namespace Appender

variable (a : Appender) {rs : List Record} {t : List Exchange}

/-- What is logged of a record that is refused. -/
def refusal (r : Record) : LogEntry where
  level := .warn
  source := .appender
  message := "Recursive logging from [" ++ r.target ++ "] for appender [" ++ a.name ++ "]"
  fields := []

/-- What is logged of records: one entry for each that comes from shipping itself. -/
def refusals (rs : List Record) : List LogEntry :=
  (rs.filter fun r => r.IsOwn).map a.refusal

/-- What is shipped of records: one payload for each that does not come from shipping itself. -/
def frames (rs : List Record) : List Bytes :=
  (rs.filter fun r => ¬r.IsOwn).map fun r =>
    a.layout.header.getD [] ++ a.layout.body r ++ a.layout.footer.getD []

theorem payloads_eq_frames (rs : List Record) : a.payloads rs = a.frames rs := by
  have kept : (fun r => !refuses r) = fun r : Record => decide ¬r.IsOwn := by
    funext r
    rw [refuses_eq, decide_not]
  rw [payloads, kept]
  rfl

theorem frames_cons_own {r : Record} (hr : r.IsOwn) (rs : List Record) :
    a.frames (r :: rs) = a.frames rs := by
  rw [frames, List.filter_cons_of_neg (by simpa using hr)]
  rfl

theorem frames_cons_other {r : Record} (hr : ¬r.IsOwn) (rs : List Record) :
    a.frames (r :: rs) = a.layout.payload r :: a.frames rs := by
  rw [frames, List.filter_cons_of_pos (by simpa using hr)]
  rfl

/-- The refused ones among records are logged in order, and nothing else is done. -/
theorem trace_logAllRefused {x : Unit} :
    Trace (a.logAllRefused rs) t x ↔ t = (a.refusals rs).map Exchange.logged := by
  induction rs generalizing t with
  | nil => exact Dialogue.trace_done.trans (and_iff_left rfl)
  | cons r rs ih =>
    unfold logAllRefused refusals
    rw [List.filter_cons, refuses_eq]
    by_cases hr : r.IsOwn
    · rw [decide_eq_true hr, if_pos rfl, if_pos rfl]
      refine Dialogue.trace_log_bind.trans ⟨?_, ?_⟩
      · rintro ⟨t', rfl, h⟩
        exact congrArg _ (ih.mp h)
      · rintro rfl
        exact ⟨_, rfl, ih.mpr rfl⟩
    · rw [decide_eq_false hr]
      exact ih

/-- **What a batch is made of**: the refused records are logged, then the payloads of all others are
sent in bulk. -/
theorem trace_appendBatch {x : Option BulkReport} :
    Trace (a.appendBatch rs) t x ↔ ∃ sent ended result,
      t = (a.refusals rs).map Exchange.logged ++ (sent ++ ended) ∧
        Trace (a.engine.sendBulk (a.frames rs)) sent result ∧ Trace (a.swallow result) ended x := by
  rw [← payloads_eq_frames]
  refine Dialogue.trace_bind.trans ⟨?_, ?_⟩
  · rintro ⟨t₁, t₂, u, rfl, h₁, h₂⟩
    obtain rfl := a.trace_logAllRefused.mp h₁
    obtain ⟨sent, ended, result, rfl, hsent, hended⟩ := Dialogue.trace_bind.mp h₂
    exact ⟨sent, ended, result, rfl, hsent, hended⟩
  · rintro ⟨sent, ended, result, rfl, hsent, hended⟩
    exact ⟨_, _, (), rfl, a.trace_logAllRefused.mpr rfl,
      Dialogue.trace_bind.mpr ⟨sent, ended, result, rfl, hsent, hended⟩⟩

theorem entries_refusals (l : List LogEntry) : entries (l.map Exchange.logged) = l := by
  rw [entries, List.filterMap_map]
  exact List.filterMap_some

theorem recursions_swallow {α : Type} {result : Except LifecycleError α} {x : Option α}
    (h : Trace (a.swallow result) t x) : (entries t).filter LogEntry.isRecursion = [] := by
  cases result with
  | ok _ =>
    obtain ⟨rfl, -⟩ := Dialogue.trace_done.mp h
    rfl
  | error err =>
    obtain ⟨t', rfl, h'⟩ := Dialogue.trace_log_bind.mp h
    obtain ⟨rfl, -⟩ := Dialogue.trace_done.mp h'
    rfl

/-- **The warnings of a batch**: one for each of its records that is refused, in order. -/
theorem recursions_appendBatch {x : Option BulkReport} (h : Trace (a.appendBatch rs) t x) :
    (entries t).filter LogEntry.isRecursion = a.refusals rs := by
  obtain ⟨sent, ended, result, rfl, hsent, hended⟩ := a.trace_appendBatch.mp h
  have refused : (a.refusals rs).filter LogEntry.isRecursion = a.refusals rs := by
    refine List.filter_eq_self.mpr fun entry hentry => ?_
    obtain ⟨r, -, rfl⟩ := List.mem_map.mp hentry
    rfl
  rw [Delivery.entries_append, Delivery.entries_append, List.filter_append, List.filter_append,
    entries_refusals, refused, (a.engine.sendBulk_below _).recursions_eq_nil hsent,
    a.recursions_swallow hended, List.append_nil, List.append_nil]

/-! ## What an appender asks for -/

theorem swallow_cares {α : Type} (result : Except LifecycleError α) :
    (a.swallow result).Cares := by
  cases result with
  | ok _ => exact .done
  | error _ => exact .bind (.log rfl) fun _ => .done

theorem swallow_sends {α : Type} (result : Except LifecycleError α) : (a.swallow result).Sends :=
  (a.swallow_cares result).mono fun _ => Request.isSending_of_isCare

theorem logAllRefused_cares (rs : List Record) : (a.logAllRefused rs).Cares := by
  induction rs with
  | nil => exact .done
  | cons r rs ih =>
    unfold logAllRefused
    split
    · exact .bind (.log rfl) fun _ => ih
    · exact ih

theorem append_sends (r : Record) : (a.append r).Sends := by
  unfold append
  split
  · exact .bind Dialogue.log_sends fun _ => .done
  · exact .bind (a.engine.sendWith_sends _ _) a.swallow_sends

theorem appendBatch_sends (rs : List Record) : (a.appendBatch rs).Sends :=
  .bind ((a.logAllRefused_cares rs).mono fun _ => Request.isSending_of_isCare) fun _ =>
    .bind (a.engine.sendBulk_sends _) a.swallow_sends

variable {h : Ledger}

theorem swallow_settles {α : Type} (result : Except LifecycleError α) :
    (a.swallow result).Settles h := by
  cases result with
  | ok _ => exact rfl
  | error _ => exact Dialogue.settles_log.bind fun _ => rfl

theorem logAllRefused_settles (rs : List Record) : (a.logAllRefused rs).Settles h := by
  induction rs with
  | nil => exact rfl
  | cons r rs ih =>
    unfold logAllRefused
    split
    · exact Dialogue.settles_log.bind fun _ => ih
    · exact ih

theorem append_settles (hc : h.Clean) (r : Record) : (a.append r).Settles h := by
  unfold append
  split
  · exact Dialogue.settles_log.bind fun _ => rfl
  · exact (a.engine.sendWith_settles hc _ _).bind a.swallow_settles

theorem appendBatch_settles (hc : h.Clean) (rs : List Record) : (a.appendBatch rs).Settles h :=
  (a.logAllRefused_settles rs).bind fun _ =>
    (a.engine.sendBulk_settles hc _).bind a.swallow_settles

/-- **Every call on an appender** gives back the links that it borrows. -/
theorem Call.settles (hc : h.Clean) (c : Call) : (c.dialogue a).Settles h := by
  cases c with
  | start =>
    refine (a.engine.startup_settles h).bind fun x => ?_
    cases x <;> exact rfl
  | stop ms => exact (a.engine.shutdown_settles ms h).bind fun _ => rfl
  | append r => exact (a.append_settles hc r).bind fun _ => rfl
  | batch rs => exact (a.appendBatch_settles hc rs).bind fun _ => rfl

end Appender

end LogShipper
