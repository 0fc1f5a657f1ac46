import LogShipper.CommandLine.Session
import LogShipper.Proofs.Delivery.Batches

/-!
# What a session hands over

A pump takes in records one by one, and what waits in it is not handed over yet. Seen from the
engine, a pump is a row of handovers: single records, or batches that are full, and at the end of
the lines one that need not be. No record of a line is refused, so each handover is a send of all
its records.

A session whose lines can all be read is its launch, the handovers of all records, and its
farewell. In one with a line that cannot be read nothing that waits is handed over.

Results:
* `flatten_fill`, `length_of_mem_fill`: how waiting records make up batches.
* `run_eq_handAll`: a pump is a row of handovers.
* `session_eq_of_read`, `session_eq_of_unread`: what a session consists of.
-/

namespace LogShipper

open Delivery (Dialogue Exchange)
open Delivery.Dialogue (Trace)

/-! ## Handovers -/

/-- Records that are handed to an engine at once. -/
inductive Handover where
  | single (record : Record)
  | batch (records : List Record)

namespace Handover

/-- The records that are handed over. -/
def records : Handover → List Record
  | single r => [r]
  | batch rs => rs

variable (a : Appender)

/-- Sends the records, each laid out, and counts what becomes of them. -/
def hand (totals : Totals) : Handover → Dialogue Totals
  | single r => (a.engine.send (a.layout.payload r)).bind fun result =>
    (a.swallow result).bind fun outcome => .done (totals.addOutcome outcome)
  | batch rs => (a.engine.sendBulk (rs.map a.layout.payload)).bind fun result =>
    (a.swallow result).bind fun report => .done (totals.addReport report)

/-- Hands over one after the other. -/
def handAll (totals : Totals) : List Handover → Dialogue Totals
  | [] => .done totals
  | h :: hs => (h.hand a totals).bind fun totals => handAll totals hs

theorem handAll_append (totals : Totals) (hs ks : List Handover) :
    handAll a totals (hs ++ ks) =
      (handAll a totals hs).bind fun totals => handAll a totals ks := by
  induction hs generalizing totals with
  | nil => rfl
  | cons h hs ih =>
    rw [List.cons_append, handAll, handAll, Dialogue.bind_assoc]
    exact congrArg _ (funext fun totals => ih totals)

end Handover

/-! ## Filling batches -/

/-- The batches that records make full, and what waits behind them. -/
def fill (batchSize : Nat) (waiting : List Record) : List Record → List (List Record) × List Record
  | [] => ([], waiting)
  | r :: rs =>
    if batchSize ≤ (waiting ++ [r]).length then
      ((waiting ++ [r]) :: (fill batchSize [] rs).1, (fill batchSize [] rs).2)
    else fill batchSize (waiting ++ [r]) rs

theorem flatten_fill (b : Nat) (waiting rs : List Record) :
    (fill b waiting rs).1.flatten ++ (fill b waiting rs).2 = waiting ++ rs := by
  induction rs generalizing waiting with
  | nil => simp [fill]
  | cons r rs ih =>
    rw [fill]
    split
    · have := ih []
      simp only [List.flatten_cons, List.append_assoc, this, List.nil_append, List.cons_append]
    · rw [ih, List.append_assoc]
      rfl

theorem length_of_mem_fill {b : Nat} {waiting rs : List Record} (hw : waiting.length < b) :
    ∀ batch ∈ (fill b waiting rs).1, batch.length = b := by
  induction rs generalizing waiting with
  | nil => simp [fill]
  | cons r rs ih =>
    rw [fill]
    split
    · -- one was missing before, so the batch is full and not more than that
      rename_i hfull
      rw [List.length_append, List.length_singleton] at hfull
      intro batch hbatch
      rcases List.mem_cons.mp hbatch with rfl | hbatch
      · rw [List.length_append, List.length_singleton]
        omega
      · exact ih (by rw [List.length_nil]; omega) batch hbatch
    · rename_i hroom
      exact ih (by omega)

theorem length_left_fill {b : Nat} {waiting rs : List Record} (hw : waiting.length < b) :
    (fill b waiting rs).2.length < b := by
  induction rs generalizing waiting with
  | nil => exact hw
  | cons r rs ih =>
    rw [fill]
    split
    · exact ih (by rw [List.length_nil]; omega)
    · exact ih (by omega)

theorem length_flatten_of_full {b : Nat} {batches : List (List Record)}
    (h : ∀ batch ∈ batches, batch.length = b) : batches.flatten.length = batches.length * b := by
  induction batches with
  | nil => exact (Nat.zero_mul b).symm
  | cons batch rest ih =>
    rw [List.flatten_cons, List.length_append, h batch List.mem_cons_self,
      ih fun other hother => h other (List.mem_cons_of_mem _ hother), List.length_cons,
      Nat.succ_mul, Nat.add_comm]

/-- The full batches hold as many records as go into batches without a rest. -/
theorem flatten_fill_eq_take {b : Nat} (hb : 0 < b) (rs : List Record) :
    (fill b [] rs).1.flatten = rs.take (rs.length / b * b) := by
  have hroom : ([] : List Record).length < b := by rwa [List.length_nil]
  have hall : (fill b [] rs).1.flatten ++ (fill b [] rs).2 = rs := flatten_fill b [] rs
  have hfull : (fill b [] rs).1.flatten.length = (fill b [] rs).1.length * b :=
    length_flatten_of_full (length_of_mem_fill hroom)
  have hleft : (fill b [] rs).2.length < b := length_left_fill hroom
  have hlength : rs.length = (fill b [] rs).2.length + (fill b [] rs).1.length * b := by
    rw [← hfull, ← List.length_append.trans (Nat.add_comm _ _), hall]
  have hcount : rs.length / b = (fill b [] rs).1.length := by
    rw [hlength, Nat.add_mul_div_right _ _ hb, Nat.div_eq_of_lt hleft, Nat.zero_add]
  rw [hcount, ← hfull]
  exact (List.take_left' rfl).symm.trans (congrArg (List.take _) hall)

/-! ## A pump hands over -/

/-- The records that are refused by no appender. -/
def Record.IsForeign (r : Record) : Prop := Appender.refuses r = false

theorem Line.isForeign_toRecord (l : Line) (message : String) :
    (l.toRecord message).IsForeign := by
  show isInternalTarget Line.target = false
  decide

namespace Appender

variable (a : Appender)

theorem append_eq {r : Record} (h : r.IsForeign) :
    a.append r = (a.engine.send (a.layout.payload r)).bind a.swallow := by
  rw [append, if_neg (by rw [h]; exact Bool.false_ne_true)]
  rfl

theorem appendBatch_eq {rs : List Record} (h : ∀ r ∈ rs, r.IsForeign) :
    a.appendBatch rs = (a.engine.sendBulk (rs.map a.layout.payload)).bind a.swallow := by
  have quiet : a.logAllRefused rs = .done () := by
    induction rs with
    | nil => rfl
    | cons r rs ih =>
      rw [logAllRefused, if_neg (by rw [h r List.mem_cons_self]; exact Bool.false_ne_true)]
      exact ih fun r' hr' => h r' (List.mem_cons_of_mem _ hr')
  have all : a.payloads rs = rs.map a.layout.payload := by
    rw [payloads, List.filter_eq_self.mpr fun r hr => by rw [h r hr]; rfl]
  rw [appendBatch, quiet, all]
  rfl

end Appender

namespace Pump

open Handover

variable (a : Appender) {p : Pump} {b : Nat} {r : Record} {rs : List Record}

theorem take_eq_single (hb : b ≤ 1) (hr : r.IsForeign) :
    p.take a b r =
      ((single r).hand a p.totals).bind fun totals => .done { p with totals } := by
  rw [take, if_pos hb, a.append_eq hr, hand, Dialogue.bind_assoc, Dialogue.bind_assoc]
  refine congrArg _ (funext fun result => ?_)
  rw [Dialogue.bind_assoc]
  rfl

theorem take_eq_ite (hb : ¬b ≤ 1) : p.take a b r =
    if b ≤ (p.waiting.push r).size then flush a { p with waiting := p.waiting.push r }
    else .done { p with waiting := p.waiting.push r } := by
  rw [take, if_neg hb]

theorem flush_eq_batch (hne : p.waiting.toList ≠ []) (hp : ∀ r ∈ p.waiting.toList, r.IsForeign) :
    p.flush a = ((batch p.waiting.toList).hand a p.totals).bind fun totals =>
      .done { totals := totals } := by
  rw [flush, if_neg (by simpa using hne), a.appendBatch_eq hp, hand, Dialogue.bind_assoc,
    Dialogue.bind_assoc]
  refine congrArg _ (funext fun result => ?_)
  rw [Dialogue.bind_assoc]
  rfl

/-- What a pump hands over of records, and what waits in it then. -/
def handovers (b : Nat) (waiting rs : List Record) : List Handover × List Record :=
  if b ≤ 1 then (rs.map single, waiting)
  else ((fill b waiting rs).1.map batch, (fill b waiting rs).2)

/-- **A pump is a row of handovers.** The induction is on the records; a pump with batches is at
most one record short of a batch. -/
theorem run_eq_handAll (hb : b ≤ 1 ∨ p.waiting.size < b)
    (hforeign : ∀ r ∈ p.waiting.toList ++ rs, r.IsForeign) :
    p.run a b rs = (handAll a p.totals (handovers b p.waiting.toList rs).1).bind fun totals =>
      .done ⟨totals, (handovers b p.waiting.toList rs).2.toArray⟩ := by
  by_cases hsingle : b ≤ 1
  · simp only [handovers, if_pos hsingle]
    induction rs generalizing p with
    | nil => rfl
    | cons r rs ih =>
      rw [run, take_eq_single a hsingle (hforeign r (by simp)), List.map_cons, handAll,
        Dialogue.bind_assoc, Dialogue.bind_assoc]
      refine congrArg _ (funext fun totals => ?_)
      exact ih (p := { p with totals }) hb fun r' hr' => hforeign r' (by grind)
  · have hroom : p.waiting.size < b := hb.resolve_left hsingle
    simp only [handovers, if_neg hsingle]
    induction rs generalizing p with
    | nil => rfl
    | cons r rs ih =>
      have hpush : (p.waiting.push r).toList = p.waiting.toList ++ [r] := Array.toList_push
      have hmore : ∀ r' ∈ (p.waiting.push r).toList ++ rs, r'.IsForeign := by
        rw [hpush, List.append_assoc]
        exact hforeign
      rw [run, take_eq_ite a hsingle, fill, ← hpush, Array.length_toList]
      by_cases hfull : b ≤ (p.waiting.push r).size
      · rw [if_pos hfull, if_pos hfull, flush_eq_batch a (by simp)
          fun r' hr' => hmore r' (List.mem_append_left _ hr'), List.map_cons, handAll,
          Dialogue.bind_assoc, Dialogue.bind_assoc]
        refine congrArg _ (funext fun totals => ?_)
        exact ih (p := { totals := totals }) (.inr (by rw [Array.size_empty]; omega))
          (fun r' hr' => hmore r' (List.mem_append_right _ hr')) (by rw [Array.size_empty]; omega)
      · rw [if_neg hfull, if_neg hfull]
        have hroom' := Nat.lt_of_not_le hfull
        exact ih (p := { p with waiting := p.waiting.push r }) (.inr hroom') hmore hroom'

theorem flatMap_batches (bs : List (List Record)) :
    (bs.map batch).flatMap records = bs.flatten := by
  rw [List.flatMap_map]
  exact List.flatMap_id

/-- A pump neither loses records nor changes their order. -/
theorem flatMap_handovers (b : Nat) (rs : List Record) :
    (handovers b [] rs).1.flatMap records ++ (handovers b [] rs).2 = rs := by
  unfold handovers
  split
  · rw [List.flatMap_map, List.append_nil]
    exact List.flatMap_singleton' rs
  · rw [flatMap_batches, flatten_fill, List.nil_append]

/-- What is handed over while records may still come: all of them one by one, or as many as make
full batches. -/
theorem flatMap_handovers_eq_take (b : Nat) (rs : List Record) :
    (handovers b [] rs).1.flatMap records =
      rs.take (if b ≤ 1 then rs.length else rs.length / b * b) := by
  unfold handovers
  split
  · rw [List.take_length, List.flatMap_map]
    exact List.flatMap_singleton' rs
  · rw [flatMap_batches, flatten_fill_eq_take (by omega)]

/-- What is left is handed over as one batch, if there is any. -/
def lastly : List Record → List Handover
  | [] => []
  | r :: rs => [batch (r :: rs)]

theorem flush_eq_handAll (hp : ∀ r ∈ p.waiting.toList, r.IsForeign) :
    p.flush a = (handAll a p.totals (lastly p.waiting.toList)).bind fun totals =>
      .done { totals := totals } := by
  cases hw : p.waiting.toList with
  | nil =>
    have hempty : p.waiting = #[] := Array.toList_eq_nil_iff.mp hw
    rw [flush, if_pos (by simp [hempty])]
    exact congrArg Dialogue.done (by rw [← hempty])
  | cons r rs =>
    rw [flush_eq_batch a (by simp [hw]) hp, hw, lastly, handAll, Dialogue.bind_assoc]
    rfl

/-- A pump of lines is a pump of their records. -/
theorem runLines_eq (p : Pump) (b : Nat) (lines : List Line) :
    p.runLines a b lines = (p.run a b (Line.records lines).1).bind fun p =>
      .done (match (Line.records lines).2 with
        | none => .ok p
        | some e => .error e) := by
  induction lines generalizing p with
  | nil => rfl
  | cons l rest ih =>
    rw [runLines, Line.records]
    cases hr : l.record? with
    | error e => rfl
    | ok heard =>
      cases heard with
      | none => exact ih p
      | some r =>
        simp only [run]
        rw [Dialogue.bind_assoc]
        exact congrArg _ (funext fun p => ih p)

end Pump

/-! ## What a session consists of -/

namespace CommandLine

open Handover Pump

/-- Each record is one of a line. -/
theorem exists_line_of_mem_records {lines : List Line} {r : Record}
    (h : r ∈ (Line.records lines).1) : ∃ l ∈ lines, r = l.toRecord r.message := by
  induction lines with
  | nil => cases h
  | cons l rest ih =>
    have further (h : r ∈ (Line.records rest).1) :
        ∃ l' ∈ l :: rest, r = l'.toRecord r.message := by
      obtain ⟨l', hl', hr⟩ := ih h
      exact ⟨l', List.mem_cons_of_mem _ hl', hr⟩
    rw [Line.records, Line.record?] at h
    cases hs : l.text? with
    | none =>
      rw [hs] at h
      cases h
    | some s =>
      rw [hs] at h
      by_cases hempty : s.isEmpty = true
      · simp only [hempty, if_true] at h
        exact further h
      · simp only [hempty] at h
        rcases List.mem_cons.mp h with rfl | h
        · exact ⟨l, List.mem_cons_self, rfl⟩
        · exact further h

variable (o : Options) (a : Appender) {lines : List Line}

/-- Stops the appender and tells the totals. -/
def farewell (totals : Totals) : Dialogue Outcome := do
  let drained ← a.engine.shutdown (some (o.shutdownSecs * 1000))
  if !drained then log .warn "Connections still in use at shutdown" []
  log .info stoppedMessage [("delivered", Text.decimal totals.delivered),
    ("failed", Text.decimal totals.failed)]
  return .finished totals

/-- All that is handed over of records when no more come. -/
def allHandovers (b : Nat) (rs : List Record) : List Handover :=
  (handovers b [] rs).1 ++ lastly (handovers b [] rs).2

/-- All records are handed over in the end, in order and each once. -/
theorem flatMap_allHandovers (b : Nat) (rs : List Record) :
    (allHandovers b rs).flatMap records = rs := by
  have hlast (left : List Record) : (lastly left).flatMap records = left := by
    cases left with
    | nil => rfl
    | cons r rest => exact List.append_nil _
  rw [allHandovers, List.flatMap_append, hlast, flatMap_handovers]

theorem isForeign_of_mem_records {r : Record} (h : r ∈ (Line.records lines).1) :
    r.IsForeign := by
  obtain ⟨l, -, hr⟩ := exists_line_of_mem_records h
  rw [hr]
  exact l.isForeign_toRecord _

theorem isForeign_of_left {r : Record}
    (h : r ∈ (handovers o.batchSize [] (Line.records lines).1).2) : r.IsForeign := by
  apply isForeign_of_mem_records
  rw [← flatMap_handovers o.batchSize (Line.records lines).1]
  exact List.mem_append_right _ h

/-- What a pump of all lines has handed over. -/
theorem runLines_eq_handAll : Pump.runLines a o.batchSize {} lines =
    (handAll a {} (handovers o.batchSize [] (Line.records lines).1).1).bind fun totals =>
      .done (match (Line.records lines).2 with
        | none => .ok ⟨totals, (handovers o.batchSize [] (Line.records lines).1).2.toArray⟩
        | some e => .error e) := by
  have hroom : o.batchSize ≤ 1 ∨ ({} : Pump).waiting.size < o.batchSize := by
    rw [Array.size_empty]
    omega
  rw [runLines_eq, run_eq_handAll a hroom fun r hr => isForeign_of_mem_records hr,
    Dialogue.bind_assoc]
  rfl

theorem wrapUp_eq (totals : Totals) {left : List Record} (h : ∀ r ∈ left, r.IsForeign) :
    wrapUp o a ⟨totals, left.toArray⟩ =
      (handAll a totals (lastly left)).bind (farewell o a) := by
  show Dialogue.bind _ _ = _
  rw [flush_eq_handAll a h, Dialogue.bind_assoc]
  rfl

/-- **A session whose lines can all be read** hands over all records. -/
theorem session_eq_of_read (h : (Line.records lines).2 = none) :
    session o a lines = (launch o a).bind fun
      | .error outcome => .done outcome
      | .ok () => (handAll a {} (allHandovers o.batchSize (Line.records lines).1)).bind
        (farewell o a) := by
  refine congrArg _ (funext fun launched => ?_)
  cases launched with
  | error outcome => rfl
  | ok u =>
    rw [runLines_eq_handAll, h, allHandovers, handAll_append]
    show Dialogue.bind _ _ = _
    rw [Dialogue.bind_assoc, Dialogue.bind_assoc]
    refine congrArg _ (funext fun totals => ?_)
    exact wrapUp_eq o a totals fun r hr => isForeign_of_left o hr

/-- **A session with a line that cannot be read** hands over what does not wait when it comes. -/
theorem session_eq_of_unread {reason : String} (h : (Line.records lines).2 = some reason) :
    session o a lines = (launch o a).bind fun
      | .error outcome => .done outcome
      | .ok () => (handAll a {} (handovers o.batchSize [] (Line.records lines).1).1).bind
        fun _ => .done (.failed (.reading reason)) := by
  refine congrArg _ (funext fun launched => ?_)
  cases launched with
  | error outcome => rfl
  | ok u =>
    rw [runLines_eq_handAll, h]
    show Dialogue.bind _ _ = _
    rw [Dialogue.bind_assoc]
    rfl

end CommandLine

end LogShipper
