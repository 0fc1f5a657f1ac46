import LogShipper.Proofs.CommandLine.Handovers
import LogShipper.Proofs.Text.Lines

/-!
# Which lines a session hands over

Where the input is UTF-8, all lines that hold something are handed over, in order and each once,
and in batches that are full but for the last one; while the engine runs, the totals account for
them. That is so for every batch size that there is room for. With a larger one the command breaks
down when the appender has started, before it reads a line.

Where a line cannot be read, the records that wait for their batch to become full are dropped: what
is handed over of the lines before is as many as make full batches.

Covers `main`, from the arguments to its last line.

Results:
* `total_of_handAll`: a running engine accounts for all records that it is handed.
* `lines_handed_over`: sessions whose input is UTF-8.
* `handed_over_before_bad_line`: sessions with a line that cannot be read.
-/

namespace LogShipper

open Delivery (Dialogue Exchange IsRunning Request)
open Delivery.Dialogue (Trace trace_bind trace_done trace_log_bind)

/-! ## Totals -/

namespace Handover

variable {a : Appender} {t : List Exchange} {totals totals' : Totals}

theorem total_addOutcome (totals : Totals) (o : Option Delivery.SendOutcome) :
    (totals.addOutcome o).total = totals.total + 1 := by
  unfold Totals.addOutcome Totals.total
  split <;> simp only <;> omega

/-- A report accounts for all payloads of its batch. -/
theorem total_of_trace_sendBulk {e : Delivery.Engine} {payloads : List Bytes}
    {r : Except LifecycleError Delivery.BulkReport} (h : Trace (e.sendBulk payloads) t r)
    (hrun : IsRunning t) : ∃ report, r = .ok report ∧ report.total = payloads.length := by
  rcases Delivery.trace_sendBulk_cases h with ⟨batch, report, u, rfl, rfl, hu⟩ |
    ⟨phase, error, hphase, -, rfl⟩
  · refine ⟨report, rfl, ?_⟩
    rcases Delivery.trace_bulkOverLink hu with ⟨reason, before, rfl, -⟩ |
      ⟨link, tally, v, rest, courses, after, -, htallies, -, rfl⟩
    · exact Nat.zero_add _
    · rw [Delivery.Engine.total_eq, htallies.tried, htallies.ends.first.2]
  · exact absurd (hrun phase (List.mem_cons_self)) hphase

/-- One handover to a running engine. -/
theorem total_of_hand {h : Handover} (ht : Trace (h.hand a totals) t totals')
    (hrun : IsRunning t) : totals'.total = totals.total + h.records.length := by
  cases h with
  | single r =>
    obtain ⟨t₁, t₂, result, rfl, h₁, h₂⟩ := trace_bind.mp ht
    rcases Delivery.trace_sendWith_cases h₁ with ⟨u, outcome, rfl, rfl, -⟩ |
      ⟨phase, error, hphase, -, rfl⟩
    · obtain ⟨-, rfl⟩ := trace_done.mp h₂
      exact total_addOutcome _ _
    · exact absurd (hrun.left phase List.mem_cons_self) hphase
  | batch rs =>
    obtain ⟨t₁, t₂, result, rfl, h₁, h₂⟩ := trace_bind.mp ht
    obtain ⟨report, rfl, hreport⟩ := total_of_trace_sendBulk h₁ hrun.left
    obtain ⟨-, rfl⟩ := trace_done.mp h₂
    rw [List.length_map, Delivery.BulkReport.total] at hreport
    show totals.delivered + _ + (totals.failed + _) = _ + rs.length
    rw [← hreport, Totals.total]
    omega

/-- **A running engine accounts for all records** that it is handed. -/
theorem total_of_handAll {hs : List Handover} (ht : Trace (handAll a totals hs) t totals')
    (hrun : IsRunning t) : totals'.total = totals.total + (hs.flatMap records).length := by
  induction hs generalizing totals t with
  | nil =>
    obtain ⟨-, rfl⟩ := trace_done.mp ht
    rfl
  | cons h hs ih =>
    obtain ⟨t₁, t₂, between, rfl, h₁, h₂⟩ := trace_bind.mp ht
    rw [ih h₂ hrun.right, total_of_hand h₁ hrun.left, List.flatMap_cons, List.length_append,
      Nat.add_assoc]

/-! ## How records are cut -/

/-- Handovers of records one by one, or in batches that are full but for the last one. -/
structure IsCut (b : Nat) (hs : List Handover) : Prop where
  singles : b ≤ 1 → ∀ h ∈ hs, ∃ r, h = .single r
  full : 1 < b → ∀ h ∈ hs.dropLast, ∃ rs, h = .batch rs ∧ rs.length = b
  last : 1 < b → ∀ h ∈ hs.getLast?, ∃ rs, h = .batch rs ∧ 1 ≤ rs.length ∧ rs.length ≤ b

end Handover

namespace CommandLine

open Handover Pump

theorem full_handovers {b : Nat} (hb : 1 < b) (rs : List Record) {h : Handover}
    (hh : h ∈ (handovers b [] rs).1) : ∃ rs, h = .batch rs ∧ rs.length = b := by
  rw [handovers, if_neg (by omega)] at hh
  obtain ⟨batch, hbatch, rfl⟩ := List.mem_map.mp hh
  exact ⟨batch, rfl, length_of_mem_fill (by rw [List.length_nil]; omega) batch hbatch⟩

theorem isCut_allHandovers (b : Nat) (rs : List Record) : IsCut b (allHandovers b rs) where
  singles hb h hh := by
    rw [allHandovers, handovers, if_pos hb, lastly, List.append_nil] at hh
    obtain ⟨r, -, rfl⟩ := List.mem_map.mp hh
    exact ⟨r, rfl⟩
  full hb h hh := by
    rw [allHandovers] at hh
    cases hleft : (handovers b [] rs).2 with
    | nil =>
      rw [hleft, lastly, List.append_nil] at hh
      exact full_handovers hb rs ((List.dropLast_sublist _).subset hh)
    | cons r rest =>
      rw [hleft, lastly, List.dropLast_concat] at hh
      exact full_handovers hb rs hh
  last hb h hh := by
    rw [allHandovers] at hh
    cases hleft : (handovers b [] rs).2 with
    | nil =>
      rw [hleft, lastly, List.append_nil] at hh
      obtain ⟨batch, rfl, hlength⟩ := full_handovers hb rs (List.mem_of_getLast? hh)
      exact ⟨batch, rfl, by omega, by omega⟩
    | cons r rest =>
      rw [hleft, lastly, List.getLast?_concat] at hh
      obtain rfl := Option.some.inj hh
      refine ⟨r :: rest, rfl, by simp, ?_⟩
      have hlength : (fill b [] rs).2.length < b :=
        length_left_fill (by rw [List.length_nil]; omega)
      rw [handovers, if_neg (by omega)] at hleft
      simp only at hleft
      rw [hleft] at hlength
      omega

/-! ## How a session goes -/

variable {o : Options} {a : Appender}

/-- What is logged when the appender has started. -/
def startedEntry (o : Options) (a : Appender) : LogEntry where
  level := .info
  source := .command
  message := "list-sink started"
  fields := [("appender", a.display), ("layout", o.layout.name),
    ("batch_size", Text.decimal o.batchSize)]

/-- How a session goes that has certain handovers, and then ends in some way. -/
inductive Goes (o : Options) (a : Appender) (hs : List Handover)
    (ending : Totals → Dialogue Outcome) : List Exchange → Outcome → Prop where
  /-- The appender does not start. -/
  | unstarted {t : List Exchange} {error : LifecycleError}
      (ht : Trace a.engine.startup t (.error error)) :
      Goes o a hs ending t (.failed (.starting error))
  /-- The appender starts, and there is no room for a batch. -/
  | crashed {t : List Exchange} (hroom : maxBatch < o.batchSize)
      (ht : Trace a.engine.startup t (.ok ())) :
      Goes o a hs ending (t ++ [.logged (startedEntry o a)]) (.crashed "capacity overflow")
  /-- The appender starts, all is handed over, and the session ends. -/
  | handed {t u v : List Exchange} {totals : Totals} {outcome : Outcome}
      (hroom : o.batchSize ≤ maxBatch) (ht : Trace a.engine.startup t (.ok ()))
      (hu : Trace (handAll a {} hs) u totals) (hv : Trace (ending totals) v outcome) :
      Goes o a hs ending (t ++ .logged (startedEntry o a) :: (u ++ v)) outcome

theorem goes_of_trace {hs : List Handover} {ending : Totals → Dialogue Outcome} {t : List Exchange}
    {outcome : Outcome}
    (h : Trace ((launch o a).bind fun
      | .error outcome => .done outcome
      | .ok () => (handAll a {} hs).bind ending) t outcome) : Goes o a hs ending t outcome := by
  obtain ⟨t₁, t₂, launched, rfl, h₁, h₂⟩ := trace_bind.mp h
  obtain ⟨t₃, t₄, started, rfl, h₃, h₄⟩ := trace_bind.mp h₁
  cases started with
  | error error =>
    obtain ⟨rfl, rfl⟩ := trace_done.mp h₄
    obtain ⟨rfl, rfl⟩ := trace_done.mp h₂
    rw [List.append_nil, List.append_nil]
    exact .unstarted h₃
  | ok u =>
    obtain ⟨t₅, rfl, h₅⟩ := trace_log_bind.mp h₄
    by_cases hroom : maxBatch < o.batchSize
    · rw [if_pos hroom] at h₅
      obtain ⟨rfl, rfl⟩ := trace_done.mp h₅
      obtain ⟨rfl, rfl⟩ := trace_done.mp h₂
      rw [List.append_nil]
      exact .crashed hroom h₃
    · rw [if_neg hroom] at h₅
      obtain ⟨rfl, rfl⟩ := trace_done.mp h₅
      obtain ⟨t₆, t₇, totals, rfl, h₆, h₇⟩ := trace_bind.mp h₂
      rw [List.append_assoc, List.singleton_append]
      exact .handed (Nat.le_of_not_lt hroom) h₃ h₆ h₇

end CommandLine

/-! ## Input that is text -/

/-- What the lines of a text say that hold something. -/
def Text.heldLines (s : String) : List String :=
  ((linesSaid s.toList).filter (· != [])).map String.ofList

/-- A text, if it holds something. -/
def Text.held? (s : String) : Option String := if s.isEmpty then none else some s

theorem Line.heard_message (l : Line) : l.heard?.map Record.message = l.text?.bind Text.held? := by
  unfold heard? record? Text.held?
  cases l.text? with
  | none => rfl
  | some s =>
    simp only [Option.bind_some]
    split <;> rfl

theorem Text.filterMap_held (lines : List (List Char)) :
    lines.filterMap (fun line => held? (String.ofList line)) =
      (lines.filter (· != [])).map String.ofList := by
  induction lines with
  | nil => rfl
  | cons line lines ih =>
    cases line with
    | nil => exact ih
    | cons c cs =>
      rw [List.filterMap_cons_some (b := String.ofList (c :: cs)) (by simp [held?])]
      exact congrArg _ ih

/-- The records of the lines of a text. -/
theorem Line.records_of_text {bs : Bytes} {s : String} {lines : List Line}
    (hs : Text.ofUtf8? bs = some s) (hlines : lines.map Line.raw = Text.splitLines bs) :
    (records lines).2 = none ∧ (records lines).1.map Record.message = Text.heldLines s := by
  have hread : lines.map Line.text? =
      (Text.linesSaid s.toList).map fun line => some (String.ofList line) := by
    rw [← Text.map_read_splitLines, Text.utf8Chars, ← Text.utf8_eq_flatMap,
      ← Text.utf8_of_ofUtf8? hs, ← hlines, List.map_map]
    rfl
  have hsome : ∀ l ∈ lines, l.text?.isSome = true := by
    intro l hl
    have hmem : l.text? ∈ lines.map Line.text? := List.mem_map_of_mem hl
    rw [hread] at hmem
    obtain ⟨line, -, hline⟩ := List.mem_map.mp hmem
    rw [← hline]
    rfl
  rw [records_eq_filterMap hsome]
  refine ⟨rfl, ?_⟩
  calc (lines.filterMap heard?).map Record.message
      = lines.filterMap fun l => l.text?.bind Text.held? := by
        rw [List.map_filterMap]
        exact congrArg (lines.filterMap ·) (funext heard_message)
    _ = (lines.map text?).filterMap fun t => t.bind Text.held? := by
        rw [List.filterMap_map]
        rfl
    _ = (Text.linesSaid s.toList).filterMap fun line => Text.held? (String.ofList line) := by
        rw [hread, List.filterMap_map]
        rfl
    _ = Text.heldLines s := Text.filterMap_held _

namespace CommandLine

open Handover Pump

/-- The lines of an input that comes all at once. -/
def linesOf (input : Bytes) : List Line := (Text.splitLines input).map fun raw => ⟨⟨0, 0⟩, raw⟩

theorem raw_linesOf (input : Bytes) : (linesOf input).map Line.raw = Text.splitLines input := by
  rw [linesOf, List.map_map]
  exact List.map_id _

/-- **No line is lost or repeated** where the input is UTF-8. -/
theorem lines_handed_over {bs : Bytes} {s : String} {lines : List Line}
    (htext : Text.ofUtf8? bs = some s) (hlines : lines.map Line.raw = Text.splitLines bs)
    (o : Options) (a : Appender) :
    ∃ hs : List Handover, IsCut o.batchSize hs ∧
      (hs.flatMap records).map Record.message = Text.heldLines s ∧
      (∀ r ∈ hs.flatMap records, ∃ l ∈ lines, r = l.toRecord r.message) ∧
      (∀ t outcome, Trace (session o a lines) t outcome →
        Goes o a hs (farewell o a) t outcome) ∧
      ∀ u totals, Trace (handAll a {} hs) u totals → IsRunning u →
        totals.delivered + totals.failed = (Text.heldLines s).length := by
  obtain ⟨hread, hmessages⟩ := Line.records_of_text htext hlines
  have hall := flatMap_allHandovers o.batchSize (Line.records lines).1
  refine ⟨allHandovers o.batchSize (Line.records lines).1, isCut_allHandovers _ _, ?_, ?_,
    fun t outcome h => ?_, fun u totals hu hrun => ?_⟩
  · rw [hall, hmessages]
  · rw [hall]
    exact fun r hr => exists_line_of_mem_records hr
  · rw [session_eq_of_read o a hread] at h
    exact goes_of_trace h
  · have htotal := total_of_handAll hu hrun
    rw [hall, ← List.length_map (f := Record.message), hmessages] at htotal
    exact htotal.trans (Nat.zero_add _)

/-- Five lines, of which one holds nothing and one has no end. -/
theorem lines_handed_over_pairs :
    Text.ofUtf8? (Text.utf8 "a\r\n\nb\nc") = some "a\r\n\nb\nc" ∧
      Text.heldLines "a\r\n\nb\nc" = ["a", "b", "c"] ∧
      ∃ hs : List Handover, IsCut 2 hs ∧
        (hs.flatMap records).map Record.message = ["a", "b", "c"] ∧
        ∀ u totals, Trace (handAll ⟨Delivery.Engine.twoKeys, .raw⟩ {} hs) u totals →
          IsRunning u → totals.delivered + totals.failed = 3 := by
  have hs : Text.ofUtf8? (Text.utf8 "a\r\n\nb\nc") = some "a\r\n\nb\nc" := Text.ofUtf8?_utf8 _
  have hheld : Text.heldLines "a\r\n\nb\nc" = ["a", "b", "c"] := by decide +kernel
  obtain ⟨handed, hcut, hmessages, -, -, htotals⟩ :=
    lines_handed_over hs (raw_linesOf _) { batchSize := 2 } ⟨Delivery.Engine.twoKeys, .raw⟩
  rw [hheld] at hmessages htotals
  exact ⟨hs, hheld, handed, hcut, hmessages, htotals⟩

/-- Ships an input to a store that takes everything, so many records at a time. -/
def shipped (batchSize : Nat) (input : Bytes) : Outcome × World ScriptedStore :=
  (session { batchSize := batchSize } ⟨Delivery.Engine.twoKeys, .raw⟩ (linesOf input)).run
    (World.answer ScriptedStore.transport Delivery.Engine.twoKeys 0) { remote := {} }

/-- The largest batch size that can be asked for: the one line of the input is lost, though the
appender has started and keeps running. -/
theorem line_lost_to_huge_batch :
    ((Options.parse (fun _ => none) ["--batch-size", "18446744073709551615"]).map
        Options.batchSize).toOption = some maxCount ∧
      Text.heldLines "x\n" = ["x"] ∧
      (shipped maxCount (Text.utf8 "x\n")).1 = .crashed "capacity overflow" ∧
      (shipped maxCount (Text.utf8 "x\n")).2.phase = .started ∧
      (shipped maxCount (Text.utf8 "x\n")).2.remote.list "a" = [] ∧
      (shipped 1 (Text.utf8 "x\n")).2.remote.list "a" = [Text.utf8 "x"] := by
  decide +kernel

/-! ## Input with a line that cannot be read -/

/-- The records before a line that cannot be read. -/
theorem records_of_unread {lines : List Line} (h : ∃ l ∈ lines, l.text? = none) :
    Line.records lines =
      ((lines.takeWhile fun l => l.text?.isSome).filterMap Line.heard?, some Line.notText) := by
  induction lines with
  | nil =>
    obtain ⟨l, hl, -⟩ := h
    cases hl
  | cons l rest ih =>
    cases hs : l.text? with
    | none => simp [Line.records, Line.record?, hs]
    | some s =>
      have hrest : ∃ l ∈ rest, l.text? = none := by
        obtain ⟨l', hl', hnone⟩ := h
        rcases List.mem_cons.mp hl' with rfl | hl'
        · cases hs.symm.trans hnone
        · exact ⟨l', hl', hnone⟩
      rw [Line.records, Line.record?, hs, List.takeWhile_cons_of_pos (by rw [hs]; rfl),
        List.filterMap_cons, Line.heard?, Line.record?, hs, ih hrest]
      by_cases hempty : s.isEmpty = true <;> simp [hempty]

/-- Cutting a list to full batches takes all of it exactly where nothing is over. -/
theorem take_full_eq_iff {α : Type} (b : Nat) (l : List α) :
    l.take (if b ≤ 1 then l.length else l.length / b * b) = l ↔ b ≤ 1 ∨ b ∣ l.length := by
  have whole (n : Nat) : l.take n = l ↔ l.length ≤ n := by
    refine ⟨fun h => ?_, List.take_of_length_le⟩
    have hlength := congrArg List.length h
    rw [List.length_take] at hlength
    omega
  rw [whole]
  by_cases hb : b ≤ 1
  · simp [hb]
  · rw [if_neg hb, Nat.dvd_iff_div_mul_eq]
    have hle := Nat.div_mul_le_self l.length b
    omega

/-- **What waits is dropped at a line that cannot be read**: of the records before it, as many are
handed over as make full batches. -/
theorem handed_over_before_bad_line {lines : List Line} (hbad : ∃ l ∈ lines, l.text? = none)
    (o : Options) (a : Appender) :
    let held := (lines.takeWhile fun l => l.text?.isSome).filterMap Line.heard?
    ∃ hs : List Handover,
      hs.flatMap records =
        held.take (if o.batchSize ≤ 1 then held.length
          else held.length / o.batchSize * o.batchSize) ∧
      (hs.flatMap records = held ↔ o.batchSize ≤ 1 ∨ o.batchSize ∣ held.length) ∧
      ∀ t outcome, Trace (session o a lines) t outcome →
        Goes o a hs (fun _ => .done (.failed (.reading Line.notText))) t outcome := by
  intro held
  have hrecords : Line.records lines = (held, some Line.notText) := records_of_unread hbad
  have htake := flatMap_handovers_eq_take o.batchSize held
  refine ⟨(handovers o.batchSize [] held).1, htake, ?_, fun t outcome h => ?_⟩
  · rw [htake]
    exact take_full_eq_iff o.batchSize held
  · rw [session_eq_of_unread o a (congrArg Prod.snd hrecords), hrecords] at h
    exact goes_of_trace h

/-- Three lines before the bad one, in batches of two: the third is dropped. -/
theorem handed_over_before_bad_line_third :
    let lines := linesOf (Text.utf8 "a\nb\nc\n" ++ [0xFF, 10])
    (∃ l ∈ lines, l.text? = none) ∧
      ∃ hs : List Handover, (hs.flatMap records).map Record.message = ["a", "b"] := by
  intro lines
  have hbad : ∃ l ∈ lines, l.text? = none :=
    ⟨⟨⟨0, 0⟩, [0xFF, 10]⟩, by simp [lines, linesOf]; decide +kernel, by decide +kernel⟩
  obtain ⟨hs, htake, -⟩ := handed_over_before_bad_line hbad { batchSize := 2 }
    ⟨Delivery.Engine.twoKeys, .raw⟩
  refine ⟨hbad, hs, ?_⟩
  rw [htake]
  decide +kernel

/-- A line before the bad one is lost with a batch size of two, and is not with one of one. -/
theorem line_lost_to_bad_line :
    let input := Text.utf8 "good\n" ++ [0xFF, 10]
    (shipped 2 input).1 = .failed (.reading Line.notText) ∧
      (shipped 2 input).2.remote.list "a" = [] ∧
      (shipped 1 input).1 = .failed (.reading Line.notText) ∧
      (shipped 1 input).2.remote.list "a" = [Text.utf8 "good"] := by
  decide +kernel

end CommandLine

end LogShipper
