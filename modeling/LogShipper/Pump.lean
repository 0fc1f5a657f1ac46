import LogShipper.Appender
import LogShipper.Text.Lines

/-!
# Pumping lines

A pump makes records of lines and appends them. Lines that hold nothing are passed over. With a
batch size of at most one, each record is appended by itself; with a larger one, records wait until
a batch is full, and the last batch is sent as it is when the lines end. A line that is not UTF-8
ends the pumping at once.

Covers the loop of `main` over its lines, `flush` and `Totals`.

Out of scope: an input that fails in another way than by what its bytes are.

Results:
* `records_eq_filterMap`: the records of lines that can all be read are those that hold something.
-/

namespace LogShipper

open Delivery (Dialogue SendOutcome BulkReport)

/-! ## Lines -/

/-- A line, with its end, and when it came. -/
structure Line where
  time : Timestamp
  raw : Bytes

namespace Line

/-- The target of records made of lines. -/
def target : String := "stdin"

/-- What is reported of a line that is not UTF-8. -/
def notText : String := "stream did not contain valid UTF-8"

/-- What a line says. -/
def text? (l : Line) : Option String := Text.ofUtf8? (Text.chomp l.raw)

/-- The record of what a line says. -/
def toRecord (l : Line) (message : String) : Record :=
  { time := l.time, level := .info, target, message, fields := [] }

/-- The record of a line, if it holds something. -/
def record? (l : Line) : Except String (Option Record) :=
  match l.text? with
  | none => .error notText
  | some s => .ok (if s.isEmpty then none else some (l.toRecord s))

/-- The records of lines up to the first one that cannot be read, and what is wrong with it. -/
def records : List Line → List Record × Option String
  | [] => ([], none)
  | l :: rest =>
    match l.record? with
    | .error e => ([], some e)
    | .ok none => records rest
    | .ok (some r) => (r :: (records rest).1, (records rest).2)

/-- The record of a line that can be read and holds something. -/
def heard? (l : Line) : Option Record :=
  match l.record? with
  | .error _ => none
  | .ok r => r

/-- The records of lines that can all be read are those that hold something. -/
theorem records_eq_filterMap {lines : List Line} (h : ∀ l ∈ lines, l.text?.isSome = true) :
    records lines = (lines.filterMap heard?, none) := by
  induction lines with
  | nil => rfl
  | cons l rest ih =>
    have ih := ih fun l' h' => h l' (List.mem_cons_of_mem _ h')
    obtain ⟨s, hs⟩ := Option.isSome_iff_exists.mp (h l List.mem_cons_self)
    rw [records, List.filterMap_cons, heard?, record?, hs]
    by_cases he : s.isEmpty = true <;> simp only [he, if_true, if_false, ih, Bool.false_eq_true]

end Line

/-! ## Pumping records -/

/-- How many records were delivered to every list, and how many were not. -/
structure Totals where
  delivered : Nat := 0
  failed : Nat := 0
  deriving DecidableEq, Repr

/-- All records of totals. -/
def Totals.total (t : Totals) : Nat := t.delivered + t.failed

/-- Adds what became of one record. -/
def Totals.addOutcome (t : Totals) (o : Option SendOutcome) : Totals :=
  match o with
  | some .delivered => { t with delivered := t.delivered + 1 }
  | _ => { t with failed := t.failed + 1 }

/-- Adds what became of a batch. -/
def Totals.addReport (t : Totals) (r : Option BulkReport) : Totals :=
  match r with
  | some r =>
    { delivered := t.delivered + r.delivered, failed := t.failed + (r.failed + r.abandoned) }
  | none => t

/-- What a pump carries from record to record: totals, and the records that wait. -/
structure Pump where
  totals : Totals := {}
  waiting : Array Record := #[]

namespace Pump

variable (a : Appender) (batchSize : Nat)

/-- Sends the records that wait, if there are any. -/
def flush (p : Pump) : Dialogue Pump :=
  if p.waiting.isEmpty then .done p
  else (a.appendBatch p.waiting.toList).bind fun report =>
    .done { totals := p.totals.addReport report, waiting := #[] }

/-- Takes in one record. -/
def take (p : Pump) (r : Record) : Dialogue Pump :=
  if batchSize ≤ 1 then
    (a.append r).bind fun outcome => .done { p with totals := p.totals.addOutcome outcome }
  else
    let p := { p with waiting := p.waiting.push r }
    if batchSize ≤ p.waiting.size then p.flush a else .done p

/-- Takes in records. -/
def run (p : Pump) : List Record → Dialogue Pump
  | [] => .done p
  | r :: rest => (p.take a batchSize r).bind fun p => run p rest

/-- Takes in lines up to the first one that cannot be read. -/
def runLines (p : Pump) : List Line → Dialogue (Except String Pump)
  | [] => .done (.ok p)
  | l :: rest =>
    match l.record? with
    | .error e => .done (.error e)
    | .ok none => runLines p rest
    | .ok (some r) => (p.take a batchSize r).bind fun p => runLines p rest

end Pump

end LogShipper
