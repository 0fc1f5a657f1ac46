import LogShipper.Destination
import LogShipper.LogFilter.Directive

/-!
# Which log entries are shown

A filter is written as directives between commas. Of the directives that concern an entry, the
most specific one decides: the one with the longest target, then the one with the most fields.

Covers the filter of `init_logging`.

Out of scope: filters that change while the command runs.
-/

namespace LogShipper

/-- Directives, in order. -/
structure LogFilter where
  directives : List Directive
  deriving DecidableEq, Repr

namespace LogFilter

/-- The directives of a text between commas. -/
def written (s : String) : List String :=
  ((Destination.splitCommas s.toList).filter fun p => p != []).map String.ofList

/-- A filter of some directives; where there are none it shows errors. -/
def ofDirectives (ds : List Directive) : LogFilter :=
  if ds.any (·.concernsSpans) || ds.any (·.isPlain) then ⟨ds⟩ else ⟨[{ limit := some .error }]⟩

/-- The filter that a text stands for; the flaw of its first directive that cannot be read. -/
def parse (s : String) : Except Directive.Flaw LogFilter :=
  ((written s).mapM Directive.parse).map ofDirectives

/-- The directives that can be read, unless one is torn. -/
def readable? : List String → Option (List Directive)
  | [] => some []
  | s :: rest =>
    match Directive.parse s with
    | .ok d => (readable? rest).map (d :: ·)
    | .error .refused => readable? rest
    | .error .torn => none

/-- The filter of what can be read of a text, unless a directive is torn. -/
def ofReadable? (s : String) : Option LogFilter := (readable? (written s)).map ofDirectives

/-- The variable that holds a filter. -/
def variableName : String := "RUST_LOG"

/-- The filter of a command: that of the variable if it can be read, or a level for everything but
the pool's own library. There is none if a directive is torn. -/
def choose? (value : Option String) (level : String) : Option LogFilter :=
  let fallback := ofReadable? (level ++ ",r2d2=warn")
  match value with
  | none => fallback
  | some s =>
    match parse s with
    | .ok f => some f
    | .error .torn => none
    | .error .refused => fallback

/-- The more specific one of two directives, the later one if neither is. -/
def prevailing (best : Option Directive) (d : Directive) : Option Directive :=
  match best with
  | none => some d
  | some b => if b.yieldsTo d then some d else some b

/-- The directive that decides on an entry. -/
def decisive (f : LogFilter) (target : String) (fields : List String) : Option Directive :=
  (f.directives.filter fun d => d.isPlain && d.concerns target fields).foldl prevailing none

/-- Whether an entry is shown. -/
def shows (f : LogFilter) (level : Level) (target : String) (fields : List String) : Bool :=
  (f.decisive target fields).any (·.admits level)

/-- Whether an entry of the shipper's own log is shown. -/
def showsEntry (f : LogFilter) (e : LogEntry) : Bool :=
  f.shows e.level e.source.target ("message" :: e.fields.map (·.1))

end LogFilter

end LogShipper
