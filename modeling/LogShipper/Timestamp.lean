import LogShipper.Text.Digits

/-!
# Points in time

A `Timestamp` counts seconds since the beginning of 1970, without leap seconds, and nanoseconds
within the second; a billion or more of these stand for the leap second that follows it. It is
written as a date and a time of day in the Gregorian calendar, with a `Z` for the zero meridian
and a fixed number of decimal places, the rest cut off.

Out of scope: other time zones, and reading a time.
-/

namespace LogShipper

/-- A day of the Gregorian calendar. -/
structure Date where
  year : Int
  month : Nat
  day : Nat
  deriving DecidableEq, Repr

namespace Date

/-- The days of 400 years. -/
def eraDays : Int := 146097

/-- The year and day within 400 years that begin on a first of March: years are counted from
March, so the day that a leap year adds is its last. -/
def yearOfEra (dayOfEra : Nat) : Nat :=
  (dayOfEra - dayOfEra / 1460 + dayOfEra / 36524 - dayOfEra / 146096) / 365

/-- The days before a year of 400 years. -/
def daysBefore (yearOfEra : Nat) : Nat := 365 * yearOfEra + yearOfEra / 4 - yearOfEra / 100

/-- The day so many days after the first of January 1970. -/
def ofDays (days : Int) : Date :=
  let fromMarch := days + 719468
  let era := fromMarch / eraDays
  let dayOfEra := (fromMarch % eraDays).toNat
  let year := yearOfEra dayOfEra
  let dayOfYear := dayOfEra - daysBefore year
  let month := (5 * dayOfYear + 2) / 153
  { year := year + era * 400 + (if 10 ≤ month then 1 else 0)
    month := if 10 ≤ month then month - 9 else month + 3
    day := dayOfYear - (153 * month + 2) / 5 + 1 }

/-- A year: four digits, or a sign and at least four. -/
def yearChars (year : Int) : List Char :=
  if 0 ≤ year ∧ year ≤ 9999 then Text.padded 4 year.toNat
  else (if year < 0 then '-' else '+') :: Text.padded 4 year.natAbs

/-- A day as year, month and day. -/
def chars (d : Date) : List Char :=
  yearChars d.year ++ '-' :: Text.padded 2 d.month ++ '-' :: Text.padded 2 d.day

end Date

/-- A point in time. -/
structure Timestamp where
  seconds : Int
  nanos : Nat
  deriving DecidableEq, Repr

namespace Timestamp

/-- The time of day; in a leap second the seconds are 60. -/
def clockChars (t : Timestamp) : List Char :=
  let second := (t.seconds % 86400).toNat
  Text.padded 2 (second / 3600) ++ ':' :: Text.padded 2 (second / 60 % 60) ++
    ':' :: Text.padded 2 (second % 60 + t.nanos / 1000000000)

/-- A point in time with so many decimal places, at most nine. -/
def text (places : Nat) (t : Timestamp) : String :=
  String.ofList ((Date.ofDays (t.seconds / 86400)).chars ++ 'T' :: t.clockChars ++
    '.' :: Text.padded places (t.nanos % 1000000000 / Nat.pow 10 (9 - places)) ++ ['Z'])

end Timestamp

end LogShipper
