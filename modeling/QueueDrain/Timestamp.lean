import QueueDrain.Text.Decimal

/-!
# Timestamps

Instants of universal time as seconds since 1970 and nanoseconds, with leap seconds as a second that
is counted twice: its nanoseconds run on from a thousand million. Leap seconds end minutes, and an
instant that is made of its parts keeps to that; one whose nanoseconds are replaced need not. Dates
are those of the Gregorian calendar, extended to all years.

## Main definitions

* `CivilDate`, `CivilDate.ofDays` — the date of a day
* `Timestamp`, `Timestamp.ofParts?`, `Timestamp.withNanos?` — an instant
* `Timestamp.text` — its text, with as many digits of the second as it takes
* `Timestamp.nanosSince` — the time between two instants
-/

namespace QueueDrain

/-! ### Dates -/

/-- A date of the Gregorian calendar. -/
structure CivilDate where
  year : Int
  month : Nat
  day : Nat
deriving DecidableEq, Repr

namespace CivilDate

/-- Days from the first of March of the year zero to the first of January 1970. -/
def epochOffset : Int := 719468

/-- Days in four hundred years. -/
def daysPerEra : Nat := 146097

/-- The year, counted from March, of a day of four hundred years. -/
def yearOfEra (day : Nat) : Nat := (day - day / 1460 + day / 36524 - day / 146096) / 365

/-- Days of four hundred years before a year, counted from March. -/
def daysBeforeYear (year : Nat) : Nat := 365 * year + year / 4 - year / 100

/-- The month, counted from March, of a day of a year that begins in March. -/
def monthOfYear (day : Nat) : Nat := (5 * day + 2) / 153

/-- Days of a year that begins in March before a month. -/
def daysBeforeMonth (month : Nat) : Nat := (153 * month + 2) / 5

/-- The date of a day, counted from the first of January 1970. -/
def ofDays (days : Int) : CivilDate :=
  let shifted := days + epochOffset
  let era := shifted / daysPerEra
  let dayOfEra := (shifted % daysPerEra).toNat
  let year := yearOfEra dayOfEra
  let dayOfYear := dayOfEra - daysBeforeYear year
  let month := monthOfYear dayOfYear
  let isNextYear := 10 ≤ month
  { year := era * 400 + year + (if isNextYear then 1 else 0)
    month := if isNextYear then month - 9 else month + 3
    day := dayOfYear - daysBeforeMonth month + 1 }

/-- A year: four digits, and a sign if four digits do not do. -/
def yearText (year : Int) : List Char :=
  if 0 ≤ year ∧ year ≤ 9999 then Decimal.padded 4 year.toNat
  else (if year < 0 then '-' else '+') :: Decimal.padded 4 year.natAbs

/-- Year, month and day. -/
def text (d : CivilDate) : List Char :=
  yearText d.year ++ ['-'] ++ Decimal.padded 2 d.month ++ ['-'] ++ Decimal.padded 2 d.day

end CivilDate

/-! ### Instants -/

/-- An instant of universal time. -/
@[ext]
structure Timestamp where
  /-- Seconds since 1970. -/
  secs : Int
  /-- Nanoseconds of the second. A thousand million and more are a leap second. -/
  nanos : Nat
  secs_ge : -8334601228800 ≤ secs
  secs_le : secs ≤ 8210266876799
  nanos_lt : nanos < 2000000000
deriving DecidableEq, Repr

namespace Timestamp

/-- The instant of two parts, if there is one. A leap second has to end a minute. -/
def ofParts? (secs : Int) (nanos : Nat) : Option Timestamp :=
  if h : -8334601228800 ≤ secs ∧ secs ≤ 8210266876799 ∧ nanos < 2000000000
      ∧ (nanos < 1000000000 ∨ secs % 60 = 59) then
    some ⟨secs, nanos, h.1, h.2.1, h.2.2.1⟩
  else none

/-- The instant with other nanoseconds. They may make a leap second of any second. -/
def withNanos? (t : Timestamp) (nanos : Nat) : Option Timestamp :=
  if h : nanos < 2000000000 then some { t with nanos := nanos, nanos_lt := h } else none

/-- The beginning of 1970. -/
def epoch : Timestamp := ⟨0, 0, by decide, by decide, by decide⟩

/-- The day, counted from the first of January 1970. -/
def day (t : Timestamp) : Int := t.secs / 86400

/-- Seconds since midnight. -/
def secondOfDay (t : Timestamp) : Nat := (t.secs % 86400).toNat

/-- Whether this is a leap second. -/
def isLeap (t : Timestamp) : Bool := 1000000000 ≤ t.nanos

/-! ### Text -/

/-- The fraction of a second: none, or three, six or nine digits, the fewest that are exact. -/
def fractionText (nanos : Nat) : List Char :=
  if nanos = 0 then []
  else if nanos % 1000000 = 0 then '.' :: Decimal.padded 3 (nanos / 1000000)
  else if nanos % 1000 = 0 then '.' :: Decimal.padded 6 (nanos / 1000)
  else '.' :: Decimal.padded 9 nanos

/-- The time of day. A leap second has the number behind that of its second: sixty, if it ends a
minute. -/
def timeText (t : Timestamp) : List Char :=
  let s := t.secondOfDay
  let second := if t.isLeap then s % 60 + 1 else s % 60
  Decimal.padded 2 (s / 3600) ++ [':'] ++ Decimal.padded 2 (s / 60 % 60) ++ [':']
    ++ Decimal.padded 2 second ++ fractionText (t.nanos % 1000000000)

/-- Date and time of day in universal time. -/
def text (t : Timestamp) : List Char :=
  (CivilDate.ofDays t.day).text ++ ['T'] ++ t.timeText ++ ['Z']

/-! ### Differences -/

/-- Nanoseconds from `a` to `b`. A leap second takes time only if the other instant has a later time
of day: then the second after it is counted as well. -/
def nanosSince (b a : Timestamp) : Int :=
  let leaps : Int :=
    if a.secondOfDay < b.secondOfDay ∧ a.isLeap then 1
    else if b.secondOfDay < a.secondOfDay ∧ b.isLeap then -1
    else 0
  (b.secs - a.secs + leaps) * 1000000000 + ((b.nanos : Int) - a.nanos)

end Timestamp

end QueueDrain
