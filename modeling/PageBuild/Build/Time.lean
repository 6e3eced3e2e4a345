/-!
# Time

Spans of time, points in time since 1970, and the form in which narration shows these: a date of the
Gregorian calendar and a time of day, without a time zone.
-/
namespace PageBuild

/-! ## Durations -/

/-- A span of time. -/
structure Duration where
  /-- The whole seconds. -/
  seconds : UInt64
  /-- The nanoseconds beyond them. -/
  nanoseconds : Nat
  nanoseconds_lt : nanoseconds < 1000000000
  deriving DecidableEq, Repr

namespace Duration

/-- A whole number of seconds. -/
def ofSeconds (seconds : UInt64) : Duration := ⟨seconds, 0, by decide⟩

/-- A whole number of milliseconds. -/
def ofMilliseconds (milliseconds : Nat) : Duration :=
  ⟨(milliseconds / 1000).toUInt64, milliseconds % 1000 * 1000000, by omega⟩

/-- The whole milliseconds. -/
def milliseconds (duration : Duration) : Nat :=
  duration.seconds.toNat * 1000 + duration.nanoseconds / 1000000

/-- The whole seconds as text. -/
def secondsText (duration : Duration) : String := toString duration.seconds.toNat ++ "s"

end Duration

/-! ## Moments -/

/-- A point in time. -/
structure Moment where
  /-- The milliseconds since 1970. -/
  milliseconds : Nat
  deriving DecidableEq, Repr, Inhabited

namespace Moment

/-- A date of the calendar. -/
structure Date where
  year : Nat
  month : Nat
  day : Nat
  deriving DecidableEq, Repr

/-- The date of a day counted from 1970. Years are taken to begin in March, so that the day that a
leap year adds is its last one; 146097 days make four centuries. -/
def dateOfDay (day : Nat) : Date :=
  let shifted := day + 719468
  let inEra := shifted % 146097
  let yearOfEra := (inEra - inEra / 1460 + inEra / 36524 - inEra / 146096) / 365
  let dayOfYear := inEra - (365 * yearOfEra + yearOfEra / 4 - yearOfEra / 100)
  let fromMarch := (5 * dayOfYear + 2) / 153
  let month := if fromMarch < 10 then fromMarch + 3 else fromMarch - 9
  let year := shifted / 146097 * 400 + yearOfEra
  ⟨if month ≤ 2 then year + 1 else year, month, dayOfYear - (153 * fromMarch + 2) / 5 + 1⟩

/-- A number with at least so many digits. -/
def padded (digits number : Nat) : String :=
  let text := toString number
  String.ofList (List.replicate (digits - text.length) '0') ++ text

/-- A moment as narration shows it. -/
def stamp (moment : Moment) : String :=
  let date := dateOfDay (moment.milliseconds / 86400000)
  let time := moment.milliseconds % 86400000
  padded 4 date.year ++ "-" ++ padded 2 date.month ++ "-" ++ padded 2 date.day ++ "T" ++
    padded 2 (time / 3600000) ++ ":" ++ padded 2 (time / 60000 % 60) ++ ":" ++
    padded 2 (time / 1000 % 60) ++ "." ++ padded 6 (time % 1000 * 1000)

/-- The moment so many milliseconds later. -/
def after (moment : Moment) (milliseconds : Nat) : Moment :=
  ⟨moment.milliseconds + milliseconds⟩

end Moment

end PageBuild
