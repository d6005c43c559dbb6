import ChipSupport.Text.Quoted

/-!
# Days and moments

Days of the calendar, moments of a day, and distances from world time.  Not all numbers make up a
day or a moment; the first one that does not fit is reported.

## Main definitions

* `Date`, `Moment` — days, and moments of a day, possibly with a distance from world time.
* `Date.problem?`, `Moment.problem?` — what is wrong with numbers.
* `Date.ordinal`, `Moment.instant` — the day and the microsecond in one count.
* `Date.plain`, `Moment.plain`, `Date.quoted`, `Moment.quoted` — how they are shown.
-/

namespace ChipSupport

/-- A day of the calendar. -/
structure Date where
  /-- The year. -/
  year : Nat
  /-- The month, from one. -/
  month : Nat
  /-- The day of the month. -/
  day : Nat
  deriving DecidableEq, Repr, Inhabited

/-- What is wrong with numbers that should make up a moment. -/
inductive DateProblem where
  /-- A year before the first one. -/
  | year (year : Nat)
  /-- A month that no year has. -/
  | month
  /-- A day that its month has not. -/
  | day
  /-- An hour that no day has. -/
  | hour
  /-- A minute that no hour has. -/
  | minute
  /-- A second that no minute has. -/
  | second
  /-- A day or more as the distance from world time, in minutes. -/
  | offset (minutes : Int)
  deriving DecidableEq, Repr, Inhabited

/-- Numbers between parentheses after a name. -/
def called (name : String) (parts : List String) : String :=
  "datetime." ++ name ++ "(" ++ String.intercalate ", " parts ++ ")"

/-- A span of minutes as days and a rest of seconds that is not negative. -/
def shownSpan (minutes : Int) : String :=
  let days := Int.fdiv minutes 1440
  let seconds := Int.fmod minutes 1440 * 60
  let part (name : String) (n : Int) := if n = 0 then [] else [name ++ "=" ++ Numeral.decimal n]
  let parts := part "days" days ++ part "seconds" seconds
  called "timedelta" (if parts.isEmpty then ["0"] else parts)

/-- The report of a problem. -/
def DateProblem.message : DateProblem → String
  | year y => "year " ++ Numeral.natural y ++ " is out of range"
  | month => "month must be in 1..12"
  | day => "day is out of range for month"
  | hour => "hour must be in 0..23"
  | minute => "minute must be in 0..59"
  | second => "second must be in 0..59"
  | offset minutes =>
    "offset must be a timedelta strictly between -timedelta(hours=24) and timedelta(hours=24), not "
      ++ shownSpan minutes ++ "."

namespace Date

/-- Whether a year has a leap day. -/
def isLeap (year : Nat) : Bool := year % 4 == 0 && (year % 100 != 0 || year % 400 == 0)

/-- The number of days of a month. -/
def monthLength (year month : Nat) : Nat :=
  if month = 2 then if isLeap year then 29 else 28
  else if [4, 6, 9, 11].contains month then 30 else 31

/-- What is wrong with a day. -/
def problem? (d : Date) : Option DateProblem :=
  if d.year = 0 then some (.year d.year)
  else if d.month < 1 ∨ 12 < d.month then some .month
  else if d.day < 1 ∨ monthLength d.year d.month < d.day then some .day
  else none

/-- The number of a day, counted from the first day of the first year. -/
def ordinal (d : Date) : Nat :=
  let years := d.year - 1
  let months := (List.range (d.month - 1)).map fun m => monthLength d.year (m + 1)
  years * 365 + years / 4 - years / 100 + years / 400 + months.foldl (· + ·) 0 + d.day

/-- The day after a day; none after the last day that has a number. -/
def next? (d : Date) : Option Date :=
  if d.day < monthLength d.year d.month then some { d with day := d.day + 1 }
  else if d.month < 12 then some { d with month := d.month + 1, day := 1 }
  else if d.year < 9999 then some ⟨d.year + 1, 1, 1⟩
  else none

/-- The short names of the months. -/
def monthNames : List String :=
  ["Jan", "Feb", "Mar", "Apr", "May", "Jun", "Jul", "Aug", "Sep", "Oct", "Nov", "Dec"]

/-- A number filled to a width. -/
def filled (n width : Nat) : String :=
  Numeral.fill '0' (Numeral.natural n).length width ++ Numeral.natural n

/-- A day as two digits, the month's short name and the year. -/
def render (d : Date) : String :=
  filled d.day 2 ++ " " ++ (monthNames[d.month - 1]?).getD "" ++ " " ++ Numeral.natural d.year

/-- A day from the year to the day. -/
def plain (d : Date) : String := filled d.year 4 ++ "-" ++ filled d.month 2 ++ "-" ++ filled d.day 2

/-- A day as it is shown in a message. -/
def quoted (d : Date) : String := called "date" ([d.year, d.month, d.day].map Numeral.natural)

end Date

/-- A distance from world time. -/
structure Zone where
  /-- The distance in minutes. -/
  offset : Int
  /-- The spelling of the distance. -/
  name : String
  deriving DecidableEq, Repr, Inhabited

/-- A moment of a day. -/
structure Moment where
  /-- The day. -/
  date : Date
  /-- The hour. -/
  hour : Nat := 0
  /-- The minute. -/
  minute : Nat := 0
  /-- The second. -/
  second : Nat := 0
  /-- The microsecond. -/
  micro : Nat := 0
  /-- The distance from world time, if it is known. -/
  zone : Option Zone := none
  deriving DecidableEq, Repr, Inhabited

namespace Moment

/-- What is wrong with a moment. -/
def problem? (m : Moment) : Option DateProblem :=
  let far := m.zone.bind fun z =>
    if 1440 ≤ z.offset.natAbs then some (DateProblem.offset z.offset) else none
  far.orElse fun _ =>
    m.date.problem?.orElse fun _ =>
      if 24 ≤ m.hour then some .hour
      else if 60 ≤ m.minute then some .minute
      else if 60 ≤ m.second then some .second
      else none

/-- The moment a second later; none after the last second of all. -/
def next? (m : Moment) : Option Moment :=
  if m.second + 1 < 60 then some { m with second := m.second + 1 }
  else if m.minute + 1 < 60 then some { m with second := 0, minute := m.minute + 1 }
  else if m.hour + 1 < 24 then some { m with second := 0, minute := 0, hour := m.hour + 1 }
  else m.date.next?.map fun date => { m with date, second := 0, minute := 0, hour := 0 }

/-- The microsecond of a moment in world time, or in its own if the distance is not known. -/
def instant (m : Moment) : Int :=
  let minutes : Int := (m.date.ordinal * 1440 + m.hour * 60 + m.minute : Nat)
  let offset := (m.zone.map Zone.offset).getD 0
  ((minutes - offset) * 60 + (m.second : Int)) * 1000000 + (m.micro : Int)

/-- Whether two moments are the same.  Without a distance from world time a moment is never the same
as one with it. -/
def same (a b : Moment) : Bool := a.zone.isSome == b.zone.isSome && a.instant == b.instant

/-- A distance from world time as hours and minutes. -/
def shownOffset (minutes : Int) : String :=
  (if minutes < 0 then "-" else "+") ++ Date.filled (minutes.natAbs / 60) 2 ++ ":"
    ++ Date.filled (minutes.natAbs % 60) 2

/-- A moment from the year to the distance from world time. -/
def plain (m : Moment) : String :=
  m.date.plain ++ " " ++ Date.filled m.hour 2 ++ ":" ++ Date.filled m.minute 2 ++ ":"
    ++ Date.filled m.second 2 ++ (if m.micro = 0 then "" else "." ++ Date.filled m.micro 6)
    ++ (m.zone.map fun z => shownOffset z.offset).getD ""

/-- A moment as it is shown in a message: without the second and microsecond if they are zero. -/
def quoted (m : Moment) : String :=
  let fine := if m.micro ≠ 0 then [m.second, m.micro] else if m.second ≠ 0 then [m.second] else []
  let numbers := [m.date.year, m.date.month, m.date.day, m.hour, m.minute] ++ fine
  let zone := m.zone.map fun z =>
    "tzinfo=" ++ called "timezone" [shownSpan z.offset, Text.quoted z.name]
  called "datetime" (numbers.map Numeral.natural ++ zone.toList)

end Moment

end ChipSupport
