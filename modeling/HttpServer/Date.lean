import HttpServer.Text.Number

/-!
# Dates in header fields

An instant is a number of seconds since the beginning of 1970, before which it is negative, and a part of
the next second.  A header shows the second with its weekday in Greenwich time,
`Sun, 06 Nov 1994 08:49:37 GMT`, and the part is lost.  The form has four digits for the year and no sign,
so only the instants from 1970 up to the end of 9999 can be written.
-/

namespace HttpServer

/-- A point in time. -/
structure Instant where
  /-- How many seconds have passed since the beginning of 1970. -/
  second : Int
  /-- How much of the next second has passed, in billionths. -/
  part : Nat := 0
  part_lt : part < 1000000000 := by decide
  deriving DecidableEq, Repr

/-- The beginning of a second. -/
def Instant.ofSeconds (second : Int) : Instant :=
  { second }

/-- A day of the proleptic Gregorian calendar. -/
structure CivilDay where
  year : Nat
  month : Nat
  day : Nat
  deriving DecidableEq, Repr

/-- The calendar day that is `days` days after the first of January 1970.  Years are counted from the first
of March in cycles of 400 years, so that a leap day is the last day of its year. -/
def CivilDay.ofDays (days : Nat) : CivilDay :=
  let shifted := days + 719468
  let cycle := shifted / 146097
  let dayOfCycle := shifted % 146097
  let yearOfCycle := (dayOfCycle - dayOfCycle / 1460 + dayOfCycle / 36524 - dayOfCycle / 146096) / 365
  let dayOfYear := dayOfCycle - (365 * yearOfCycle + yearOfCycle / 4 - yearOfCycle / 100)
  let monthOfYear := (5 * dayOfYear + 2) / 153
  let month := if monthOfYear < 10 then monthOfYear + 3 else monthOfYear - 9
  { year := yearOfCycle + cycle * 400 + (if month ≤ 2 then 1 else 0)
    month
    day := dayOfYear - (153 * monthOfYear + 2) / 5 + 1 }

/-- Short names of the weekdays; the first of January 1970 was a Thursday. -/
def weekdayName (days : Nat) : String :=
  match days % 7 with
  | 0 => "Thu"
  | 1 => "Fri"
  | 2 => "Sat"
  | 3 => "Sun"
  | 4 => "Mon"
  | 5 => "Tue"
  | _ => "Wed"

/-- Short names of the months, January being the first. -/
def monthName : Nat → String
  | 1 => "Jan"
  | 2 => "Feb"
  | 3 => "Mar"
  | 4 => "Apr"
  | 5 => "May"
  | 6 => "Jun"
  | 7 => "Jul"
  | 8 => "Aug"
  | 9 => "Sep"
  | 10 => "Oct"
  | 11 => "Nov"
  | _ => "Dec"

/-- A number with at least two digits. -/
def twoDigits (n : Nat) : String :=
  if n < 10 then "0" ++ String.ofList (decimal n) else String.ofList (decimal n)

/-- The first second that cannot be written any more: the beginning of the year 10000. -/
def dateEnd : Int := 253402300800

/-- The text of a second; `none` before 1970 and after 9999. -/
def dateText? (seconds : Int) : Option String :=
  if seconds < 0 ∨ dateEnd ≤ seconds then none
  else
    let seconds := seconds.toNat
    let days := seconds / 86400
    let clock := seconds % 86400
    let date := CivilDay.ofDays days
    some (weekdayName days ++ ", " ++ twoDigits date.day ++ " " ++ monthName date.month ++ " " ++
      String.ofList (decimal date.year) ++ " " ++ twoDigits (clock / 3600) ++ ":" ++
      twoDigits (clock / 60 % 60) ++ ":" ++ twoDigits (clock % 60) ++ " GMT")

end HttpServer
