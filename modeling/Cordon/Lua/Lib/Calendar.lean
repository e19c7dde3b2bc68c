import Cordon.Lua.Number.Decimal

/-!
# Calendar

Seconds since the start of 1970 as dates of the Gregorian calendar, and the other way round. The
time zone is UTC.
-/

namespace Cordon.Lua

/-- A moment by the calendar; months count from 1, week days from Sunday as 0, year days from 0. -/
structure Calendar where
  year : Int
  month : Nat
  day : Nat
  hour : Nat
  minute : Nat
  second : Nat
  weekDay : Nat
  yearDay : Nat

namespace Calendar

def secondsPerDay : Int := 86400

/-- Days from the start of 1970 to a date. Years are taken to begin in March, so that the leap day
is the last day of its year. -/
def daysOf (year : Int) (month : Nat) (day : Int) : Int :=
  let y := if month ≤ 2 then year - 1 else year
  let era := y.fdiv 400
  let yearOfEra := y - era * 400
  let m : Int := if month > 2 then month - 3 else month + 9
  let dayOfYear := (153 * m + 2) / 5 + day - 1
  era * 146097 + (yearOfEra * 365 + yearOfEra / 4 - yearOfEra / 100 + dayOfYear) - 719468

/-- The date that is this many days after the start of 1970: year, month, day. -/
def dateOf (days : Int) : Int × Nat × Nat :=
  let z := days + 719468
  let era := z.fdiv 146097
  let dayOfEra := z - era * 146097
  let yearOfEra :=
    (dayOfEra - dayOfEra / 1460 + dayOfEra / 36524 - dayOfEra / 146096) / 365
  let dayOfYear := dayOfEra - (365 * yearOfEra + yearOfEra / 4 - yearOfEra / 100)
  let m := (5 * dayOfYear + 2) / 153
  let day := dayOfYear - (153 * m + 2) / 5 + 1
  let month := if m < 10 then m + 3 else m - 9
  (yearOfEra + era * 400 + (if month ≤ 2 then 1 else 0), month.toNat, day.toNat)

def ofSeconds (t : Int) : Calendar :=
  let days := t.fdiv secondsPerDay
  let rest := (t - days * secondsPerDay).toNat
  let (year, month, day) := dateOf days
  { year, month, day
    hour := rest / 3600
    minute := rest / 60 % 60
    second := rest % 60
    weekDay := ((days + 4).fmod 7).toNat
    yearDay := (days - daysOf year 1 1).toNat }

/-- Seconds of a moment whose parts may lie outside their usual ranges. -/
def secondsOf (year month day hour minute second : Int) : Int :=
  let m := month - 1
  let days := daysOf (year + m.fdiv 12) ((m.fmod 12).toNat + 1) 1 + day - 1
  days * secondsPerDay + hour * 3600 + minute * 60 + second

def dayNames : List String :=
  ["Sunday", "Monday", "Tuesday", "Wednesday", "Thursday", "Friday", "Saturday"]

def monthNames : List String :=
  ["January", "February", "March", "April", "May", "June", "July", "August", "September", "October",
   "November", "December"]

def isLeap (year : Int) : Bool := year % 4 = 0 && (year % 100 ≠ 0 || year % 400 = 0)

def pad (width n : Nat) : String := String.ofList (Decimal.padded width n)

def padBlank (n : Nat) : String := if n < 10 then " " ++ toString n else toString n

def padInt (width : Nat) (n : Int) : String :=
  if n < 0 then "-" ++ pad (width - 1) n.natAbs else pad width n.natAbs

/-- The year and number of the week, which begins on Monday and belongs to the year that has its
Thursday. -/
def isoWeek (c : Calendar) : Int × Nat :=
  let monday : Int := ((c.weekDay : Int) + 6) % 7
  let week := ((c.yearDay : Int) - monday + 10) / 7
  let weeks (year : Int) : Int :=
    let start := (daysOf year 1 1 + 3).fmod 7
    if start = 3 || (start = 2 && isLeap year) then 53 else 52
  if week < 1 then (c.year - 1, (weeks (c.year - 1)).toNat)
  else if week > weeks c.year then (c.year + 1, 1)
  else (c.year, week.toNat)

def hour12 (c : Calendar) : Nat := if c.hour % 12 = 0 then 12 else c.hour % 12

def dayName (c : Calendar) : String := dayNames.getD c.weekDay "?"

def monthName (c : Calendar) : String := monthNames.getD (c.month - 1) "?"

def short (s : String) : String := String.ofList (s.toList.take 3)

def time (c : Calendar) : String := pad 2 c.hour ++ ":" ++ pad 2 c.minute ++ ":" ++ pad 2 c.second

def american (c : Calendar) : String :=
  pad 2 c.month ++ "/" ++ pad 2 c.day ++ "/" ++ padInt 2 (c.year.fmod 100)

def full (c : Calendar) : String :=
  short c.dayName ++ " " ++ short c.monthName ++ " " ++ padBlank c.day ++ " " ++ c.time ++ " " ++
    toString c.year

/-- What a conversion letter stands for; `none` if it stands for nothing. -/
def convert? (c : Calendar) : Char → Option String
  | 'a' => short c.dayName
  | 'A' => c.dayName
  | 'b' => short c.monthName
  | 'B' => c.monthName
  | 'c' => c.full
  | 'C' => padInt 2 (c.year.fdiv 100)
  | 'd' => pad 2 c.day
  | 'D' => c.american
  | 'e' => padBlank c.day
  | 'F' => toString c.year ++ "-" ++ pad 2 c.month ++ "-" ++ pad 2 c.day
  | 'g' => padInt 2 (c.isoWeek.1.fmod 100)
  | 'G' => toString c.isoWeek.1
  | 'h' => short c.monthName
  | 'H' => pad 2 c.hour
  | 'I' => pad 2 c.hour12
  | 'j' => pad 3 (c.yearDay + 1)
  | 'm' => pad 2 c.month
  | 'M' => pad 2 c.minute
  | 'n' => "\n"
  | 'p' => if c.hour < 12 then "AM" else "PM"
  | 'r' => pad 2 c.hour12 ++ ":" ++ pad 2 c.minute ++ ":" ++ pad 2 c.second ++
      (if c.hour < 12 then " AM" else " PM")
  | 'R' => pad 2 c.hour ++ ":" ++ pad 2 c.minute
  | 'S' => pad 2 c.second
  | 't' => "\t"
  | 'T' => c.time
  | 'u' => toString (if c.weekDay = 0 then 7 else c.weekDay)
  | 'U' => pad 2 ((c.yearDay + 7 - c.weekDay) / 7)
  | 'V' => pad 2 c.isoWeek.2
  | 'w' => toString c.weekDay
  | 'W' => pad 2 ((c.yearDay + 7 - (c.weekDay + 6) % 7) / 7)
  | 'x' => c.american
  | 'X' => c.time
  | 'y' => padInt 2 (c.year.fmod 100)
  | 'Y' => toString c.year
  | 'z' => "+0000"
  | 'Z' => "GMT"
  | '%' => "%"
  | _ => none

/-- The letters that may follow a modifier letter, which changes nothing here. -/
def modified (modifier letter : Char) : Bool :=
  (modifier = 'E' && ['c', 'C', 'x', 'X', 'y', 'Y'].contains letter) ||
    (modifier = 'O' && "deHImMSuUVwWy".toList.contains letter)

/-- Fills in the conversions of a format; the rest of the format if one is not valid. -/
def format (c : Calendar) : List Char → Except (List Char) (List Char)
  | [] => .ok []
  | '%' :: m :: l :: rest =>
    if modified m l then
      (c.format rest).map fun r => ((c.convert? l).getD "").toList ++ r
    else
      match c.convert? m with
      | some s => (c.format (l :: rest)).map (s.toList ++ ·)
      | none => .error (m :: l :: rest)
  | ['%', m] =>
    match c.convert? m with
    | some s => .ok s.toList
    | none => .error [m]
  | ['%'] => .error []
  | x :: rest => (c.format rest).map (x :: ·)

end Calendar

end Cordon.Lua
