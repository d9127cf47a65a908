/-! Points in time, as the calendar and the clock name them. -/
namespace Clearance

/-- A point in time, with the distance from universal time in minutes if known. -/
structure Moment where
  year : Nat
  month : Nat
  day : Nat
  hour : Nat
  minute : Nat
  second : Nat
  microsecond : Nat
  offset : Option Int
deriving DecidableEq

/-- A number with at least so many digits. -/
def padded (width n : Nat) : String :=
  let ds := Nat.toDigits 10 n
  String.ofList (List.replicate (width - ds.length) '0' ++ ds)

namespace Moment

/-! ## The calendar -/

/-- The number of days in front of a year of the calendar. -/
def daysBeforeYear (year : Nat) : Int :=
  let y : Int := (year : Int) - 1
  y * 365 + y.fdiv 4 - y.fdiv 100 + y.fdiv 400

/-- The number of days of a month. -/
def daysIn (year month : Nat) : Nat :=
  if month = 2 then
    if year % 4 = 0 && (year % 100 != 0 || year % 400 = 0) then 29 else 28
  else if [4, 6, 9, 11].contains month then 30
  else 31

/-- The number of days of a year in front of a month. -/
def daysBeforeMonth (year month : Nat) : Nat :=
  (((List.range month).drop 1).map (daysIn year)).foldl (· + ·) 0

/-- Whether a day exists. -/
def isDay (year month day : Nat) : Bool :=
  1 ≤ year && 1 ≤ month && month ≤ 12 && 1 ≤ day && day ≤ daysIn year month

/-- The time since the calendar began, in microseconds of universal time when
the zone is known, else of the local clock. -/
def instant (m : Moment) : Int :=
  let days := daysBeforeYear m.year + daysBeforeMonth m.year m.month + m.day
  let minutes := (days * 24 + m.hour) * 60 + m.minute - m.offset.getD 0
  (minutes * 60 + m.second) * 1000000 + m.microsecond

/-- Whether two moments are the same instant. -/
def same (a b : Moment) : Bool :=
  a.offset.isSome == b.offset.isSome && a.instant == b.instant

/-! ## Text -/

/-- Hours and minutes of a distance from universal time. -/
def offsetText (minutes : Int) : String :=
  (if minutes < 0 then "-" else "+") ++ padded 2 (minutes.natAbs / 60) ++ ":" ++
    padded 2 (minutes.natAbs % 60)

/-- Date and time with a space between them. -/
def plain (m : Moment) : String :=
  padded 4 m.year ++ "-" ++ padded 2 m.month ++ "-" ++ padded 2 m.day ++ " " ++
    padded 2 m.hour ++ ":" ++ padded 2 m.minute ++ ":" ++ padded 2 m.second ++
    (if m.microsecond = 0 then "" else "." ++ padded 6 m.microsecond) ++
    match m.offset with
    | none => ""
    | some minutes => offsetText minutes

/-- The zone part of a quoted moment. -/
def zoneText (minutes : Int) : String :=
  if minutes = 0 then "datetime.timezone.utc"
  else if 0 ≤ minutes then
    "datetime.timezone(datetime.timedelta(seconds=" ++ toString (minutes * 60) ++ "))"
  else
    "datetime.timezone(datetime.timedelta(days=-1, seconds=" ++
      toString (minutes * 60 + 86400) ++ "))"

/-- A quoted moment leaves out seconds and microseconds at its end that are zero. -/
def quoted (m : Moment) : String :=
  let parts := [m.year, m.month, m.day, m.hour, m.minute, m.second, m.microsecond]
  let kept :=
    if m.microsecond = 0 then if m.second = 0 then parts.take 5 else parts.take 6 else parts
  "datetime.datetime(" ++ ", ".intercalate (kept.map toString) ++
    (match m.offset with
    | none => ""
    | some minutes => ", tzinfo=" ++ zoneText minutes) ++ ")"

end Moment

end Clearance
