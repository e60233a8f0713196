import Throttle.Text.Numeral
import Throttle.Time.Moment

/-!
The Gregorian calendar. Days are counted from the start of 1970; `Date.ofDay` and `Date.day` lead
from a day to its date and back.
-/

namespace Throttle

/-- A date of the Gregorian calendar, which reaches back before its introduction. -/
structure Date where
  year : Int
  month : Nat
  day : Nat
  deriving DecidableEq, Repr

namespace Date

def isLeap (year : Int) : Bool :=
  year % 4 == 0 && (year % 100 != 0 || year % 400 == 0)

/-- The days of each month. -/
def monthLengths (leap : Bool) : List Nat :=
  [31, if leap then 29 else 28, 31, 30, 31, 30, 31, 31, 30, 31, 30, 31]

/-- The days of one month, none if there is no such month. -/
def monthLength (year : Int) (month : Nat) : Nat :=
  match month with
  | 0 => 0
  | m + 1 => ((monthLengths (isLeap year))[m]?).getD 0

/-- A date that the calendar has. -/
def Valid (d : Date) : Prop :=
  1 ≤ d.month ∧ d.month ≤ 12 ∧ 1 ≤ d.day ∧ d.day ≤ monthLength d.year d.month

instance (d : Date) : Decidable d.Valid := inferInstanceAs (Decidable (_ ∧ _ ∧ _ ∧ _))

/-- The days from the start of the year 1 to the start of a year. -/
def daysBeforeYear (year : Int) : Int :=
  let y := year - 1
  365 * y + y / 4 - y / 100 + y / 400

/-- The days from the start of the year 1 to the start of 1970. -/
def epoch : Int := 719162

/-- The days before a month that so many months come before. -/
def daysBeforeMonth : List Nat → Nat → Nat
  | _, 0 => 0
  | [], _ => 0
  | l :: ls, m + 1 => l + daysBeforeMonth ls m

/-- The number of a date's day, counted from the start of 1970. -/
def dayNumber (d : Date) : Int :=
  let before : Nat := daysBeforeMonth (monthLengths (isLeap d.year)) (d.month - 1)
  daysBeforeYear d.year - epoch + before + ((d.day : Int) - 1)

/-- The year of a day counted from the start of the year 1; the mean year gives it up to one. -/
def yearOfDay (n : Int) : Int :=
  let y := 400 * n / 146097 + 1
  if n < daysBeforeYear y then y - 1
  else if daysBeforeYear (y + 1) ≤ n then y + 1
  else y

/-- The month and the day of the month, given the months' lengths and the day of the year. -/
def monthAndDay (month : Nat) : List Nat → Nat → Nat × Nat
  | [], n => (month, n + 1)
  | l :: ls, n => if n < l then (month, n + 1) else monthAndDay (month + 1) ls (n - l)

/-- The date of a day counted from the start of 1970. -/
def ofDayNumber (n : Int) : Date :=
  let n := n + epoch
  let year := yearOfDay n
  let (month, day) := monthAndDay 1 (monthLengths (isLeap year)) (n - daysBeforeYear year).toNat
  ⟨year, month, day⟩

/-- The written form `2025-06-01`. -/
def chars (d : Date) : List Char :=
  let year :=
    if d.year < 0 then '-' :: Text.padded 4 d.year.natAbs else Text.padded 4 d.year.natAbs
  year ++ '-' :: Text.padded 2 d.month ++ '-' :: Text.padded 2 d.day

end Date

/-- A time of day. -/
structure TimeOfDay where
  hour : Nat
  minute : Nat
  second : Nat
  nanos : Nat
  deriving DecidableEq, Repr

namespace TimeOfDay

/-- Nanoseconds since midnight. -/
def sinceMidnight (t : TimeOfDay) : Nat :=
  ((t.hour * 60 + t.minute) * 60 + t.second) * 1000000000 + t.nanos

def ofSinceMidnight (n : Nat) : TimeOfDay :=
  let s := n / 1000000000
  ⟨s / 3600, s / 60 % 60, s % 60, n % 1000000000⟩

end TimeOfDay

/-- Nanoseconds in a day. -/
def perDay : Nat := 86400 * 1000000000

/-- The instant of a date and a time of day in UTC. -/
def Moment.ofDate (d : Date) (t : TimeOfDay) : Moment :=
  d.dayNumber * perDay + t.sinceMidnight

/-- The date of an instant in UTC. -/
def Moment.date (t : Moment) : Date := Date.ofDayNumber (t / perDay)

/-- The time of day of an instant in UTC. -/
def Moment.timeOfDay (t : Moment) : TimeOfDay :=
  TimeOfDay.ofSinceMidnight (t % perDay).toNat

/-- The digits of a fraction of a second, without trailing zeros but at least one. -/
def fraction (nanos : Nat) : List Char :=
  match ((Text.padded 9 nanos).reverse.dropWhile (· == '0')).reverse with
  | [] => ['0']
  | ds => ds

/-- The written form `2025-06-01 12:01:14.09 +00:00:00`. -/
def Moment.render (t : Moment) : String :=
  let c := t.timeOfDay
  String.ofList
    (t.date.chars ++ ' ' :: Text.decimal c.hour ++ ':' :: Text.padded 2 c.minute ++
      ':' :: Text.padded 2 c.second ++ '.' :: fraction c.nanos) ++ " +00:00:00"

/-- A count of units with the rest as decimals, as in `8.2`. -/
def decimals (whole rest width : Nat) : String :=
  let ds := ((Text.padded width rest).reverse.dropWhile (· == '0')).reverse
  let tail := if rest == 0 then [] else '.' :: ds
  String.ofList (Text.decimal whole ++ tail)

/-- The written form of a delay in its largest unit: `8.2s`, `250ms`, `1.5µs` or `0ns`. -/
def Delay.render (d : Delay) : String :=
  if d.seconds > 0 then decimals d.seconds d.nanos 9 ++ "s"
  else if d ≥ 1000000 then decimals (d / 1000000) (d % 1000000) 6 ++ "ms"
  else if d ≥ 1000 then decimals (d / 1000) (d % 1000) 3 ++ "µs"
  else decimals d 0 0 ++ "ns"

end Throttle
