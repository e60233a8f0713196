/-!
Instants, delays, and the calendar's range. An instant is a whole number of nanoseconds, and adding
to one is checked: the calendar ends with the years -9999 and 9999.
-/

namespace Throttle

/-- An instant, in nanoseconds since the start of 1970 in UTC. -/
abbrev Moment := Int

/-- A length of time, in nanoseconds. -/
abbrev Delay := Nat

/-- Why an instant or a length of time could not be computed. -/
inductive Overflow where
  /-- An instant outside the calendar. -/
  | calendar
  /-- A delay times a count that is too long for a delay. -/
  | product
  /-- A sum of delays that is too long for a delay. -/
  | sum
  deriving DecidableEq, Repr

namespace Overflow

def message : Overflow → String
  | calendar => "resulting value is out of range"
  | product => "overflow when multiplying duration by scalar"
  | sum => "overflow when adding durations"

end Overflow

namespace Delay

def perSecond : Nat := 1000000000

def perMilli : Nat := 1000000

def ofSeconds (n : Nat) : Delay := n * perSecond

def ofMillis (n : Nat) : Delay := n * perMilli

/-- The whole seconds in a delay. -/
def seconds (d : Delay) : Nat := d / perSecond

/-- The nanoseconds beyond the whole seconds. -/
def nanos (d : Delay) : Nat := d % perSecond

/-- The whole seconds that cover a delay. -/
def secondsUp (d : Delay) : Nat := (d + (perSecond - 1)) / perSecond

/-- A delay holds fewer seconds than a 64-bit word can count. -/
def limit : Nat := UInt64.size * perSecond

/-- `n` times a delay. -/
def times (d : Delay) (n : Nat) : Except Overflow Delay :=
  if d * n < limit then .ok (d * n) else .error .product

/-- The sum of two delays. -/
def plus (d e : Delay) : Except Overflow Delay :=
  if d + e < limit then .ok (d + e) else .error .sum

end Delay

namespace Moment

/-- The first instant of the year -9999. -/
def first : Moment := -377705116800 * 1000000000

/-- The last instant of the year 9999. -/
def last : Moment := 253402300799 * 1000000000 + 999999999

/-- An instant that the calendar holds. -/
def InRange (t : Moment) : Prop := first ≤ t ∧ t ≤ last

instance (t : Moment) : Decidable (InRange t) := inferInstanceAs (Decidable (_ ∧ _))

def checked (t : Moment) : Except Overflow Moment :=
  if InRange t then .ok t else .error .calendar

/-- The instant `d` later. -/
def after (t : Moment) (d : Delay) : Except Overflow Moment :=
  checked (t + (d : Int))

/-- The instant `d` earlier. -/
def before (t : Moment) (d : Delay) : Except Overflow Moment :=
  checked (t - (d : Int))

/-- How long there is to wait from `now` until `due`: nothing once it has come. -/
def gap (now due : Moment) : Delay := (due - now).toNat

/-- The first whole millisecond that is not before an instant. -/
def ceilMilli (t : Moment) : Moment := -((-t) / 1000000) * 1000000

def ofMillis (n : Int) : Moment := n * 1000000

theorem checked_eq_ok_iff {t u : Moment} : checked t = .ok u ↔ InRange t ∧ t = u := by
  unfold checked
  split <;> simp_all

theorem after_eq_ok_iff {t u : Moment} {d : Delay} :
    after t d = .ok u ↔ InRange (t + (d : Int)) ∧ t + (d : Int) = u :=
  checked_eq_ok_iff

theorem after_of_not_inRange {t : Moment} {d : Delay} (h : ¬ InRange (t + (d : Int))) :
    after t d = .error .calendar :=
  if_neg h

end Moment

end Throttle
