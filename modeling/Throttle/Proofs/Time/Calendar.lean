import Throttle.Time.Calendar

/-!
  Instants as dates. Each day has a date that the calendar has, and the number of that date is the day
  again (`Date.valid_ofDayNumber`, `Date.dayNumber_ofDayNumber`); so an instant is the one of its date
  and its time of day (`Moment.ofDate_date_timeOfDay`). The year is estimated by the mean length of a
  year, which is off by one at most, and the months are taken off one by one.
-/

namespace Throttle

namespace Date

variable {n : Int}

/-! ## Years -/

theorem isLeap_iff {year : Int} :
    isLeap year = true ↔ year % 4 = 0 ∧ (year % 100 ≠ 0 ∨ year % 400 = 0) := by
  simp [isLeap]

/-- A year has 365 days, a leap year one more. -/
theorem daysBeforeYear_succ (year : Int) :
    daysBeforeYear (year + 1) = daysBeforeYear year + 365 + if isLeap year then 1 else 0 := by
  simp only [daysBeforeYear]
  by_cases hleap : isLeap year = true
  · rw [if_pos hleap]
    rw [isLeap_iff] at hleap
    omega
  · rw [if_neg hleap]
    rw [isLeap_iff] at hleap
    omega

/-- A day lies in its year. -/
theorem yearOfDay_bounds (n : Int) :
    daysBeforeYear (yearOfDay n) ≤ n ∧ n < daysBeforeYear (yearOfDay n + 1) := by
  -- the estimate is off by one at most, as leap days are spread evenly enough
  have hestimate : daysBeforeYear (400 * n / 146097) ≤ n ∧
      n < daysBeforeYear (400 * n / 146097 + 1 + 1 + 1) := by
    simp only [daysBeforeYear]
    omega
  obtain ⟨hlow, hhigh⟩ := hestimate
  unfold yearOfDay
  dsimp only
  split
  · rename_i hbefore
    rw [Int.add_sub_cancel]
    exact ⟨hlow, hbefore⟩
  · rename_i hfrom
    split
    · rename_i hafter
      exact ⟨hafter, hhigh⟩
    · rename_i hin
      exact ⟨Int.not_lt.1 hfrom, Int.not_le.1 hin⟩

/-! ## Months -/

theorem monthLength_le (year : Int) (month : Nat) : monthLength year month ≤ 31 := by
  have hall : ∀ leap, ∀ l ∈ monthLengths leap, l ≤ 31 := by decide
  unfold monthLength
  split
  · exact Nat.zero_le 31
  · rename_i m
    cases hm : (monthLengths (isLeap year))[m]? with
    | none => exact Nat.zero_le 31
    | some l => exact hall _ l (List.mem_of_getElem? hm)

theorem length_monthLengths (leap : Bool) : (monthLengths leap).length = 12 := rfl

theorem daysBeforeMonth_all (leap : Bool) :
    daysBeforeMonth (monthLengths leap) 12 = 365 + if leap then 1 else 0 := by
  cases leap <;> rfl

/-- A day within some months falls into one of them. -/
theorem monthAndDay_spec (month : Nat) (lengths : List Nat) {n : Nat}
    (h : n < daysBeforeMonth lengths lengths.length) :
    ∃ j l, lengths[j]? = some l ∧ (monthAndDay month lengths n).1 = month + j ∧
      1 ≤ (monthAndDay month lengths n).2 ∧ (monthAndDay month lengths n).2 ≤ l ∧
        daysBeforeMonth lengths j + ((monthAndDay month lengths n).2 - 1) = n := by
  induction lengths generalizing month n with
  | nil => exact absurd h (Nat.not_lt_zero n)
  | cons l lengths ih =>
    unfold monthAndDay
    split
    · rename_i hin
      exact ⟨0, l, rfl, rfl, Nat.succ_pos n, hin, Nat.zero_add n⟩
    · rename_i hout
      have hrest : n - l < daysBeforeMonth lengths lengths.length := by
        rw [List.length_cons, daysBeforeMonth] at h
        omega
      obtain ⟨j, k, hj, hmonth, hpos, hle, hday⟩ := ih (month + 1) hrest
      refine ⟨j + 1, k, hj, ?_, hpos, hle, ?_⟩
      · rw [hmonth, Nat.add_assoc, Nat.add_comm 1 j]
      · rw [daysBeforeMonth]
        omega

/-! ## Days -/

/-- The parts of the date of a day. -/
theorem ofDayNumber_spec (n : Int) :
    ∃ j l, (monthLengths (isLeap (ofDayNumber n).year))[j]? = some l ∧
      (ofDayNumber n).month = 1 + j ∧ 1 ≤ (ofDayNumber n).day ∧ (ofDayNumber n).day ≤ l ∧
        daysBeforeYear (ofDayNumber n).year +
          (daysBeforeMonth (monthLengths (isLeap (ofDayNumber n).year)) j +
            ((ofDayNumber n).day - 1) : Nat) = n + epoch := by
  obtain ⟨hlow, hhigh⟩ := yearOfDay_bounds (n + epoch)
  rw [daysBeforeYear_succ] at hhigh
  generalize hyear : yearOfDay (n + epoch) = year at hlow hhigh
  have hin : (n + epoch - daysBeforeYear year).toNat <
      daysBeforeMonth (monthLengths (isLeap year)) (monthLengths (isLeap year)).length := by
    rw [length_monthLengths, daysBeforeMonth_all]
    split at hhigh
    · rename_i hleap
      rw [if_pos hleap]
      omega
    · rename_i hleap
      rw [if_neg hleap]
      omega
  obtain ⟨j, l, hj, hmonth, hpos, hle, hday⟩ := monthAndDay_spec 1 _ hin
  have hdate : ofDayNumber n = ⟨year,
      (monthAndDay 1 (monthLengths (isLeap year)) (n + epoch - daysBeforeYear year).toNat).1,
      (monthAndDay 1 (monthLengths (isLeap year)) (n + epoch - daysBeforeYear year).toNat).2⟩ := by
    rw [← hyear]
    rfl
  rw [hdate]
  refine ⟨j, l, hj, hmonth, hpos, hle, ?_⟩
  dsimp only
  rw [hday]
  omega

/-- The date of a day is one that the calendar has. -/
theorem valid_ofDayNumber (n : Int) : (ofDayNumber n).Valid := by
  obtain ⟨j, l, hj, hmonth, hpos, hle, -⟩ := ofDayNumber_spec n
  have hlength : monthLength (ofDayNumber n).year (ofDayNumber n).month = l := by
    rw [hmonth, Nat.add_comm, monthLength, hj]
    rfl
  obtain ⟨hj, -⟩ := List.getElem?_eq_some_iff.1 hj
  rw [length_monthLengths] at hj
  refine ⟨?_, ?_, hpos, hlength ▸ hle⟩
  · omega
  · omega

/-- The date of a day has the number of that day. -/
theorem dayNumber_ofDayNumber (n : Int) : (ofDayNumber n).dayNumber = n := by
  obtain ⟨j, l, -, hmonth, hpos, -, hday⟩ := ofDayNumber_spec n
  have hj : (ofDayNumber n).month - 1 = j := by omega
  unfold dayNumber
  dsimp only
  rw [hj]
  omega

/-- Days are counted from the start of 1970, and before 1900 there was no leap day for four years. -/
example : (ofDayNumber 0, ofDayNumber (-25509), ofDayNumber (-25508)) =
    (⟨1970, 1, 1⟩, ⟨1900, 2, 28⟩, ⟨1900, 3, 1⟩) := by decide

end Date

namespace TimeOfDay

theorem sinceMidnight_ofSinceMidnight (n : Nat) : (ofSinceMidnight n).sinceMidnight = n := by
  unfold ofSinceMidnight sinceMidnight
  dsimp only
  omega

end TimeOfDay

namespace Moment

variable {t : Moment}

/-- An instant is the one of its date and its time of day. -/
theorem ofDate_date_timeOfDay (t : Moment) : ofDate t.date t.timeOfDay = t := by
  have hpos : (0 : Int) ≤ t % perDay := Int.emod_nonneg t (by decide)
  rw [ofDate, date, timeOfDay, Date.dayNumber_ofDayNumber,
    TimeOfDay.sinceMidnight_ofSinceMidnight, Int.toNat_of_nonneg hpos]
  exact Int.ediv_mul_add_emod t perDay

/-- A time of day is before midnight. -/
theorem timeOfDay_lt (t : Moment) :
    t.timeOfDay.hour < 24 ∧ t.timeOfDay.minute < 60 ∧ t.timeOfDay.second < 60 := by
  have hlt : t % perDay < perDay := Int.emod_lt_of_pos t (by decide)
  have hpos : (0 : Int) ≤ t % perDay := Int.emod_nonneg t (by decide)
  unfold timeOfDay TimeOfDay.ofSinceMidnight
  dsimp only
  unfold perDay at *
  omega

/-- An instant at a whole second has no fraction of one. -/
theorem timeOfDay_nanos (hwhole : t % 1000000000 = 0) : t.timeOfDay.nanos = 0 := by
  unfold timeOfDay TimeOfDay.ofSinceMidnight perDay
  dsimp only
  unfold Moment at *
  omega

end Moment

end Throttle
