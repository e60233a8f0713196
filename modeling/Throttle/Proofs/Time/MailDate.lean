import Throttle.Proofs.Policy.Rules
import Throttle.Proofs.Time.Calendar
import Throttle.Time.MailDate

/-!
  Dates as they are written are read back. `fixdate` writes an instant as web servers do, for instance
  `Sun, 06 Nov 1994 08:49:37 GMT`, and `MailDate.read?` finds the instant again, for each whole second
  of the years 1900 to 9999 (`moment_of_fixdate`). The reader takes one part after the other: a part
  that `Opens` ends what is skipped before it, and numbers and names are read from what was written
  for them (`number_padded`, `Names.named_append`).
-/

namespace Throttle

namespace Text

variable {width n : Nat}

theorem toNat_of_isAlpha {c : Char} (h : c.isAlpha = true) :
    65 ≤ c.toNat ∧ c.toNat ≤ 90 ∨ 97 ≤ c.toNat ∧ c.toNat ≤ 122 := by
  simpa [Char.isAlpha, Char.isUpper, Char.isLower, UInt32.le_iff_toNat_le] using h

theorem isBlank_of_isAlpha {c : Char} (h : c.isAlpha = true) : isBlank c = false := by
  have h' := toNat_of_isAlpha h
  simp only [isBlank, Bool.or_eq_false_iff, Bool.and_eq_false_iff, decide_eq_false_iff_not,
    beq_eq_false_iff_ne, ne_eq]
  omega

theorem length_padded (hpos : 0 < width) (h : n < 10 ^ width) : (padded width n).length = width := by
  have hle : (decimal n).length ≤ width := (Nat.length_toDigits_le_iff (by decide) hpos).2 h
  rw [padded, List.length_append, List.length_replicate]
  omega

theorem isDigit_of_mem_padded {c : Char} (h : c ∈ padded width n) : c.isDigit = true := by
  rcases List.mem_append.1 h with hc | hc
  · rw [List.eq_of_mem_replicate hc]
    decide
  · exact isDigit_of_mem_decimal hc

theorem padded_ne_nil (width n : Nat) : padded width n ≠ [] :=
  List.append_ne_nil_of_right_ne_nil _ (decimal_ne_nil n)

/-- A number is read from its digits, with zeros in front of them. -/
theorem digits?_padded (width n : Nat) : digits? (padded width n) = some n :=
  digits?_eq_some_iff.2 ⟨padded_ne_nil width n, fun _ => isDigit_of_mem_padded,
    (ofDigitChars_zeros _ _).trans (ofDigitChars_decimal n)⟩

end Text

namespace MailDate

open Text

variable {c : Char} {cs rest name : List Char} {names : List String} {k width n : Nat}

/-! ## What stands between parts -/

/-- A text that starts with a part, and with nothing that may stand before one. -/
def Opens (cs : List Char) : Prop :=
  ∃ c rest, cs = c :: rest ∧ isSpace c = false ∧ c ≠ '\r' ∧ c ≠ '('

theorem opens_of_isAlphanum (h : c.isAlphanum = true) (rest : List Char) : Opens (c :: rest) := by
  refine ⟨c, rest, rfl, ?_, ?_, ?_⟩
  · by_contra hspace
    simp only [isSpace, Bool.not_eq_false, Bool.or_eq_true, beq_iff_eq] at hspace
    rcases hspace with rfl | rfl
    · exact absurd h (by decide)
    · exact absurd h (by decide)
  · rintro rfl
    exact absurd h (by decide)
  · rintro rfl
    exact absurd h (by decide)

theorem Opens.skip (h : Opens cs) : skip cs = some cs := by
  obtain ⟨c, rest, rfl, hspace, hreturn, hcomment⟩ := h
  have hmove : move .plain 0 c = .stop := by simp [move, plainMove, hspace, hreturn, hcomment]
  rw [MailDate.skip, skipFrom, hmove]

theorem Opens.skip_space (h : Opens cs) : MailDate.skip (' ' :: cs) = some cs := by
  have hmove : move .plain 0 ' ' = .on .plain 0 := rfl
  rw [MailDate.skip, skipFrom, hmove]
  exact h.skip

theorem Opens.separator (h : Opens cs) : separator (' ' :: cs) = some cs := by
  rw [MailDate.separator, h.skip_space]
  exact Option.filter_some_pos (decide_eq_true (Nat.lt_succ_self _))

theorem Opens.whiteSpace (h : Opens cs) : whiteSpace (' ' :: cs) = some cs := by
  obtain ⟨c, rest, rfl, hspace, hreturn, -⟩ := h
  have hdrop : (c :: rest).dropWhile isSpace = c :: rest :=
    List.dropWhile_cons_of_neg (by simp [hspace])
  change skipFolds _ ((c :: rest).dropWhile isSpace) = _
  rw [hdrop]
  unfold skipFolds
  split
  · rename_i hfold
    exact absurd (List.cons.inj hfold).1 hreturn
  · rfl

theorem Opens.colon (h : Opens cs) : colon (':' :: cs) = some cs := by
  have hopens : Opens (':' :: cs) := ⟨':', cs, rfl, by decide, by decide, by decide⟩
  rw [MailDate.colon, hopens.skip]
  exact h.skip

/-! ## Numbers and names -/

theorem opens_padded (width n : Nat) (rest : List Char) : Opens (padded width n ++ rest) := by
  obtain ⟨c, ds, hds⟩ := List.exists_cons_of_ne_nil (padded_ne_nil width n)
  have hc : c.isDigit = true := isDigit_of_mem_padded (hds ▸ List.mem_cons_self)
  rw [hds, List.cons_append]
  exact opens_of_isAlphanum (by simp [Char.isAlphanum, hc]) _

/-- A number of so many digits is read from its written form. -/
theorem number_padded (hpos : 0 < width) (h : n < 10 ^ width) (rest : List Char) :
    number width (padded width n ++ rest) = some (n, rest) := by
  have hlength := length_padded hpos h
  unfold number
  rw [List.take_left' hlength, List.drop_left' hlength, if_pos hlength, digits?_padded]
  rfl

/-- Three letters that are, in lowercase, one of some names. -/
structure Names (names : List String) (k : Nat) (name : List Char) : Prop where
  length : name.length = 3
  letters : name.all Char.isAlpha = true
  found : (names.findIdx? fun n => n.toList = name.map Char.toLower) = some k

theorem Names.named_append (h : Names names k name) (rest : List Char) :
    named names (name ++ rest) = some (k, rest) := by
  rw [named, three, List.take_left' h.length, List.drop_left' h.length, h.found]
  rfl

theorem Names.exists_letter (h : Names names k name) :
    ∃ c cs, name = c :: cs ∧ c.isAlpha = true := by
  obtain ⟨hlength, hletters, -⟩ := h
  cases name with
  | nil => cases hlength
  | cons c cs => exact ⟨c, cs, rfl, (Bool.and_eq_true_iff.1 hletters).1⟩

theorem Names.opens (h : Names names k name) (rest : List Char) : Opens (name ++ rest) := by
  obtain ⟨c, cs, rfl, hc⟩ := h.exists_letter
  exact opens_of_isAlphanum (by simp [Char.isAlphanum, hc]) _

def weekdayNames : List String := ["Mon", "Tue", "Wed", "Thu", "Fri", "Sat", "Sun"]

def monthNames : List String :=
  ["Jan", "Feb", "Mar", "Apr", "May", "Jun", "Jul", "Aug", "Sep", "Oct", "Nov", "Dec"]

/-- The name at a position. -/
def nameAt (names : List String) (k : Nat) : List Char := (names[k]?.getD "").toList

theorem names_weekday (h : k < 7) : Names weekdays k (nameAt weekdayNames k) := by
  have hall : ∀ k < 7, (nameAt weekdayNames k).length = 3 ∧
      (nameAt weekdayNames k).all Char.isAlpha = true ∧
        (weekdays.findIdx? fun n => n.toList = (nameAt weekdayNames k).map Char.toLower) =
          some k := by decide +kernel
  obtain ⟨hlength, hletters, hfound⟩ := hall k h
  exact ⟨hlength, hletters, hfound⟩

theorem names_month (h : k < 12) : Names months k (nameAt monthNames k) := by
  have hall : ∀ k < 12, (nameAt monthNames k).length = 3 ∧
      (nameAt monthNames k).all Char.isAlpha = true ∧
        (months.findIdx? fun n => n.toList = (nameAt monthNames k).map Char.toLower) =
          some k := by decide +kernel
  obtain ⟨hlength, hletters, hfound⟩ := hall k h
  exact ⟨hlength, hletters, hfound⟩

/-! ## Whole dates -/

/-- The time of day, and the zone that stands for UTC. -/
def writtenTime (c : TimeOfDay) : List Char :=
  padded 2 c.hour ++ (':' :: (padded 2 c.minute ++ (':' :: (padded 2 c.second ++
    [' ', 'G', 'M', 'T']))))

/-- A date and a time of day in UTC, after the name of a day of the week. -/
def written (weekday : Nat) (d : Date) (c : TimeOfDay) : List Char :=
  nameAt weekdayNames weekday ++ (',' :: ' ' :: (padded 2 d.day ++ (' ' ::
    (nameAt monthNames (d.month - 1) ++ (' ' :: (padded 4 d.year.toNat ++ (' ' ::
      writtenTime c)))))))

/-- The day of the week, from Monday on; the first day of 1970 was a Thursday. -/
def weekdayOf (day : Int) : Nat := ((day + 3) % 7).toNat

theorem weekdayOf_lt (day : Int) : weekdayOf day < 7 := by
  unfold weekdayOf
  omega

/-- An instant as web servers write it. -/
def fixdate (t : Moment) : List Char :=
  written (weekdayOf (t / perDay)) t.date t.timeOfDay

example : fixdate 784111777000000000 = "Sun, 06 Nov 1994 08:49:37 GMT".toList := by decide +kernel

theorem opens_written {w : Nat} (hw : w < 7) (d : Date) (c : TimeOfDay) : Opens (written w d c) :=
  (names_weekday hw).opens _

theorem weekday_written {w : Nat} (hw : w < 7) (d : Date) (c : TimeOfDay) :
    weekday (written w d c) = some (padded 2 d.day ++ (' ' :: (nameAt monthNames (d.month - 1) ++
      (' ' :: (padded 4 d.year.toNat ++ (' ' :: writtenTime c)))))) := by
  rw [weekday, written, (names_weekday hw).named_append]
  exact (opens_padded 2 d.day _).skip_space

theorem year_padded (hlow : 1900 ≤ n) (hhigh : n ≤ 9999) (hopens : Opens rest) :
    year (padded 4 n ++ (' ' :: rest)) = some (n, rest) := by
  have hnumber : (number 4 (padded 4 n ++ (' ' :: rest))).filter (fun x => 1900 ≤ x.1) =
      some (n, ' ' :: rest) := by
    rw [number_padded (by decide) (by omega)]
    exact Option.filter_some_pos (decide_eq_true hlow)
  unfold year
  rw [hnumber]
  exact congrArg (Option.map _) hopens.whiteSpace

theorem dayOfMonth_padded (h : n < 100) (rest : List Char) :
    dayOfMonth (padded 2 n ++ rest) = some (n, rest) := by
  rw [dayOfMonth, number_padded (by decide) h]
  rfl

theorem seconds_padded (h : n < 60) (rest : List Char) :
    seconds (':' :: (padded 2 n ++ rest)) = some (n, rest) := by
  rw [seconds, (opens_padded 2 n rest).colon]
  exact number_padded (by decide) (by omega) rest

theorem stamp?_of_valid {d : Date} {hour minute second : Nat} {offset : Int} (hd : d.Valid)
    (hhour : hour < 24) (hminute : minute < 60) (hsecond : second < 60) :
    stamp? d hour minute second offset = some ⟨d, ⟨hour, minute, second, 0⟩, offset⟩ := by
  unfold stamp?
  dsimp only
  rw [if_neg (not_not.2 ⟨hd, hhour, hminute, Nat.le_of_lt hsecond⟩), if_pos hsecond,
    if_neg (Nat.ne_of_lt hsecond)]

/-- A date that the calendar has, in the years 1900 to 9999, is read from its written form. -/
theorem strict?_written {w : Nat} {d : Date} {c : TimeOfDay} (hw : w < 7) (hd : d.Valid)
    (hlow : 1900 ≤ d.year) (hhigh : d.year ≤ 9999) (hhour : c.hour < 24) (hminute : c.minute < 60)
    (hsecond : c.second < 60) :
    strict? (written w d c) = some ⟨d, ⟨c.hour, c.minute, c.second, 0⟩, 0⟩ := by
  have hday : d.day < 100 := by
    have := Date.monthLength_le d.year d.month
    have := hd.2.2.2
    omega
  have hmonth : Names months (d.month - 1) (nameAt monthNames (d.month - 1)) := by
    have := hd.1
    have := hd.2.1
    exact names_month (by omega)
  have hdate : (⟨(d.year.toNat : Int), d.month - 1 + 1, d.day⟩ : Date) = d := by
    rw [Int.toNat_of_nonneg (by omega), Nat.sub_add_cancel hd.1]
  have hopens : Opens ['G', 'M', 'T'] := opens_of_isAlphanum (by decide) _
  unfold strict?
  refine Option.bind_eq_some_iff.2 ⟨_, (opens_written hw d c).skip, ?_⟩
  refine Option.bind_eq_some_iff.2 ⟨_, weekday_written hw d c, ?_⟩
  refine Option.bind_eq_some_iff.2 ⟨_, dayOfMonth_padded hday _, ?_⟩
  refine Option.bind_eq_some_iff.2 ⟨_, (hmonth.opens _).separator, ?_⟩
  refine Option.bind_eq_some_iff.2 ⟨_, hmonth.named_append _, ?_⟩
  refine Option.bind_eq_some_iff.2 ⟨_, (opens_padded 4 _ _).separator, ?_⟩
  refine Option.bind_eq_some_iff.2 ⟨_, year_padded (by omega) (by omega) (opens_padded 2 _ _), ?_⟩
  refine Option.bind_eq_some_iff.2 ⟨_, number_padded Nat.two_pos (by omega) _, ?_⟩
  refine Option.bind_eq_some_iff.2 ⟨_, (opens_padded 2 _ _).colon, ?_⟩
  refine Option.bind_eq_some_iff.2 ⟨_, number_padded Nat.two_pos (by omega) _, ?_⟩
  refine Option.bind_eq_some_iff.2 ⟨_, seconds_padded hsecond _, ?_⟩
  refine Option.bind_eq_some_iff.2 ⟨_, hopens.separator, ?_⟩
  refine Option.bind_eq_some_iff.2 ⟨(0, []), by decide +kernel, ?_⟩
  refine Option.bind_eq_some_iff.2 ⟨[], rfl, ?_⟩
  rw [if_pos List.isEmpty_nil, hdate]
  exact stamp?_of_valid hd hhour hminute hsecond

/-- A written date starts with a letter. -/
theorem exists_letter_written {w : Nat} (hw : w < 7) (d : Date) (c : TimeOfDay) :
    ∃ a rest, written w d c = a :: rest ∧ a.isAlpha = true := by
  obtain ⟨a, rest, hname, ha⟩ := (names_weekday hw).exists_letter
  rw [written, hname]
  exact ⟨a, _, rfl, ha⟩

/-- A written date has no blanks at its ends. -/
theorem trim_written {w : Nat} (hw : w < 7) (d : Date) (c : TimeOfDay) :
    trim (written w d c) = written w d c := by
  refine Trimmed.trim_eq_self ⟨?_, ?_⟩
  · obtain ⟨a, rest, hcs, ha⟩ := exists_letter_written hw d c
    rw [hcs]
    rintro e ⟨⟩
    exact isBlank_of_isAlpha ha
  · have hlast : (written w d c).getLast? = some 'T' := by
      simp [written, writtenTime, List.getLast?_append, List.getLast?_cons]
    rw [hlast]
    rintro e ⟨⟩
    decide

theorem trim_fixdate (t : Moment) : trim (fixdate t) = fixdate t :=
  trim_written (weekdayOf_lt _) _ _

/-- The instant of a date is read from what was written for it. -/
theorem moment_of_fixdate {t : Moment} (hwhole : t % 1000000000 = 0) (hlow : 1900 ≤ t.date.year)
    (hhigh : t.date.year ≤ 9999) : ∃ s, read? (fixdate t) = some s ∧ s.moment = t := by
  obtain ⟨hhour, hminute, hsecond⟩ := Moment.timeOfDay_lt t
  have htime : (⟨t.timeOfDay.hour, t.timeOfDay.minute, t.timeOfDay.second, 0⟩ : TimeOfDay) =
      t.timeOfDay := by
    rw [← Moment.timeOfDay_nanos hwhole]
  have hstrict : strict? (fixdate t) = some ⟨t.date, t.timeOfDay, 0⟩ := htime ▸
    strict?_written (weekdayOf_lt _) (Date.valid_ofDayNumber _) hlow hhigh hhour hminute hsecond
  refine ⟨⟨t.date, t.timeOfDay, 0⟩, ?_, ?_⟩
  · rw [read?, trim_fixdate, hstrict]
    rfl
  · rw [Stamp.moment, Int.zero_mul, Int.sub_zero]
    exact Moment.ofDate_date_timeOfDay t

end MailDate

end Throttle
