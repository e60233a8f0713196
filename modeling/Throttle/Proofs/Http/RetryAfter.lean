import Throttle.Http.Message
import Throttle.Proofs.Time.MailDate

/-!
  How long a server asks to wait. A number of seconds and a date cannot be mistaken for each other, as
  a date starts with a letter (`unsigned?_fixdate`); what is read from either is exact, whatever spaces
  and tabs stand around it (`retryAfter_exact`). A date that has come, by the date of the reply, asks
  for no wait.
-/

namespace Throttle

open Http Text

/-- A number is not read from a date. -/
theorem unsigned?_fixdate (bound : Nat) (t : Moment) :
    unsigned? bound (MailDate.fixdate t) = none := by
  obtain ⟨a, rest, hcs, ha⟩ := MailDate.exists_letter_written
    (MailDate.weekdayOf_lt (t / perDay)) t.date t.timeOfDay
  have hdrop : dropPlus (a :: rest) = a :: rest := by
    unfold dropPlus
    split
    · rename_i hplus
      obtain ⟨rfl, -⟩ := List.cons.inj hplus
      exact absurd ha (by decide)
    · rfl
  have hdigits : digits? (a :: rest) = none := by
    refine Option.eq_none_iff_forall_ne_some.2 fun n hn => ?_
    have hdigit : 48 ≤ a.toNat ∧ a.toNat ≤ 57 :=
      Char.isDigit_iff_toNat.1 ((digits?_eq_some_iff.1 hn).2.1 a List.mem_cons_self)
    have hletter := toNat_of_isAlpha ha
    omega
  rw [unsigned?, MailDate.fixdate, hcs, hdrop, hdigits]
  rfl

namespace Moment

theorem gap_cast (now due : Moment) : (gap now due : Int) = max 0 (due - now) := by
  unfold gap Moment at *
  omega

/-- After the gap an instant has come. -/
theorem add_gap (now due : Moment) : now + (gap now due : Int) = max now due := by
  unfold gap Moment at *
  omega

end Moment

namespace Http.Reply

variable {r : Reply} {cs pre post : List Char}

theorem retryAfter_of_number {n : Nat} (h : textAt r.headers "retry-after" = some cs)
    (hn : unsigned? UInt64.size (trim cs) = some n) : r.retryAfter = some (Delay.ofSeconds n) := by
  unfold retryAfter
  rw [show (r.headers.get? "retry-after").bind HeaderValue.chars? = some cs from h]
  simp only [Option.bind_eq_bind, Option.bind_some, hn]
  rfl

theorem retryAfter_of_date {s : MailDate.Stamp} (h : textAt r.headers "retry-after" = some cs)
    (hnone : unsigned? UInt64.size (trim cs) = none) (hs : MailDate.read? (trim cs) = some s) :
    r.retryAfter = some (Moment.gap r.date s.moment) := by
  unfold retryAfter
  rw [show (r.headers.get? "retry-after").bind HeaderValue.chars? = some cs from h]
  simp only [Option.bind_eq_bind, Option.bind_some, hnone, hs]
  rfl

/-- What a reply asks for is exact. Where its header holds a whole second of the years 1900 to 9999 in
UTC, written as a date, the wait lasts until then, counted from the date of the reply, and there is
none if the reply is later. Where it holds a number of 64 bits, the wait is as many seconds. In both
cases spaces and tabs may stand before and after. -/
theorem retryAfter_exact (hpre : Spaces pre) (hpost : Spaces post) :
    (∀ t : Moment, t % 1000000000 = 0 → 1900 ≤ t.date.year → t.date.year ≤ 9999 →
      textAt r.headers "retry-after" = some (pre ++ (MailDate.fixdate t ++ post)) →
      ∃ wait : Delay, r.retryAfter = some wait ∧ (wait : Int) = max 0 (t - r.date) ∧
        r.date + (wait : Int) = max r.date t) ∧
    ∀ n < UInt64.size, textAt r.headers "retry-after" = some (pre ++ (decimal n ++ post)) →
      r.retryAfter = some (Delay.ofSeconds n) := by
  have htrim (text : List Char) : trim (pre ++ (text ++ post)) = trim text := by
    rw [trim_blanks_append hpre.blanks, trim_append_blanks hpost.blanks]
  constructor
  · intro t hwhole hlow hhigh htext
    obtain ⟨s, hread, rfl⟩ := MailDate.moment_of_fixdate hwhole hlow hhigh
    refine ⟨Moment.gap r.date s.moment, ?_, Moment.gap_cast _ _, Moment.add_gap _ _⟩
    refine retryAfter_of_date htext ?_ ?_
    · rw [htrim, MailDate.trim_fixdate, unsigned?_fixdate]
    · rw [htrim, MailDate.trim_fixdate, hread]
  · intro n hn htext
    refine retryAfter_of_number htext ?_
    rw [htrim, trim_decimal, unsigned?_decimal hn]

/-- A refusal of some date, with one header. -/
def refusedUntil (date : Moment) (text : String) : Reply :=
  ⟨429, ⟨[(⟨"retry-after"⟩, [⟨text.toList.map fun c => UInt8.ofNat c.toNat, false⟩])]⟩, [], date⟩

def refusalText : String := "\tSun, 06 Nov 1994 08:49:37 GMT "

/-- The greatest number of seconds. -/
def longestText : String := "\t18446744073709551615 "

/-- A date that is 6.75 seconds ahead, the same date in a later reply, and the greatest number. -/
theorem retryAfter_exact_refusedUntil :
    (textAt (refusedUntil 784111770250000000 refusalText).headers "retry-after" =
        some (['\t'] ++ (MailDate.fixdate 784111777000000000 ++ [' '])) ∧
      (refusedUntil 784111770250000000 refusalText).retryAfter = some 6750000000) ∧
    (textAt (refusedUntil 784111777000000001 refusalText).headers "retry-after" =
        some (['\t'] ++ (MailDate.fixdate 784111777000000000 ++ [' '])) ∧
      (refusedUntil 784111777000000001 refusalText).retryAfter = some 0) ∧
    textAt (refusedUntil 784111777000000001 longestText).headers "retry-after" =
        some (['\t'] ++ (decimal 18446744073709551615 ++ [' '])) ∧
      (refusedUntil 784111777000000001 longestText).retryAfter =
        some (Delay.ofSeconds 18446744073709551615) := by
  have hpre : Spaces ['\t'] := by simp [Spaces]
  have hpost : Spaces [' '] := by simp [Spaces]
  have hahead : textAt (refusedUntil 784111770250000000 refusalText).headers "retry-after" =
      some (['\t'] ++ (MailDate.fixdate 784111777000000000 ++ [' '])) := by decide +kernel
  have hbehind : textAt (refusedUntil 784111777000000001 refusalText).headers "retry-after" =
      some (['\t'] ++ (MailDate.fixdate 784111777000000000 ++ [' '])) := by decide +kernel
  have hnumber : textAt (refusedUntil 784111777000000001 longestText).headers "retry-after" =
      some (['\t'] ++ (decimal 18446744073709551615 ++ [' '])) := by decide +kernel
  obtain ⟨wait, hwait, hlong, -⟩ := (retryAfter_exact hpre hpost).1 784111777000000000 (by decide)
    (by decide) (by decide) hahead
  obtain ⟨rest, hrest, hshort, -⟩ := (retryAfter_exact hpre hpost).1 784111777000000000 (by decide)
    (by decide) (by decide) hbehind
  refine ⟨⟨hahead, hwait.trans (congrArg some ?_)⟩, ⟨hbehind, hrest.trans (congrArg some ?_)⟩,
    hnumber, (retryAfter_exact hpre hpost).2 _ (by decide) hnumber⟩
  · exact Int.ofNat.inj hlong
  · exact Int.ofNat.inj hshort

end Http.Reply

end Throttle
