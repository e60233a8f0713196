import Throttle.Config.Basic
import Throttle.Http.Message
import Throttle.Policy.Basic
import Throttle.Proofs.History

/-!
  Instants close to this century. What windows and penalties lead to from the years 2000 to 2100
  (`Moment.Modern`) stays before a horizon that is far from the end of the calendar: so the safe
  instant of a history with modern dates can be computed (`Recent.nextSafeSend`). Only a wait that a
  reply names can lead further, and it oversteps the calendar if it is too long
  (`Reply.Oversteps`).
-/

namespace Throttle

open Http

/-! ## Instants close to this century -/

/-- More than any window or penalty lasts. -/
def longestDelay : Delay := Delay.ofSeconds UInt32.size

namespace Moment

/-- An instant in the years from 2000 to 2100. -/
def Modern (t : Moment) : Prop :=
  ofDate ⟨2000, 1, 1⟩ ⟨0, 0, 0, 0⟩ ≤ t ∧ t < ofDate ⟨2101, 1, 1⟩ ⟨0, 0, 0, 0⟩

/-- No window and no penalty leads further from a modern instant. -/
def horizon : Moment := ofDate ⟨2101, 1, 1⟩ ⟨0, 0, 0, 0⟩ + (longestDelay : Int)

variable {t u : Moment} {d : Delay}

theorem modern_iff : t.Modern ↔ 946684800000000000 ≤ t ∧ t < 4133980800000000000 := by
  have hfrom : ofDate ⟨2000, 1, 1⟩ ⟨0, 0, 0, 0⟩ = 946684800000000000 := by decide
  have hto : ofDate ⟨2101, 1, 1⟩ ⟨0, 0, 0, 0⟩ = 4133980800000000000 := by decide
  unfold Modern
  rw [hfrom, hto]

theorem after_of_le (hfirst : first ≤ t) (hlast : t + (d : Int) ≤ last) :
    t.after d = .ok (t + (d : Int)) :=
  after_eq_ok_iff.2
    ⟨⟨Int.le_trans hfirst (Int.le_add_of_nonneg_right (Int.natCast_nonneg d)), hlast⟩, rfl⟩

theorem after_of_lt (h : last < t + (d : Int)) : t.after d = .error .calendar :=
  after_of_not_inRange fun hrange => Int.not_lt.2 hrange.2 h

theorem inRange_of_after (h : t.after d = .ok u) : InRange u := by
  obtain ⟨hrange, rfl⟩ := after_eq_ok_iff.1 h
  exact hrange

theorem Modern.le_horizon (h : t.Modern) (hd : d ≤ longestDelay) : t + (d : Int) ≤ horizon :=
  Int.add_le_add (Int.le_of_lt h.2) (Int.ofNat_le.2 hd)

theorem Modern.inRange (h : t.Modern) : InRange t := by
  obtain ⟨hfrom, hto⟩ := modern_iff.1 h
  unfold InRange first last Moment at *
  omega

theorem horizon_le_last : horizon + (longestDelay : Int) ≤ last := by decide

theorem Modern.after (h : t.Modern) (hd : d ≤ longestDelay) :
    t.after d = .ok (t + (d : Int)) ∧ t + (d : Int) ≤ horizon := by
  have hle := h.le_horizon hd
  refine ⟨after_of_le h.inRange.1 (Int.le_trans hle ?_), hle⟩
  exact Int.le_trans (Int.le_add_of_nonneg_right (Int.natCast_nonneg _)) horizon_le_last

theorem Modern.before (h : t.Modern) (hd : d ≤ longestDelay) : ∃ u, t.before d = .ok u := by
  refine ⟨_, checked_eq_ok_iff.2 ⟨?_, rfl⟩⟩
  obtain ⟨hfrom, hto⟩ := modern_iff.1 h
  unfold longestDelay Delay.ofSeconds Delay.perSecond UInt32.size Delay at hd
  unfold InRange first last Moment Delay at *
  omega

end Moment

namespace Window

theorem ofSeconds_le (n : UInt32) : Delay.ofSeconds n.toNat ≤ longestDelay :=
  Nat.mul_le_mul_right _ (Nat.le_of_lt n.toNat_lt_size)

theorem periodDelay_le (w : Window) : w.periodDelay ≤ longestDelay := ofSeconds_le w.period

theorem restrictionDelay_le (w : Window) : w.restrictionDelay ≤ longestDelay :=
  ofSeconds_le w.restriction

end Window

/-! ## What windows and penalties lead to -/

namespace History

variable {h : History} {i : Item} {now : Moment}

/-- All dates are modern. -/
def Recent (h : History) : Prop := ∀ t ∈ h.entries, t.Modern

theorem Recent.push {t : Moment} (hh : h.Recent) (ht : t.Modern) : (h.push t).Recent := by
  intro u hu
  rcases mem_place.1 (List.mem_of_mem_take hu) with rfl | hold
  · exact ht
  · exact hh u hold

theorem Recent.latest (hh : h.Recent) (hnow : now.Modern) : (h.latest?.getD now).Modern := by
  cases hlatest : h.latest? with
  | none => exact hnow
  | some t => exact hh t (List.mem_of_mem_head? hlatest)

/-- A constraint is computed, and it ends soon enough. -/
def Soon (c : Except Overflow (Option Moment)) : Prop :=
  ∃ t?, c = .ok t? ∧ ∀ t, t? = some t → t ≤ Moment.horizon

theorem soon_none : Soon (.ok none) := ⟨none, rfl, fun t ht => by cases ht⟩

theorem soon_after {t : Moment} {d : Delay} (ht : t.Modern) (hd : d ≤ longestDelay) :
    Soon ((t.after d).map some) := by
  obtain ⟨hafter, hle⟩ := ht.after hd
  rw [hafter]
  refine ⟨_, rfl, fun u hu => ?_⟩
  obtain rfl := Option.some.inj hu
  exact hle

theorem Recent.windowConstraint (hh : h.Recent) (hnow : now.Modern) (i : Item) :
    Soon (h.windowConstraint i now) := by
  have hperiod := i.limit.periodDelay_le
  obtain ⟨start, hstart⟩ := hnow.before hperiod
  unfold History.windowConstraint
  dsimp only
  rw [hstart]
  dsimp only [bind, Except.bind]
  cases i.limit.hits.toNat with
  | zero => exact soon_after hnow hperiod
  | succ hits =>
    dsimp only
    cases hentry : (h.entries.takeWhile (start < ·))[hits]? with
    | none => exact soon_none
    | some e =>
      have hmem : e ∈ h.entries :=
        (List.takeWhile_sublist _).subset (List.mem_of_getElem? hentry)
      exact soon_after (hh e hmem) hperiod

theorem Recent.restrictionConstraint (hh : h.Recent) (hnow : now.Modern) (i : Item) :
    Soon (h.restrictionConstraint i now) := by
  unfold History.restrictionConstraint
  split
  · exact soon_none
  · exact soon_after (hh.latest hnow) i.state.restrictionDelay_le

theorem Recent.itemConstraint (hh : h.Recent) (hnow : now.Modern) (i : Item) :
    Soon (h.itemConstraint i now) := by
  obtain ⟨w, hw, hwle⟩ := hh.windowConstraint hnow i
  obtain ⟨r, hr, hrle⟩ := hh.restrictionConstraint hnow i
  unfold History.itemConstraint
  rw [hw, hr]
  refine ⟨later? w r, rfl, fun t ht => ?_⟩
  cases w with
  | none => exact hrle t ht
  | some v =>
    cases r with
    | none => exact hwle t ht
    | some u =>
      obtain rfl := Option.some.inj ht
      exact Int.max_le.2 ⟨hwle v rfl, hrle u rfl⟩

theorem foldlM_soon (items : List Item) {f : Item → Except Overflow (Option Moment)}
    {start : Moment} (hf : ∀ i, Soon (f i)) (hstart : start ≤ Moment.horizon) :
    ∃ t, items.foldlM (fun t i => return (← f i).elim t (max t)) start = Except.ok t ∧
      t ≤ Moment.horizon := by
  induction items generalizing start with
  | nil => exact ⟨start, rfl, hstart⟩
  | cons i items ih =>
    obtain ⟨c, hc, hle⟩ := hf i
    rw [List.foldlM_cons, hc]
    cases c with
    | none => exact ih hstart
    | some v => exact ih (Int.max_le.2 ⟨hstart, hle v rfl⟩)

/-- The safe instant is computed, and it is close. -/
theorem Recent.nextSafeSend (hh : h.Recent) (hnow : now.Modern) (p : Policy) :
    ∃ t, h.nextSafeSend p now = .ok t ∧ now ≤ t ∧ t ≤ Moment.horizon := by
  have hstart : now ≤ Moment.horizon := Int.le_trans (Int.le_of_lt hnow.2)
    (Int.le_add_of_nonneg_right (Int.natCast_nonneg longestDelay))
  obtain ⟨t, ht, hle⟩ := foldlM_soon p.items (hh.itemConstraint hnow) hstart
  exact ⟨t, ht, le_of_nextSafeSend ht, hle⟩

end History

/-! ## Waits that replies ask for -/

/-- The most that is added to a wait before anything leaves. -/
def Config.margin (c : Config) : Delay := c.violationBuffer + c.borderlineBuffer

/-- A refusal names a wait that ends, with a margin, outside the calendar. -/
def Http.Reply.Oversteps (now : Moment) (margin : Delay) (reply : Reply) : Prop :=
  reply.isViolation = true ∧
    ∃ wait, reply.retryAfter = some wait ∧ Moment.last < now + (wait : Int) + (margin : Int)

theorem Policy.violationRestriction_le {p : Policy} {n : Nat}
    (h : p.violationRestriction = some n) : Delay.ofSeconds n ≤ longestDelay := by
  unfold Policy.violationRestriction at h
  obtain ⟨i, -, rfl⟩ := List.mem_map.1 (List.max?_mem h)
  unfold Policy.penalty
  split
  · exact Window.ofSeconds_le i.limit.restriction
  · exact Window.ofSeconds_le i.state.restriction

end Throttle
