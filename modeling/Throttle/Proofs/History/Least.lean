import Throttle.Proofs.History

/-!
  The safe instant is exact. An instant suits an item if its window has room then and its penalty is
  over (`Admits`). Of the instants from `now` on, `nextSafeSend` gives the first one that suits every
  item, and it gives none only if the calendar does not hold an instant on which that depends
  (`nextSafeSend_least`). The calculation looks at the window that ends at `now` only: from then on,
  what an item asks for comes down to two bounds (`admits_iff`).
-/

namespace Throttle

namespace History

variable {h : History} {i : Item} {t now : Moment} {c : Option Moment}

/-! ## Histories that can be reached -/

/-- A change to a history. -/
inductive Edit where
  | push (t : Moment)
  | grow (capacity : Nat)

def edit (h : History) : Edit → History
  | .push t => h.push t
  | .grow capacity => h.grow capacity

/-- A history after some changes. -/
def edited (h : History) (es : List Edit) : History := es.foldl edit h

protected theorem Tidy.edited (hh : h.Tidy) (es : List Edit) : (h.edited es).Tidy := by
  induction es generalizing h with
  | nil => exact hh
  | cons e es ih =>
    cases e with
    | push t => exact ih (hh.push t)
    | grow capacity => exact ih (hh.grow capacity)

/-! ## One item -/

/-- At an instant an item lets one more request through: its window has room, and its penalty is
over. A limit of none never has room; a whole period is waited for. -/
structure Admits (h : History) (i : Item) (now t : Moment) : Prop where
  room : 1 ≤ i.limit.hits.toNat → i.limit.HasRoom h.entries t
  shut : i.limit.hits.toNat = 0 → now + (i.limit.periodDelay : Int) ≤ t
  served : i.state.restriction ≠ 0 → h.latest?.getD now + (i.state.restrictionDelay : Int) ≤ t

/-- The calendar holds the start of the window of an item, and the instants at which the window has
room and the penalty is over. -/
structure Representable (h : History) (i : Item) (now : Moment) : Prop where
  start : Moment.InRange (now - (i.limit.periodDelay : Int))
  room : ∀ e, 1 ≤ i.limit.hits.toNat → h.entries[i.limit.hits.toNat - 1]? = some e →
    now - (i.limit.periodDelay : Int) < e → Moment.InRange (e + (i.limit.periodDelay : Int))
  shut : i.limit.hits.toNat = 0 → Moment.InRange (now + (i.limit.periodDelay : Int))
  served : i.state.restriction ≠ 0 →
    Moment.InRange (h.latest?.getD now + (i.state.restrictionDelay : Int))

/-- The calendar has to hold the start of the window and the two bounds. -/
theorem representable_iff :
    h.Representable i now ↔ Moment.InRange (now - (i.limit.periodDelay : Int)) ∧
      (∀ v ∈ h.windowBound i now, Moment.InRange v) ∧
        ∀ v ∈ h.penaltyBound i now, Moment.InRange v := by
  unfold windowBound penaltyBound
  constructor
  · rintro ⟨hstart, hroom, hshut, hserved⟩
    refine ⟨hstart, ?_, ?_⟩
    · split
      · rename_i hnone
        simpa using hshut hnone
      · rename_i hsome
        intro v hv
        obtain ⟨e, he, rfl⟩ := Option.map_eq_some_iff.1 hv
        obtain ⟨hentry, hin⟩ := Option.filter_eq_some_iff.1 he
        exact hroom e (Nat.one_le_iff_ne_zero.2 hsome) hentry (of_decide_eq_true hin)
    · split
      · nofun
      · rename_i hrestricted
        simpa using hserved hrestricted
  · rintro ⟨hstart, hwindow, hpenalty⟩
    refine ⟨hstart, fun e hpos he hin => ?_, fun hnone => ?_, fun hrestricted => ?_⟩
    · rw [if_neg (Nat.one_le_iff_ne_zero.1 hpos)] at hwindow
      refine hwindow _ (Option.map_eq_some_iff.2 ⟨e, ?_, rfl⟩)
      exact Option.filter_eq_some_iff.2 ⟨he, decide_eq_true hin⟩
    · rw [if_pos hnone] at hwindow
      exact hwindow _ rfl
    · rw [if_neg hrestricted] at hpenalty
      exact hpenalty _ rfl

/-- From `now` on, an item lets a request through as soon as both bounds have come. -/
theorem admits_iff (hl : Falling h.entries) (hnow : now ≤ t) :
    h.Admits i now t ↔ (∀ v ∈ h.windowBound i now, v ≤ t) ∧ ∀ v ∈ h.penaltyBound i now, v ≤ t := by
  have hwindow : (∀ v ∈ h.windowBound i now, v ≤ t) ↔
      (1 ≤ i.limit.hits.toNat → i.limit.HasRoom h.entries t) ∧
        (i.limit.hits.toNat = 0 → now + (i.limit.periodDelay : Int) ≤ t) := by
    by_cases hnone : i.limit.hits.toNat = 0
    · simp [windowBound, hnone]
    · have hpos := Nat.one_le_iff_ne_zero.2 hnone
      rw [← hasRoom_iff_windowBound hl hpos hnow]
      exact ⟨fun hroom => ⟨fun _ => hroom, fun hzero => absurd hzero hnone⟩, fun h => h.1 hpos⟩
  have hpenalty : (∀ v ∈ h.penaltyBound i now, v ≤ t) ↔
      (i.state.restriction ≠ 0 →
        h.latest?.getD now + (i.state.restrictionDelay : Int) ≤ t) := by
    unfold penaltyBound
    split
    · rename_i hfree
      simp [hfree]
    · rename_i hrestricted
      simp [hrestricted]
  rw [hwindow, hpenalty]
  constructor
  · rintro ⟨hroom, hshut, hserved⟩
    exact ⟨⟨hroom, hshut⟩, hserved⟩
  · rintro ⟨⟨hroom, hshut⟩, hserved⟩
    exact ⟨hroom, hshut, hserved⟩

/-- An item has a constraint if the calendar holds its instants, and then it is the later of the two
bounds. -/
theorem itemConstraint_eq_ok (hl : Falling h.entries) :
    h.itemConstraint i now = .ok c ↔
      h.Representable i now ∧ c = later? (h.windowBound i now) (h.penaltyBound i now) := by
  simp only [itemConstraint_eq_ok_iff, windowConstraint_eq_ok_iff hl,
    restrictionConstraint_eq_ok_iff, representable_iff]
  constructor
  · rintro ⟨x, y, ⟨hstart, hroom, rfl⟩, ⟨hserved, rfl⟩, rfl⟩
    exact ⟨⟨hstart, hroom, hserved⟩, rfl⟩
  · rintro ⟨⟨hstart, hroom, hserved⟩, rfl⟩
    exact ⟨_, _, ⟨hstart, hroom, rfl⟩, ⟨hserved, rfl⟩, rfl⟩

/-! ## All items -/

/-- The safe instant is there exactly if the calendar holds the instants on which it depends, and it
is the first one, from `now` on, at which every item lets a request through. -/
theorem nextSafeSend_least (capacity : Nat) (es : List Edit) (p : Policy) (now t : Moment) :
    ((empty capacity).edited es).nextSafeSend p now = .ok t ↔
      (∀ i ∈ p.items, ((empty capacity).edited es).Representable i now) ∧
        IsLeast {u | now ≤ u ∧ ∀ i ∈ p.items, ((empty capacity).edited es).Admits i now u} t := by
  have hl := ((tidy_empty capacity).edited es).falling
  generalize (empty capacity).edited es = h at hl
  have hthere (i : Item) : (∃ c, h.itemConstraint i now = .ok c) ↔ h.Representable i now := by
    simp only [itemConstraint_eq_ok hl, exists_and_left, exists_eq, and_true]
  refine foldlM_eq_ok_iff.trans ?_
  simp only [hthere]
  refine and_congr_right fun hrange => ?_
  have hset : {u | now ≤ u ∧ ∀ i ∈ p.items, ∀ c, h.itemConstraint i now = .ok c → ∀ v ∈ c, v ≤ u} =
      {u | now ≤ u ∧ ∀ i ∈ p.items, h.Admits i now u} := by
    ext u
    refine and_congr_right fun hnow => forall₂_congr fun i hi => ?_
    rw [admits_iff hl hnow, ← later?_le_iff]
    exact ⟨fun hc => hc _ ((itemConstraint_eq_ok hl).2 ⟨hrange i hi, rfl⟩),
      fun hbound c hc => ((itemConstraint_eq_ok hl).1 hc).2 ▸ hbound⟩
  rw [hset]

end History

end Throttle
