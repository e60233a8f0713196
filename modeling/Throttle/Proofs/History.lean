import Mathlib.Data.Int.Order.Basic
import Mathlib.Order.Bounds.Basic
import Throttle.History

/-!
  What a history guarantees. `Tidy` is kept by every change: the entries are in order, and there are
  no more of them than the capacity. On a tidy history, `nextSafeSend` is safe: from that instant
  on, fewer entries than the limit lie within the window of each item (`nextSafeSend_room`). The
  argument is about one entry of the list: in an ordered list, at most `k` entries are later than
  an instant exactly when the entry at place `k` is not (`count_later_le_iff`). So each window comes
  down to a bound (`hasRoom_iff_windowBound`), and the safe instant is the latest of the bounds
  (`foldlM_eq_ok_iff`).
-/

namespace Throttle

namespace Window

/-- How many dates a window counts at an instant: those later than its start. -/
def count (w : Window) (dates : List Moment) (t : Moment) : Nat :=
  (dates.filter (t - (w.periodDelay : Int) < ·)).length

/-- A window lets one more request through at an instant. -/
def HasRoom (w : Window) (dates : List Moment) (t : Moment) : Prop :=
  w.count dates t < w.hits.toNat

instance (w : Window) (dates : List Moment) (t : Moment) : Decidable (w.HasRoom dates t) :=
  inferInstanceAs (Decidable (_ < _))

end Window

namespace History

variable {h : History} {p : Policy} {i : Item} {w : Window} {l : List Int} {t now : Moment}
  {c : Option Moment}

/-! ## Ordered lists -/

/-- In order, the newest first. -/
abbrev Falling (l : List Int) : Prop := l.Pairwise fun a b => b ≤ a

theorem le_head {a e : Int} (hl : Falling (a :: l)) (he : e ∈ a :: l) : e ≤ a := by
  rcases List.mem_cons.1 he with rfl | he
  · exact Int.le_refl _
  · exact (List.pairwise_cons.1 hl).1 e he

/-- At most `k` entries are later than an instant if the one at place `k` is not. -/
theorem count_later_le_iff (hl : Falling l) (x : Int) (k : Nat) :
    (l.filter (x < ·)).length ≤ k ↔ ∀ e, l[k]? = some e → e ≤ x := by
  induction l generalizing k with
  | nil => simp
  | cons a l ih =>
    have hrest := (List.pairwise_cons.1 hl).2
    by_cases ha : x < a
    · rw [List.filter_cons_of_pos (by simpa using ha), List.length_cons]
      cases k with
      | zero =>
        have hnot : ¬ a ≤ x := Int.not_le.2 ha
        simp [hnot]
      | succ k =>
        rw [List.getElem?_cons_succ, ← ih hrest]
        exact Nat.succ_le_succ_iff
    · have hnone : (a :: l).filter (x < ·) = [] := by
        refine List.filter_eq_nil_iff.2 fun e he hxe => ha ?_
        have hle := le_head hl he
        have hlt := of_decide_eq_true hxe
        omega
      rw [hnone]
      refine ⟨?_, fun _ => Nat.zero_le k⟩
      intro _ e he
      have hle := le_head hl (List.mem_of_getElem? he)
      omega

/-- The entries later than an instant come first. -/
theorem takeWhile_getElem? (hl : Falling l) (x : Int) (k : Nat) :
    (l.takeWhile (x < ·))[k]? = l[k]?.filter (x < ·) := by
  induction l generalizing k with
  | nil => rfl
  | cons a l ih =>
    have hrest := (List.pairwise_cons.1 hl).2
    by_cases ha : x < a
    · rw [List.takeWhile_cons_of_pos (by simpa using ha)]
      cases k with
      | zero => exact (if_pos (decide_eq_true ha)).symm
      | succ k => exact ih hrest k
    · rw [List.takeWhile_cons_of_neg (by simpa using ha)]
      cases he : (a :: l)[k]? with
      | none => rfl
      | some e =>
        have hle := le_head hl (List.mem_of_getElem? he)
        have hnot : ¬ x < e := by omega
        exact (if_neg (by simpa using hnot)).symm

theorem mem_place {e t : Int} : e ∈ place t l ↔ e = t ∨ e ∈ l := by
  induction l with
  | nil => simp [place]
  | cons a l ih =>
    unfold place
    split
    · simp
    · rw [List.mem_cons, List.mem_cons, ih]
      exact or_left_comm

theorem falling_place (hl : Falling l) (t : Int) : Falling (place t l) := by
  induction l with
  | nil => exact List.pairwise_singleton _ _
  | cons a l ih =>
    obtain ⟨hhead, hrest⟩ := List.pairwise_cons.1 hl
    unfold place
    split
    · rename_i hat
      refine List.pairwise_cons.2 ⟨?_, hl⟩
      intro e he
      exact Int.le_trans (le_head hl he) hat
    · rename_i hat
      refine List.pairwise_cons.2 ⟨?_, ih hrest⟩
      intro e he
      rcases mem_place.1 he with rfl | he
      · exact Int.le_of_lt (Int.not_le.1 hat)
      · exact hhead e he

/-- An instant that is not earlier than any entry comes first. -/
theorem place_of_latest (h : ∀ e ∈ l, e ≤ t) : place t l = t :: l := by
  cases l with
  | nil => rfl
  | cons a l => exact if_pos (h a List.mem_cons_self)

/-! ## Tidy histories -/

/-- The entries are in order, and fit. -/
structure Tidy (h : History) : Prop where
  falling : Falling h.entries
  fits : h.entries.length ≤ h.capacity

theorem tidy_empty (capacity : Nat) : (empty capacity).Tidy where
  falling := .nil
  fits := Nat.zero_le capacity

protected theorem Tidy.push (hh : h.Tidy) (t : Moment) : (h.push t).Tidy where
  falling := (falling_place hh.falling t).sublist (List.take_sublist _ _)
  fits := List.length_take_le _ _

protected theorem Tidy.grow (hh : h.Tidy) (capacity : Nat) : (h.grow capacity).Tidy where
  falling := hh.falling
  fits := Nat.le_trans hh.fits (Nat.le_max_left _ _)

/-! ## The safe instant -/

/-- Every item lets one more request through at an instant; a limit of none is left out. -/
def Room (h : History) (p : Policy) (t : Moment) : Prop :=
  ∀ i ∈ p.items, 1 ≤ i.limit.hits.toNat → i.limit.HasRoom h.entries t

instance (h : History) (p : Policy) (t : Moment) : Decidable (h.Room p t) :=
  inferInstanceAs (Decidable (∀ i ∈ p.items, _ → _))

theorem hasRoom_iff (hl : Falling l) (hpos : 1 ≤ w.hits.toNat) :
    w.HasRoom l t ↔ ∀ e, l[w.hits.toNat - 1]? = some e → e + (w.periodDelay : Int) ≤ t := by
  have hle : w.HasRoom l t ↔
      (l.filter (t - (w.periodDelay : Int) < ·)).length ≤ w.hits.toNat - 1 := by
    unfold Window.HasRoom Window.count
    omega
  rw [hle, count_later_le_iff hl]
  refine forall_congr' fun e => imp_congr_right ?_
  intro _
  omega

/-- When the window of an item next has room, if that is not at once. -/
def windowBound (h : History) (i : Item) (now : Moment) : Option Moment :=
  if i.limit.hits.toNat = 0 then some (now + (i.limit.periodDelay : Int))
  else (h.entries[i.limit.hits.toNat - 1]?.filter
    (now - (i.limit.periodDelay : Int) < ·)).map (· + (i.limit.periodDelay : Int))

/-- When the penalty of an item is over, if there is one. -/
def penaltyBound (h : History) (i : Item) (now : Moment) : Option Moment :=
  if i.state.restriction = 0 then none
  else some (h.latest?.getD now + (i.state.restrictionDelay : Int))

theorem after_map_some_eq_ok_iff {d : Delay} :
    (Moment.after t d).map some = .ok c ↔
      Moment.InRange (t + (d : Int)) ∧ c = some (t + (d : Int)) := by
  unfold Moment.after Moment.checked
  split
  · rename_i hrange
    simp [Except.map, hrange, eq_comm]
  · rename_i hout
    simp [Except.map, hout]

theorem windowConstraint_eq_ok_iff (hl : Falling h.entries) :
    h.windowConstraint i now = .ok c ↔
      Moment.InRange (now - (i.limit.periodDelay : Int)) ∧
        (∀ v ∈ h.windowBound i now, Moment.InRange v) ∧ c = h.windowBound i now := by
  unfold windowConstraint windowBound
  by_cases hstart : Moment.InRange (now - (i.limit.periodDelay : Int))
  · have hbefore : Moment.before now i.limit.periodDelay =
        .ok (now - (i.limit.periodDelay : Int)) := Moment.checked_eq_ok_iff.2 ⟨hstart, rfl⟩
    simp only [hbefore, hstart, true_and]
    dsimp only [bind, Except.bind]
    cases hhits : i.limit.hits.toNat with
    | zero =>
      simp only [if_true]
      refine after_map_some_eq_ok_iff.trans ?_
      simp
    | succ k =>
      simp only [takeWhile_getElem? hl, Nat.add_one_ne_zero, if_false, Nat.add_sub_cancel]
      cases he : h.entries[k]?.filter (now - (i.limit.periodDelay : Int) < ·) with
      | none => simp [pure, Except.pure, eq_comm]
      | some e =>
        refine after_map_some_eq_ok_iff.trans ?_
        simp
  · have hbefore : Moment.before now i.limit.periodDelay = .error .calendar := if_neg hstart
    simp only [hbefore, hstart, false_and, iff_false]
    nofun

theorem restrictionConstraint_eq_ok_iff :
    h.restrictionConstraint i now = .ok c ↔
      (∀ v ∈ h.penaltyBound i now, Moment.InRange v) ∧ c = h.penaltyBound i now := by
  unfold restrictionConstraint penaltyBound
  split
  · simp [eq_comm]
  · refine after_map_some_eq_ok_iff.trans ?_
    simp

theorem itemConstraint_eq_ok_iff :
    h.itemConstraint i now = .ok c ↔ ∃ x y, h.windowConstraint i now = .ok x ∧
      h.restrictionConstraint i now = .ok y ∧ c = later? x y := by
  unfold itemConstraint
  cases h.windowConstraint i now with
  | error o => simp [bind, Except.bind]
  | ok x =>
    cases h.restrictionConstraint i now with
    | error o => simp [bind, Except.bind]
    | ok y => simp [bind, Except.bind, pure, Except.pure, eq_comm]

theorem later?_le_iff {x y : Option Moment} :
    (∀ v ∈ later? x y, v ≤ t) ↔ (∀ v ∈ x, v ≤ t) ∧ ∀ v ∈ y, v ≤ t := by
  cases x with
  | none => simp [later?]
  | some v =>
    cases y with
    | none => simp [later?]
    | some u => simp [later?]

/-- From `now` on, the window of an item has room as soon as its bound has come. -/
theorem hasRoom_iff_windowBound (hl : Falling h.entries) (hpos : 1 ≤ i.limit.hits.toNat)
    (hnow : now ≤ t) : i.limit.HasRoom h.entries t ↔ ∀ v ∈ h.windowBound i now, v ≤ t := by
  rw [hasRoom_iff hl hpos, windowBound, if_neg (Nat.one_le_iff_ne_zero.1 hpos)]
  constructor
  · intro hroom v hv
    obtain ⟨e, he, rfl⟩ := Option.map_eq_some_iff.1 hv
    exact hroom e (Option.filter_eq_some_iff.1 he).1
  · intro hbound e he
    -- an entry that is out of the window at `now` does not come back into it
    by_cases hin : now - (i.limit.periodDelay : Int) < e
    · refine hbound _ (Option.map_eq_some_iff.2 ⟨e, ?_, rfl⟩)
      exact Option.filter_eq_some_iff.2 ⟨he, decide_eq_true hin⟩
    · exact Int.le_trans (Int.add_le_of_le_sub_right (Int.not_lt.1 hin)) hnow

/-- The latest of a start and some constraints is the first instant, from the start on, that is not
before any of them. -/
theorem foldlM_eq_ok_iff {items : List Item} {f : Item → Except Overflow (Option Moment)}
    {start : Moment} :
    items.foldlM (fun t i => return (← f i).elim t (max t)) start = .ok t ↔
      (∀ i ∈ items, ∃ c, f i = .ok c) ∧
        IsLeast {u | start ≤ u ∧ ∀ i ∈ items, ∀ c, f i = .ok c → ∀ v ∈ c, v ≤ u} t := by
  induction items generalizing start with
  | nil =>
    have hleast : IsLeast {u : Moment | start ≤ u} t ↔ start = t :=
      ⟨isLeast_Ici.unique, fun heq => heq ▸ isLeast_Ici⟩
    simp only [List.not_mem_nil, false_imp_iff, implies_true, and_true, true_and, hleast]
    exact ⟨Except.ok.inj, congrArg Except.ok⟩
  | cons a items ih =>
    rw [List.foldlM_cons]
    cases ha : f a with
    | error o =>
      constructor
      · nofun
      · rintro ⟨hall, -⟩
        obtain ⟨c, hc⟩ := hall a List.mem_cons_self
        exact nomatch ha.symm.trans hc
    | ok c =>
      have hfirst (u : Moment) : c.elim start (max start) ≤ u ↔ start ≤ u ∧ ∀ v ∈ c, v ≤ u := by
        cases c with
        | none => simp
        | some x => simp
      have hset : {u | c.elim start (max start) ≤ u ∧
            ∀ i ∈ items, ∀ c, f i = .ok c → ∀ v ∈ c, v ≤ u} =
          {u | start ≤ u ∧ ∀ i ∈ a :: items, ∀ c, f i = .ok c → ∀ v ∈ c, v ≤ u} := by
        ext u
        simp [hfirst, ha, and_assoc]
      refine ih.trans ?_
      rw [hset, List.forall_mem_cons]
      exact and_congr_left' ⟨fun hrest => ⟨⟨c, ha⟩, hrest⟩, And.right⟩

theorem le_of_nextSafeSend (hsafe : h.nextSafeSend p now = .ok t) : now ≤ t :=
  (foldlM_eq_ok_iff.1 hsafe).2.1.1

/-- From the safe instant on, every item has room. -/
theorem nextSafeSend_room (hh : h.Tidy) (hsafe : h.nextSafeSend p now = .ok t) :
    now ≤ t ∧ ∀ u, t ≤ u → h.Room p u := by
  obtain ⟨hall, ⟨hnow, hbound⟩, -⟩ := foldlM_eq_ok_iff.1 hsafe
  refine ⟨hnow, ?_⟩
  intro u htu i hi hpos
  obtain ⟨c, hc⟩ := hall i hi
  obtain ⟨x, y, hx, -, rfl⟩ := itemConstraint_eq_ok_iff.1 hc
  obtain ⟨-, -, rfl⟩ := (windowConstraint_eq_ok_iff hh.falling).1 hx
  rw [hasRoom_iff_windowBound hh.falling hpos (Int.le_trans hnow htu)]
  intro v hv
  exact Int.le_trans ((later?_le_iff.1 (hbound i hi _ hc)).1 v hv) htu

end History

end Throttle
