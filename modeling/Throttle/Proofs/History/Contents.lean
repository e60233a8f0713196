import Mathlib.Data.List.Induction
import Mathlib.Data.List.Sort
import Throttle.Proofs.History.Least

/-!
  What a history holds after any changes: of the instants that were recorded, the newest, as many as
  there was room for (`take_edited`). The argument is that the first `k` entries do not depend on
  what lies behind them: an instant that is placed in a list gives the same first `k` entries as one
  that is placed in the first `k` of them (`take_place`). So nothing is lost that the first `k`
  entries need, as long as there is room for `k` at each record.

  A growth asks for room for as many entries as the new capacity has beyond those that are there, a
  difference that must not go below zero. It does not, as the entries fit (`grow?_eq`).
-/

namespace Throttle

namespace History

variable {h : History} {es : List Edit} {e : Edit} {t : Moment} {k capacity : Nat}

/-! ## Placing an instant -/

theorem place_perm_cons (t : Moment) (l : List Moment) : (place t l).Perm (t :: l) := by
  induction l with
  | nil => exact .refl _
  | cons a l ih =>
    unfold place
    split
    · exact .refl _
    · exact (ih.cons a).trans (.swap t a l)

/-- The first entries after an instant is placed do not depend on what lies behind them. -/
theorem take_place (t : Moment) (l : List Moment) (k : Nat) :
    (place t l).take k = (place t (l.take k)).take k := by
  induction l generalizing k with
  | nil => rw [List.take_nil]
  | cons a l ih =>
    cases k with
    | zero => rfl
    | succ k =>
      rw [List.take_succ_cons]
      unfold place
      split
      · have hfront : a :: l.take k = (a :: l).take (k + 1) := List.take_succ_cons.symm
        rw [List.take_succ_cons, List.take_succ_cons, hfront, List.take_take,
          Nat.min_eq_left (Nat.le_succ k)]
      · rw [List.take_succ_cons, List.take_succ_cons, ih]

/-- Instants, the newest first. -/
def newestFirst (dates : List Moment) : List Moment := dates.mergeSort (· ≥ ·)

theorem newestFirst_perm (dates : List Moment) : (newestFirst dates).Perm dates :=
  List.mergeSort_perm dates _

theorem falling_newestFirst (dates : List Moment) : Falling (newestFirst dates) :=
  List.pairwise_mergeSort' (· ≥ ·) dates

/-- An instant that is recorded takes its place among the others. -/
theorem place_newestFirst (t : Moment) (dates : List Moment) :
    place t (newestFirst dates) = newestFirst (dates ++ [t]) := by
  have hperm : (place t (newestFirst dates)).Perm (newestFirst (dates ++ [t])) :=
    calc (place t (newestFirst dates)).Perm (t :: newestFirst dates) := place_perm_cons t _
      _ |>.Perm (t :: dates) := (newestFirst_perm dates).cons t
      _ |>.Perm (dates ++ [t]) := (List.perm_append_singleton t dates).symm
      _ |>.Perm (newestFirst (dates ++ [t])) := (newestFirst_perm _).symm
  exact hperm.eq_of_pairwise (fun a b _ _ hab hba => Int.le_antisymm hba hab)
    (falling_place (falling_newestFirst dates) t) (falling_newestFirst _)

/-! ## Changes -/

/-- The instant that a change records. -/
def Edit.pushes? : Edit → Option Moment
  | push t => some t
  | grow _ => none

/-- The capacity that a change asks for. -/
def Edit.asks? : Edit → Option Nat
  | push _ => none
  | grow capacity => some capacity

/-- The instants that some changes record, in their order. -/
def pushed (es : List Edit) : List Moment := es.filterMap Edit.pushes?

/-- The capacities that some changes ask for. -/
def asked (es : List Edit) : List Nat := es.filterMap Edit.asks?

/-- At each record among some changes there is room for `k` entries. -/
def RoomFor (k : Nat) (h : History) (es : List Edit) : Prop :=
  ∀ front t back, es = front ++ .push t :: back → k ≤ (h.edited front).capacity

theorem edited_snoc (h : History) (es : List Edit) (e : Edit) :
    h.edited (es ++ [e]) = (h.edited es).edit e := by
  unfold edited
  rw [List.foldl_append]
  rfl

theorem pushed_snoc (es : List Edit) (e : Edit) :
    pushed (es ++ [e]) = pushed es ++ e.pushes?.toList := by
  unfold pushed
  rw [List.filterMap_append]
  cases e <;> rfl

theorem asked_snoc (es : List Edit) (e : Edit) : asked (es ++ [e]) = asked es ++ e.asks?.toList := by
  unfold asked
  rw [List.filterMap_append]
  cases e <;> rfl

theorem RoomFor.front (hroom : RoomFor k h (es ++ [e])) : RoomFor k h es := by
  intro front t back hes
  refine hroom front t (back ++ [e]) ?_
  rw [hes, List.append_assoc, List.cons_append]

theorem RoomFor.last (hroom : RoomFor k h (es ++ [.push t])) : k ≤ (h.edited es).capacity :=
  hroom es t [] rfl

/-! ## Capacity -/

theorem capacity_edit (h : History) (e : Edit) :
    (h.edit e).capacity = e.asks?.toList.foldl max h.capacity := by
  cases e <;> rfl

/-- The capacity is the greatest that was ever asked for. -/
theorem capacity_edited (h : History) (es : List Edit) :
    (h.edited es).capacity = (asked es).foldl max h.capacity := by
  induction es using List.reverseRecOn with
  | nil => rfl
  | append_singleton es e ih => rw [edited_snoc, capacity_edit, ih, asked_snoc, List.foldl_append]

/-- The capacity never falls. -/
theorem capacity_le_edited (h : History) (es : List Edit) :
    h.capacity ≤ (h.edited es).capacity := by
  induction es using List.reverseRecOn with
  | nil => exact Nat.le_refl _
  | append_singleton es e ih =>
    rw [edited_snoc]
    cases e with
    | push t => exact ih
    | grow capacity => exact Nat.le_trans ih (Nat.le_max_left _ _)

/-! ## Growth -/

/-- A growth comes to an end if the entries fit. -/
theorem grow?_eq (hfits : h.entries.length ≤ h.capacity) (capacity : Nat) :
    h.grow? capacity = some (decide (h.capacity < capacity), h.grow capacity) := by
  unfold grow? grow
  split
  · rename_i hle
    rw [Nat.max_eq_left hle, decide_eq_false (Nat.not_lt.2 hle)]
  · rename_i hlt
    have hlt : h.capacity < capacity := Nat.not_le.1 hlt
    have hroom : h.entries.length ≤ capacity := Nat.le_trans hfits (Nat.le_of_lt hlt)
    rw [shortage?, if_pos hroom, Nat.max_eq_right (Nat.le_of_lt hlt), decide_eq_true hlt]
    rfl

/-! ## Entries -/

theorem edit_subperm {dates : List Moment} (hh : h.entries.Subperm dates) (e : Edit) :
    (h.edit e).entries.Subperm (dates ++ e.pushes?.toList) := by
  cases e with
  | push t =>
    have hplaced : (place t h.entries).Subperm (dates ++ [t]) :=
      (place_perm_cons t h.entries).subperm.trans
        (((List.subperm_cons t).2 hh).trans (List.perm_append_singleton t dates).symm.subperm)
    exact (List.take_sublist _ _).subperm.trans hplaced
  | grow capacity =>
    rw [Edit.pushes?, Option.toList_none, List.append_nil]
    exact hh

/-- As long as there is room for `k` entries at each record, the first `k` are the newest instants of
all that were recorded. -/
theorem take_edited (hroom : RoomFor k (empty capacity) es) :
    ((empty capacity).edited es).entries.take k = (newestFirst (pushed es)).take k := by
  induction es using List.reverseRecOn with
  | nil => rw [pushed, List.filterMap_nil, newestFirst, List.mergeSort_nil]; rfl
  | append_singleton es e ih =>
    have ih := ih hroom.front
    rw [edited_snoc, pushed_snoc]
    cases e with
    | push t =>
      show ((place t ((empty capacity).edited es).entries).take _).take k = _
      rw [List.take_take, Nat.min_eq_left hroom.last, take_place, ih, ← take_place,
        place_newestFirst]
      rfl
    | grow c =>
      rw [Edit.pushes?, Option.toList_none, List.append_nil]
      exact ih

theorem subperm_edited (capacity : Nat) (es : List Edit) :
    ((empty capacity).edited es).entries.Subperm (pushed es) := by
  induction es using List.reverseRecOn with
  | nil => exact List.nil_subperm
  | append_singleton es e ih =>
    rw [edited_snoc, pushed_snoc]
    exact edit_subperm ih e

/-! ## The whole history -/

/-- What a history holds that was made with some capacity and changed since. -/
structure Contents (capacity : Nat) (es : List Edit) (h : History) : Prop where
  falling : Falling h.entries
  fits : h.entries.length ≤ h.capacity
  /-- The capacity is the greatest of the first one and all that were asked for. -/
  greatest : h.capacity = (asked es).foldl max capacity
  /-- It never falls, whatever comes next. -/
  rises : ∀ fs, h.capacity ≤ (h.edited fs).capacity
  /-- The room that a growth asks for is never below zero, and no entry is lost. -/
  grows : ∀ c, h.grow? c = some (decide (h.capacity < c), h.grow c) ∧
    (h.grow c).entries = h.entries
  /-- Every entry was recorded, as many times as it is there. -/
  recorded : h.entries.Subperm (pushed es)
  /-- The newest instants are there, as many as there was always room for. -/
  newest : ∀ k, RoomFor k (empty capacity) es → h.entries.take k = (newestFirst (pushed es)).take k

/-- A history holds what was recorded, the newest first, as far as there was room for it. -/
theorem contents_edited (capacity : Nat) (es : List Edit) :
    Contents capacity es ((empty capacity).edited es) := by
  have htidy := (tidy_empty capacity).edited es
  exact {
    falling := htidy.falling
    fits := htidy.fits
    greatest := capacity_edited (empty capacity) es
    rises := capacity_le_edited _
    grows := fun c => ⟨grow?_eq htidy.fits c, rfl⟩
    recorded := subperm_edited capacity es
    newest := fun _ => take_edited }

/-- What was recorded while there was room for two entries is lost beyond the second, and stays so. -/
example :
    ((empty 2).edited [.push 5, .push 9, .push 7, .grow 3, .push 1]).entries = [9, 7, 1] := by
  decide

end History

end Throttle
