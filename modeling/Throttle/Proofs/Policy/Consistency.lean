import Mathlib.Data.List.MinMax
import Mathlib.Order.Bounds.Basic
import Mathlib.Order.Nat
import Throttle.Policy.Basic

/-!
  Two judgements on one policy. Its status is folded from the items, first for each rule and then over
  the rules, and its consistency is looked up in the periods, item by item. They agree
  (`ofRules_judged`): a fold over rules of folds over items is a fold over all items
  (`foldr_flatMap_folds`), an item is inconsistent if and only if it is classified as invalid, and
  invalid is the worst classification there is.
-/

namespace Throttle

/-! ## Folds over nested lists -/

/-- A fold over the folds of some lists is the fold over all their elements. -/
theorem foldr_flatMap_folds {α β : Type} {op : β → β → β} {e : β} [Std.Associative op]
    [Std.LawfulLeftIdentity op e] (f : α → List β) (as : List α) :
    (as.flatMap f).foldr op e = (as.map fun a => (f a).foldr op e).foldr op e := by
  induction as with
  | nil => rfl
  | cons a as ih =>
    rw [List.flatMap_cons, List.map_cons, List.foldr_cons, ← ih, List.foldr_append]
    have hleft : op e ((as.flatMap f).foldr op e) = (as.flatMap f).foldr op e :=
      Std.LawfulLeftIdentity.left_id _
    calc (f a).foldr op ((as.flatMap f).foldr op e)
        = (f a).foldr op (op e ((as.flatMap f).foldr op e)) := by rw [hleft]
      _ = op ((f a).foldr op e) ((as.flatMap f).foldr op e) := List.foldr_assoc

/-- The greatest element of a set, or a given value if there is none. -/
def GreatestOr {α : Type} [LE α] (none : α) (s : Set α) (a : α) : Prop :=
  IsGreatest s a ∨ s = ∅ ∧ a = none

theorem greatestOr_foldr_max (ns : List Nat) : GreatestOr 0 {n | n ∈ ns} (ns.foldr max 0) := by
  by_cases hns : ns = []
  · subst hns
    exact .inr ⟨by simp, rfl⟩
  · exact .inl (List.maximum_eq_coe_iff.1 (List.foldr_max_of_ne_nil hns).symm)

namespace Status

variable {s : Status}

instance : Std.Associative (max : Status → Status → Status) where
  assoc a b c := severity_inj (by simp only [severity_max, Nat.max_assoc])

instance : Std.LawfulLeftIdentity (max : Status → Status → Status) unknown where
  left_id a := if_pos (Nat.zero_le a.severity)

theorem greatestOr_worst (ss : List Status) : GreatestOr unknown {s | s ∈ ss} (worst ss) := by
  by_cases hss : ss = []
  · subst hss
    exact .inr ⟨by simp, rfl⟩
  · exact .inl ⟨worst_mem hss, fun s hs => le_worst hs⟩

/-- Nothing is worse than invalid. -/
theorem eq_invalid_of_le (h : invalid ≤ s) : s = invalid := by
  cases s with
  | invalid => rfl
  | _ => exact absurd h (by decide)

/-- Among some states is an invalid one if and only if the worst of them is. -/
theorem worst_eq_invalid_iff {ss : List Status} : worst ss = invalid ↔ invalid ∈ ss := by
  constructor
  · intro hworst
    have hss : ss ≠ [] := by
      rintro rfl
      cases hworst
    exact hworst ▸ worst_mem hss
  · exact fun hmem => eq_invalid_of_le (le_worst hmem)

end Status

namespace Policy

variable {p q : Policy} {rule : String} {k : Nat} {is : List Item} {e : PolicyError}

/-! ## The status -/

theorem items_ofRules (name : PolicyName) (rules : List Rule) :
    (ofRules name rules).items = rules.flatMap Rule.items := rfl

/-- The status of a policy is the worst one of all its items. -/
theorem status_ofRules_eq (name : PolicyName) (rules : List Rule) :
    (ofRules name rules).status = Status.worst ((ofRules name rules).items.map Item.status) := by
  rw [items_ofRules, List.map_flatMap]
  exact (foldr_flatMap_folds _ rules).symm

/-- The most hits of a policy are the most of all its items. -/
theorem maximumHits_eq_foldr (p : Policy) :
    p.maximumHits = (p.items.map fun i => i.limit.hits.toNat).foldr max 0 := by
  rw [items, List.map_flatMap]
  exact (foldr_flatMap_folds _ p.rules).symm

/-- What the items of some rules are mapped to. -/
theorem setOf_mem_map_items {α : Type} (f : Item → α) (name : PolicyName) (rules : List Rule) :
    {a | a ∈ (ofRules name rules).items.map f} = {a | ∃ r ∈ rules, ∃ i ∈ r.items, f i = a} := by
  ext a
  simp only [items_ofRules, Set.mem_ofPred_eq, List.mem_map, List.mem_flatMap]
  constructor
  · rintro ⟨i, ⟨r, hr, hi⟩, ha⟩
    exact ⟨r, hr, i, hi, ha⟩
  · rintro ⟨r, hr, i, hi, ha⟩
    exact ⟨i, ⟨r, hr, hi⟩, ha⟩

/-! ## The first mismatch -/

/-- No item of a rule counts over different periods. -/
theorem mismatchIn?_eq_none_iff :
    mismatchIn? rule k is = none ↔ ∀ i ∈ is, i.Consistent := by
  induction is generalizing k with
  | nil => simp [mismatchIn?]
  | cons i is ih =>
    unfold mismatchIn?
    split
    · rename_i hi
      rw [ih, List.forall_mem_cons]
      exact (and_iff_right hi).symm
    · rename_i hi
      simp [hi]

theorem mismatch?_eq_none_iff : p.mismatch? = none ↔ ∀ i ∈ p.items, i.Consistent := by
  unfold mismatch? items
  rw [List.findSome?_eq_none_iff]
  simp only [mismatchIn?_eq_none_iff, List.mem_flatMap]
  exact ⟨fun h i ⟨r, hr, hi⟩ => h r hr i hi, fun h r hr i hi => h i ⟨r, hr, hi⟩⟩

/-- The mismatch of a rule is that of its first inconsistent item, which it gives by its position. -/
theorem mismatchIn?_eq_some_iff :
    mismatchIn? rule k is = some e ↔ ∃ front i back, is = front ++ i :: back ∧
      (∀ j ∈ front, j.Consistent) ∧ ¬ i.Consistent ∧
        e = .periodMismatch rule (k + front.length) i.limit i.state := by
  induction is generalizing k with
  | nil => simp [mismatchIn?]
  | cons i is ih =>
    unfold mismatchIn?
    split
    · rename_i hi
      rw [ih]
      constructor
      · rintro ⟨front, j, back, rfl, hfront, hj, rfl⟩
        refine ⟨i :: front, j, back, rfl, List.forall_mem_cons.2 ⟨hi, hfront⟩, hj, ?_⟩
        rw [List.length_cons, Nat.add_assoc, Nat.add_comm 1]
      · rintro ⟨front, j, back, hsplit, hfront, hj, rfl⟩
        cases front with
        | nil =>
          obtain ⟨rfl, -⟩ := List.cons.inj hsplit
          exact absurd hi hj
        | cons d front =>
          obtain ⟨rfl, rfl⟩ := List.cons.inj hsplit
          refine ⟨front, j, back, rfl, (List.forall_mem_cons.1 hfront).2, hj, ?_⟩
          rw [List.length_cons, Nat.add_assoc, Nat.add_comm 1]
    · rename_i hi
      constructor
      · intro he
        exact ⟨[], i, is, rfl, nofun, hi, (Option.some.inj he).symm⟩
      · rintro ⟨front, j, back, hsplit, hfront, hj, rfl⟩
        cases front with
        | nil =>
          obtain ⟨rfl, -⟩ := List.cons.inj hsplit
          rfl
        | cons d front =>
          obtain ⟨rfl, -⟩ := List.cons.inj hsplit
          exact absurd (hfront i List.mem_cons_self) hi

theorem ensureConsistent_eq_ok_iff :
    p.ensureConsistent = .ok q ↔ p.mismatch? = none ∧ q = p := by
  unfold ensureConsistent
  cases p.mismatch? <;> simp [eq_comm]

theorem ensureConsistent_eq_error_iff :
    p.ensureConsistent = .error e ↔ p.mismatch? = some e := by
  unfold ensureConsistent
  cases p.mismatch? <;> simp

/-- The report on the first item, in the order of the rules and of the items in each, that is
classified as invalid. -/
inductive FirstInvalid (rules : List Rule) : PolicyError → Prop where
  | report {above below : List Rule} {r : Rule} {front back : List Item} {i : Item}
      (hrules : rules = above ++ r :: below)
      (habove : ∀ s ∈ above, ∀ j ∈ s.items, classify j.limit j.state ≠ .invalid)
      (hitems : r.items = front ++ i :: back)
      (hfront : ∀ j ∈ front, classify j.limit j.state ≠ .invalid)
      (hinvalid : classify i.limit i.state = .invalid) :
      FirstInvalid rules (.periodMismatch r.name front.length i.limit i.state)

theorem consistent_iff_classify (i : Item) : i.Consistent ↔ classify i.limit i.state ≠ .invalid :=
  (not_iff_comm.1 i.status_eq_invalid_iff.symm).symm

/-- The mismatch that is reported is the first one. -/
theorem mismatch?_eq_some_iff : p.mismatch? = some e ↔ FirstInvalid p.rules e := by
  unfold mismatch?
  simp only [List.findSome?_eq_some_iff, mismatchIn?_eq_some_iff, mismatchIn?_eq_none_iff,
    consistent_iff_classify, not_not, Nat.zero_add]
  constructor
  · rintro ⟨above, r, below, hrules, ⟨front, i, back, hitems, hfront, hinvalid, rfl⟩, habove⟩
    exact .report hrules habove hitems hfront hinvalid
  · rintro ⟨hrules, habove, hitems, hfront, hinvalid⟩
    exact ⟨_, _, _, hrules, ⟨_, _, _, hitems, hfront, hinvalid, rfl⟩, habove⟩

/-- A policy has no mismatch if and only if it is not marked as invalid. -/
theorem mismatch?_ofRules_eq_none_iff (name : PolicyName) (rules : List Rule) :
    (ofRules name rules).mismatch? = none ↔ (ofRules name rules).status ≠ .invalid := by
  rw [mismatch?_eq_none_iff, status_ofRules_eq, ne_eq, Status.worst_eq_invalid_iff, List.mem_map]
  push Not
  exact forall₂_congr fun i _ => consistent_iff_classify i

/-! ## Agreement -/

/-- A policy that is made of rules allows as many hits as the most generous of their limits, and is
as severe as the worst classification of their items; without items it allows none, and its status is
unknown. It passes the check of its periods, unchanged, if and only if that status is not invalid;
and otherwise the check reports the first item that is classified as invalid. -/
theorem ofRules_judged (name : PolicyName) (rules : List Rule) :
    GreatestOr 0 {n | ∃ r ∈ rules, ∃ i ∈ r.items, i.limit.hits.toNat = n}
        (ofRules name rules).maximumHits ∧
      GreatestOr .unknown {s | ∃ r ∈ rules, ∃ i ∈ r.items, classify i.limit i.state = s}
        (ofRules name rules).status ∧
      (∀ p, (ofRules name rules).ensureConsistent = .ok p ↔
        (ofRules name rules).status ≠ .invalid ∧ p = ofRules name rules) ∧
      ∀ e, (ofRules name rules).ensureConsistent = .error e ↔ FirstInvalid rules e := by
  refine ⟨?_, ?_, ?_, ?_⟩
  · rw [← setOf_mem_map_items _ name, maximumHits_eq_foldr]
    exact greatestOr_foldr_max _
  · have hset := setOf_mem_map_items Item.status name rules
    rw [status_ofRules_eq]
    exact hset ▸ Status.greatestOr_worst _
  · intro p
    rw [ensureConsistent_eq_ok_iff, mismatch?_ofRules_eq_none_iff]
  · intro e
    rw [ensureConsistent_eq_error_iff]
    exact mismatch?_eq_some_iff

end Policy

end Throttle
