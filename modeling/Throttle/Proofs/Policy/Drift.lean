import Mathlib.Data.List.Forall2
import Throttle.Policy.Drift

/-!
  Drift between two policies, found exactly. A `Site` is a place at which policies can differ, and
  `Differs` says which change stands for a difference there. The list of changes goes through the sites
  in order and leaves none out (`Charted`, `driftFrom_exact`), so it is empty if nothing differs but
  states. Seen from the other side the changes are the same, with before and after exchanged
  (`Mirrors`).

  Lists of rules and of items are compared by recursion, each part with the sites that it covers; what
  is charted of the parts is put together by `Charted.append`.
-/

namespace Throttle

/-! ## Sites -/

/-- A place at which two policies can differ; rules and items are given by their positions. -/
inductive Site where
  | name
  | ruleCount
  | ruleName (rule : Nat)
  | itemCount (rule : Nat)
  | limit (rule item : Nat)

namespace Site

/-- The policy as a whole comes first, then one rule after the other; of a rule its name, the number
of its items, and one limit after the other. -/
def rank : Site → Nat × Nat
  | name => (0, 0)
  | ruleCount => (0, 1)
  | ruleName k => (k + 1, 0)
  | itemCount k => (k + 1, 1)
  | limit k j => (k + 1, j + 2)

def Before (s t : Site) : Prop :=
  s.rank.1 < t.rank.1 ∨ s.rank.1 = t.rank.1 ∧ s.rank.2 < t.rank.2

end Site

/-! ## Lists of changes, charted by sites -/

/-- Some changes stand for the sites at which something differs: for each of them one, in order. -/
def Charted (D : Site → Drift → Prop) (ds : List Drift) : Prop :=
  ∃ sites : List Site, sites.Pairwise Site.Before ∧ List.Forall₂ D sites ds ∧
    ∀ s, s ∈ sites ↔ ∃ d, D s d

namespace Charted

variable {D E : Site → Drift → Prop} {ds es : List Drift} {s₀ : Site} {d₀ : Drift}

theorem congr (hD : Charted D ds) (h : ∀ s d, D s d ↔ E s d) : Charted E ds := by
  obtain rfl : D = E := funext fun s => funext fun d => propext (h s d)
  exact hD

theorem nil (h : ∀ s d, ¬ D s d) : Charted D [] :=
  ⟨[], .nil, .nil, by simp [h]⟩

theorem singleton (s₀ : Site) (d₀ : Drift) : Charted (fun s d => s = s₀ ∧ d = d₀) [d₀] :=
  ⟨[s₀], List.pairwise_singleton _ _, .cons ⟨rfl, rfl⟩ .nil, by simp⟩

/-- Some changes where a condition holds, and one change where it does not. -/
theorem either (hD : Charted D ds) (c : Prop) [Decidable c] (s₀ : Site) (d₀ : Drift) :
    Charted (fun s d => c ∧ D s d ∨ ¬ c ∧ s = s₀ ∧ d = d₀) (if c then ds else [d₀]) := by
  by_cases hc : c
  · rw [if_pos hc]
    exact hD.congr (by simp [hc])
  · rw [if_neg hc]
    exact (singleton s₀ d₀).congr (by simp [hc])

theorem guarded (c : Prop) [Decidable c] (s₀ : Site) (d₀ : Drift) :
    Charted (fun s d => ¬ c ∧ s = s₀ ∧ d = d₀) (if c then [] else [d₀]) := by
  have hnone : Charted (fun _ _ => False) [] := nil fun _ _ => id
  exact (hnone.either c s₀ d₀).congr (by simp)

/-- Changes at earlier sites stand before those at later ones. -/
theorem append (hD : Charted D ds) (hE : Charted E es)
    (hbefore : ∀ s d t e, D s d → E t e → s.Before t) :
    Charted (fun s d => D s d ∨ E s d) (ds ++ es) := by
  obtain ⟨sites, hsorted, hds, hmem⟩ := hD
  obtain ⟨sites', hsorted', hes, hmem'⟩ := hE
  refine ⟨sites ++ sites', List.pairwise_append.2 ⟨hsorted, hsorted', ?_⟩, ?_, ?_⟩
  · intro s hs t ht
    obtain ⟨d, hd⟩ := (hmem s).1 hs
    obtain ⟨e, he⟩ := (hmem' t).1 ht
    exact hbefore s d t e hd he
  · exact List.rel_append (hds.imp fun s d => .inl) (hes.imp fun s d => .inr)
  · intro s
    rw [List.mem_append, hmem, hmem', exists_or]

end Charted

namespace Drift

variable {k : Nat} {r s : Rule} {rs ss : List Rule} {is js : List Item}

/-! ## Items and rules -/

/-- What differs between two lists of items, from a position of a rule on. -/
def ItemsDiffer (k : Nat) (rule : String) (index : Nat) (is js : List Item) (site : Site)
    (d : Drift) : Prop :=
  ∃ n i j, is[n]? = some i ∧ js[n]? = some j ∧ i.limit ≠ j.limit ∧
    site = .limit k (index + n) ∧ d = .limit rule (index + n) i.limit j.limit

theorem itemsDiffer_cons_iff {rule : String} {index : Nat} {i j : Item} {site : Site} {d : Drift} :
    ItemsDiffer k rule index (i :: is) (j :: js) site d ↔
      (¬ i.limit = j.limit ∧ site = .limit k index ∧ d = .limit rule index i.limit j.limit) ∨
        ItemsDiffer k rule (index + 1) is js site d := by
  constructor
  · rintro ⟨n, i', j', hi, hj, h, hsite, hd⟩
    cases n with
    | zero =>
      obtain rfl := Option.some.inj hi
      obtain rfl := Option.some.inj hj
      exact .inl ⟨h, hsite, hd⟩
    | succ n =>
      rw [← Nat.succ_add_eq_add_succ] at hsite hd
      exact .inr ⟨n, i', j', hi, hj, h, hsite, hd⟩
  · rintro (⟨h, hsite, hd⟩ | ⟨n, i', j', hi, hj, h, hsite, hd⟩)
    · exact ⟨0, i, j, rfl, rfl, h, hsite, hd⟩
    · rw [Nat.add_right_comm] at hsite hd
      exact ⟨n + 1, i', j', hi, hj, h, hsite, hd⟩

theorem ofItems_charted (k : Nat) (rule : String) (index : Nat) (is js : List Item) :
    Charted (ItemsDiffer k rule index is js) (ofItems rule index is js) := by
  induction is generalizing index js with
  | nil =>
    refine .nil ?_
    rintro _ _ ⟨n, i, j, hi, -⟩
    cases hi
  | cons i is ih =>
    cases js with
    | nil =>
      refine .nil ?_
      rintro _ _ ⟨n, i, j, -, hj, -⟩
      cases hj
    | cons j js =>
      refine ((Charted.guarded (i.limit = j.limit) (.limit k index) _).append (ih (index + 1) js)
        ?_).congr fun site d => itemsDiffer_cons_iff.symm
      rintro _ _ _ _ ⟨-, rfl, rfl⟩ ⟨n, -, -, -, -, -, rfl, -⟩
      exact .inr ⟨rfl, by simp only [Site.rank]; omega⟩

/-- How two rules at one position differ. Limits are compared where there are as many of one as of
the other; a change names the later rule. -/
inductive RulesDiffer (k : Nat) (r s : Rule) : Site → Drift → Prop where
  | name (h : r.name ≠ s.name) : RulesDiffer k r s (.ruleName k) (.ruleRenamed r.name s.name)
  | itemCount (h : r.items.length ≠ s.items.length) :
      RulesDiffer k r s (.itemCount k) (.itemCount s.name r.items.length s.items.length)
  | limit {n : Nat} {i j : Item} (hcount : r.items.length = s.items.length)
      (hi : r.items[n]? = some i) (hj : s.items[n]? = some j) (h : i.limit ≠ j.limit) :
      RulesDiffer k r s (.limit k n) (.limit s.name n i.limit j.limit)

theorem RulesDiffer.rank {site : Site} {d : Drift} (h : RulesDiffer k r s site d) :
    site.rank.1 = k + 1 := by
  cases h <;> rfl

theorem ofRule_charted (k : Nat) (r s : Rule) : Charted (RulesDiffer k r s) (ofRule r s) := by
  refine ((Charted.guarded (r.name = s.name) (.ruleName k) _).append
    ((ofItems_charted k s.name 0 r.items s.items).either (r.items.length = s.items.length)
      (.itemCount k) _) ?_).congr fun site d => ?_
  · rintro _ _ _ _ ⟨-, rfl, rfl⟩ (⟨-, n, -, -, -, -, -, rfl, -⟩ | ⟨-, rfl, rfl⟩)
    · exact .inr ⟨rfl, Nat.succ_pos _⟩
    · exact .inr ⟨rfl, Nat.one_pos⟩
  · constructor
    · rintro (⟨h, rfl, rfl⟩ | ⟨hcount, n, i, j, hi, hj, h, rfl, rfl⟩ | ⟨h, rfl, rfl⟩)
      · exact .name h
      · rw [Nat.zero_add]
        exact .limit hcount hi hj h
      · exact .itemCount h
    · rintro (h | h | ⟨hcount, hi, hj, h⟩)
      · exact .inl ⟨h, rfl, rfl⟩
      · exact .inr (.inr ⟨h, rfl, rfl⟩)
      · refine .inr (.inl ⟨hcount, _, _, _, hi, hj, h, ?_, ?_⟩) <;> rw [Nat.zero_add]

theorem ofRules_charted (k : Nat) (rs ss : List Rule) :
    Charted (fun site d => ∃ n r s, rs[n]? = some r ∧ ss[n]? = some s ∧
      RulesDiffer (k + n) r s site d) (ofRules rs ss) := by
  induction rs generalizing k ss with
  | nil =>
    refine .nil ?_
    rintro _ _ ⟨n, r, s, hr, hs, h⟩
    cases hr
  | cons r rs ih =>
    cases ss with
    | nil =>
      refine .nil ?_
      rintro _ _ ⟨n, r, s, hr, hs, h⟩
      cases hs
    | cons s ss =>
      refine ((ofRule_charted k r s).append (ih (k + 1) ss) ?_).congr fun site d => ?_
      · rintro site d site' e hfirst ⟨n, r', s', -, -, hrest⟩
        exact .inl (by rw [hfirst.rank, hrest.rank]; omega)
      · constructor
        · rintro (h | ⟨n, r', s', hr, hs, h⟩)
          · exact ⟨0, r, s, rfl, rfl, h⟩
          · exact ⟨n + 1, r', s', hr, hs, Nat.succ_add_eq_add_succ k n ▸ h⟩
        · rintro ⟨n, r', s', hr, hs, h⟩
          cases n with
          | zero =>
            obtain rfl := Option.some.inj hr
            obtain rfl := Option.some.inj hs
            exact .inl h
          | succ n => exact .inr ⟨n, r', s', hr, hs, Nat.succ_add_eq_add_succ k n ▸ h⟩

/-! ## No change -/

theorem ofItems_eq_nil_iff {rule : String} {index : Nat} (hcount : is.length = js.length) :
    ofItems rule index is js = [] ↔ is.map Item.limit = js.map Item.limit := by
  induction is generalizing index js with
  | nil =>
    cases js with
    | nil => simp [ofItems]
    | cons j js => cases hcount
  | cons i is ih =>
    cases js with
    | nil => cases hcount
    | cons j js =>
      rw [ofItems, List.append_eq_nil_iff, ih (Nat.succ.inj hcount), List.map_cons, List.map_cons,
        List.cons.injEq]
      simp

theorem ofRule_eq_nil_iff :
    ofRule r s = [] ↔ r.name = s.name ∧ r.items.map Item.limit = s.items.map Item.limit := by
  unfold ofRule
  by_cases hcount : r.items.length = s.items.length
  · rw [if_pos hcount, List.append_eq_nil_iff, ofItems_eq_nil_iff hcount]
    simp
  · rw [if_neg hcount]
    simp only [List.append_eq_nil_iff, List.cons_ne_nil, and_false, false_iff, not_and]
    intro _ hlimits
    exact hcount (by simpa using congrArg List.length hlimits)

theorem ofRules_eq_nil_iff (hcount : rs.length = ss.length) :
    ofRules rs ss = [] ↔ rs.map Rule.name = ss.map Rule.name ∧
      (rs.map fun r => r.items.map Item.limit) = ss.map fun s => s.items.map Item.limit := by
  induction rs generalizing ss with
  | nil =>
    cases ss with
    | nil => simp [ofRules]
    | cons s ss => cases hcount
  | cons r rs ih =>
    cases ss with
    | nil => cases hcount
    | cons s ss =>
      simp only [ofRules, List.append_eq_nil_iff, ofRule_eq_nil_iff, ih (Nat.succ.inj hcount),
        List.map_cons, List.cons.injEq]
      exact and_and_and_comm

/-! ## The other side -/

/-- The same change, with before and after exchanged, under the name of either rule. -/
inductive Mirrors : Drift → Drift → Prop where
  | renamed (a b : String) : Mirrors (.renamed a b) (.renamed b a)
  | ruleCount (a b : Nat) : Mirrors (.ruleCount a b) (.ruleCount b a)
  | ruleRenamed (a b : String) : Mirrors (.ruleRenamed a b) (.ruleRenamed b a)
  | itemCount (rule rule' : String) (a b : Nat) :
      Mirrors (.itemCount rule a b) (.itemCount rule' b a)
  | limit (rule rule' : String) (index : Nat) (a b : Window) :
      Mirrors (.limit rule index a b) (.limit rule' index b a)

/-- What is found where two things are equal, and where they are not, seen from both sides. -/
theorem mirrors_ite {α : Type} [DecidableEq α] {a b : α} {ds es : List Drift} {d e : Drift}
    (hs : List.Forall₂ Mirrors ds es) (h : Mirrors d e) :
    List.Forall₂ Mirrors (if a = b then ds else [d]) (if b = a then es else [e]) := by
  by_cases hab : a = b
  · rw [if_pos hab, if_pos hab.symm]
    exact hs
  · rw [if_neg hab, if_neg (Ne.symm hab)]
    exact .cons h .nil

theorem ofItems_mirrors (rule rule' : String) (index : Nat) (is js : List Item) :
    List.Forall₂ Mirrors (ofItems rule index is js) (ofItems rule' index js is) := by
  induction is generalizing index js with
  | nil => cases js <;> exact .nil
  | cons i is ih =>
    cases js with
    | nil => exact .nil
    | cons j js =>
      exact List.rel_append (mirrors_ite .nil (.limit rule rule' index _ _)) (ih (index + 1) js)

theorem ofRule_mirrors (r s : Rule) : List.Forall₂ Mirrors (ofRule r s) (ofRule s r) :=
  List.rel_append (mirrors_ite .nil (.ruleRenamed _ _))
    (mirrors_ite (ofItems_mirrors _ _ 0 _ _) (.itemCount _ _ _ _))

theorem ofRules_mirrors (rs ss : List Rule) :
    List.Forall₂ Mirrors (ofRules rs ss) (ofRules ss rs) := by
  induction rs generalizing ss with
  | nil => cases ss <;> exact .nil
  | cons r rs ih =>
    cases ss with
    | nil => exact .nil
    | cons s ss => exact List.rel_append (ofRule_mirrors r s) (ih ss)

end Drift

namespace Policy

open Drift

/-! ## Policies -/

/-- How a policy differs from an earlier one. Rules are compared where there are as many of one as of
the other. -/
inductive Differs (previous current : Policy) : Site → Drift → Prop where
  | name (h : previous.name ≠ current.name) :
      Differs previous current .name (.renamed previous.name.text current.name.text)
  | ruleCount (h : previous.rules.length ≠ current.rules.length) :
      Differs previous current .ruleCount
        (.ruleCount previous.rules.length current.rules.length)
  | rule {k : Nat} {r s : Rule} {site : Site} {d : Drift}
      (hcount : previous.rules.length = current.rules.length)
      (hr : previous.rules[k]? = some r) (hs : current.rules[k]? = some s)
      (h : RulesDiffer k r s site d) : Differs previous current site d

theorem driftFrom_charted (previous current : Policy) :
    Charted (Differs previous current) (current.driftFrom previous) := by
  refine ((Charted.guarded (previous.name = current.name) .name _).append
    ((ofRules_charted 0 previous.rules current.rules).either
      (previous.rules.length = current.rules.length) .ruleCount _) ?_).congr fun site d => ?_
  · rintro _ _ _ _ ⟨-, rfl, rfl⟩ (⟨-, n, r, s, -, -, h⟩ | ⟨-, rfl, rfl⟩)
    · exact .inl (h.rank ▸ Nat.succ_pos _)
    · exact .inr ⟨rfl, Nat.one_pos⟩
  · constructor
    · rintro (⟨h, rfl, rfl⟩ | ⟨hcount, n, r, s, hr, hs, h⟩ | ⟨h, rfl, rfl⟩)
      · exact .name h
      · exact .rule hcount hr hs (Nat.zero_add n ▸ h)
      · exact .ruleCount h
    · rintro (h | h | ⟨hcount, hr, hs, h⟩)
      · exact .inl ⟨h, rfl, rfl⟩
      · exact .inr (.inr ⟨h, rfl, rfl⟩)
      · exact .inr (.inl ⟨hcount, _, _, _, hr, hs, (Nat.zero_add _).symm ▸ h⟩)

theorem driftFrom_eq_nil_iff (previous current : Policy) :
    current.driftFrom previous = [] ↔ previous.name = current.name ∧
      previous.rules.map Rule.name = current.rules.map Rule.name ∧
        (previous.rules.map fun r => r.items.map Item.limit) =
          current.rules.map fun r => r.items.map Item.limit := by
  unfold driftFrom
  by_cases hcount : previous.rules.length = current.rules.length
  · rw [if_pos hcount, List.append_eq_nil_iff, ofRules_eq_nil_iff hcount]
    simp
  · rw [if_neg hcount]
    simp only [List.append_eq_nil_iff, List.cons_ne_nil, and_false, false_iff, not_and]
    intro _ hnames
    exact absurd (by simpa using congrArg List.length hnames) hcount

theorem driftFrom_mirrors (previous current : Policy) :
    List.Forall₂ Mirrors (current.driftFrom previous) (previous.driftFrom current) :=
  List.rel_append (mirrors_ite .nil (.renamed _ _))
    (mirrors_ite (ofRules_mirrors _ _) (.ruleCount _ _))

/-- The drift between two policies is exact. There is none if and only if the policies have one name,
their rules have the same names in order, and each rule has the same limits in order, so as many of
them; states and statuses do not matter. Each difference is reported once, in the order of the sites,
and nothing else is. And in the other direction the same changes are found, with before and after
exchanged. -/
theorem driftFrom_exact (previous current : Policy) :
    (current.driftFrom previous = [] ↔ previous.name = current.name ∧
      previous.rules.map Rule.name = current.rules.map Rule.name ∧
        (previous.rules.map fun r => r.items.map Item.limit) =
          current.rules.map fun r => r.items.map Item.limit) ∧
      Charted (Differs previous current) (current.driftFrom previous) ∧
      List.Forall₂ Mirrors (current.driftFrom previous) (previous.driftFrom current) :=
  ⟨driftFrom_eq_nil_iff previous current, driftFrom_charted previous current,
    driftFrom_mirrors previous current⟩

end Policy

end Throttle
