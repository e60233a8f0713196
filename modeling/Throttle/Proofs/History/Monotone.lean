import Throttle.Proofs.History.Contents

/-!
  More history never means an earlier send. One history is `Behind` another one if the other is no
  earlier, entry by entry, and both are empty or neither is. Both bounds of an item can only grow
  with the entries (`Behind.windowBound`, `Behind.penaltyBound`), so the safe instant can only become
  later (`Behind.nextSafeSend`). An instant that is recorded moves every entry back by one place at
  most, and what was at a place is no later than what comes there (`Tidy.behind_push`); a history
  with a greater capacity starts with the entries of a smaller one (`behind_recorded`).

  The first entry matters for penalties, which run from it: on an empty history they run from the
  present, and an old instant that is recorded there may bring the send forward.
-/

namespace Throttle

namespace History

variable {h g : History} {i : Item} {p : Policy} {l : List Moment} {now t : Moment} {k : Nat}

/-! ## Later and earlier -/

/-- Whenever there is a second instant, there is a first one, and it is no later. An instant beyond
the calendar counts as the latest of all. -/
def NoLater (a b : Except Overflow Moment) : Prop := ∀ u, b = .ok u → ∃ t, a = .ok t ∧ t ≤ u

/-- Every bound on one side has one on the other side that is no earlier, and that is out of the
calendar if the first one is. -/
def Within (x y : Option Moment) : Prop :=
  ∀ v ∈ x, ∃ u ∈ y, v ≤ u ∧ (Moment.InRange u → Moment.InRange v)

theorem Within.refl (x : Option Moment) : Within x x := fun v hv => ⟨v, hv, Int.le_refl v, id⟩

theorem Within.inRange {x y : Option Moment} (h : Within x y) (hy : ∀ u ∈ y, Moment.InRange u) :
    ∀ v ∈ x, Moment.InRange v := by
  intro v hv
  obtain ⟨u, hu, -, hrange⟩ := h v hv
  exact hrange (hy u hu)

theorem Within.le {x y : Option Moment} (h : Within x y) (hy : ∀ u ∈ y, u ≤ t) :
    ∀ v ∈ x, v ≤ t := by
  intro v hv
  obtain ⟨u, hu, hle, -⟩ := h v hv
  exact Int.le_trans hle (hy u hu)

/-- An entry and the time that is counted from it are in the calendar, if a later entry's are. -/
theorem inRange_add {e e' : Moment} {d : Delay} (he : Moment.InRange e) (hle : e ≤ e')
    (hrange : Moment.InRange (e' + (d : Int))) : Moment.InRange (e + (d : Int)) := by
  unfold Moment.InRange Moment at *
  omega

/-- The latest of a start and some constraints is no later than that of another start and other
constraints, if each of them is no later. -/
theorem foldlM_noLater {items : List Item} {f f' : Item → Except Overflow (Option Moment)}
    (hf : ∀ i ∈ items, ∀ c', f' i = .ok c' →
      ∃ c, f i = .ok c ∧ ∀ u, (∀ v ∈ c', v ≤ u) → ∀ v ∈ c, v ≤ u)
    {start start' : Moment} (hstart : start ≤ start') :
    NoLater (items.foldlM (fun t i => return (← f i).elim t (max t)) start)
      (items.foldlM (fun t i => return (← f' i).elim t (max t)) start') := by
  induction items generalizing start start' with
  | nil =>
    intro u hu
    exact ⟨start, rfl, Except.ok.inj hu ▸ hstart⟩
  | cons a items ih =>
    intro u hu
    rw [List.foldlM_cons] at hu ⊢
    cases ha' : f' a with
    | error o =>
      rw [ha'] at hu
      cases hu
    | ok c' =>
      obtain ⟨c, ha, hle⟩ := hf a List.mem_cons_self c' ha'
      rw [ha'] at hu
      rw [ha]
      refine ih (fun i hi => hf i (List.mem_cons_of_mem a hi)) ?_ u hu
      -- the start of the rest is the later of the start and the first constraint
      have hrest (u : Moment) (hu : start' ≤ u) (hc : ∀ v ∈ c', v ≤ u) : c.elim start (max start) ≤ u := by
        have hv := hle u hc
        cases c with
        | none => exact Int.le_trans hstart hu
        | some v => exact max_le (Int.le_trans hstart hu) (hv v rfl)
      cases c' with
      | none => exact hrest start' (Int.le_refl _) nofun
      | some v =>
        refine hrest (max start' v) (le_max_left _ _) ?_
        intro u hu
        exact Option.some.inj hu ▸ le_max_right _ _

/-! ## Histories that are behind -/

/-- The second history is no earlier, entry by entry, and they are both empty or neither is. -/
structure Behind (h g : History) : Prop where
  entry : ∀ (k : Nat) (e : Moment), h.entries[k]? = some e →
    ∃ e', g.entries[k]? = some e' ∧ e ≤ e'
  empty : h.entries = [] → g.entries = []

namespace Behind

theorem windowBound (hb : Behind h g) (hrange : ∀ e ∈ h.entries, Moment.InRange e) (i : Item)
    (now : Moment) : Within (h.windowBound i now) (g.windowBound i now) := by
  unfold History.windowBound
  split
  · exact .refl _
  · intro v hv
    obtain ⟨e, he, rfl⟩ := Option.map_eq_some_iff.1 hv
    obtain ⟨hentry, hin⟩ := Option.filter_eq_some_iff.1 he
    obtain ⟨e', hentry', hle⟩ := hb.entry _ e hentry
    have hin' : now - (i.limit.periodDelay : Int) < e' :=
      Int.lt_of_lt_of_le (of_decide_eq_true hin) hle
    refine ⟨e' + (i.limit.periodDelay : Int), ?_, Int.add_le_add_right hle _,
      inRange_add (hrange e (List.mem_of_getElem? hentry)) hle⟩
    exact Option.map_eq_some_iff.2
      ⟨e', Option.filter_eq_some_iff.2 ⟨hentry', decide_eq_true hin'⟩, rfl⟩

theorem penaltyBound (hb : Behind h g) (hrange : ∀ e ∈ h.entries, Moment.InRange e) (i : Item)
    (now : Moment) : Within (h.penaltyBound i now) (g.penaltyBound i now) := by
  unfold History.penaltyBound
  split
  · nofun
  · intro v hv
    obtain rfl := Option.some.inj hv
    refine ⟨_, rfl, ?_⟩
    cases hentry : h.entries[0]? with
    | none =>
      -- both penalties run from the present
      have hnone := List.getElem?_eq_none_iff.1 hentry
      have hnil : h.entries = [] := List.eq_nil_of_length_eq_zero (Nat.le_zero.1 hnone)
      simp [latest?, hnil, hb.empty hnil]
    | some e =>
      obtain ⟨e', hentry', hle⟩ := hb.entry 0 e hentry
      have hlatest : h.latest? = some e := List.head?_eq_getElem?.trans hentry
      have hlatest' : g.latest? = some e' := List.head?_eq_getElem?.trans hentry'
      rw [hlatest, hlatest']
      exact ⟨Int.add_le_add_right hle _, inRange_add (hrange e (List.mem_of_getElem? hentry)) hle⟩

/-- An item lets a request through no later after a history that is behind. -/
theorem itemConstraint (hb : Behind h g) (hh : h.Tidy) (hg : g.Tidy)
    (hrange : ∀ e ∈ h.entries, Moment.InRange e) {c' : Option Moment}
    (hc : g.itemConstraint i now = .ok c') :
    ∃ c, h.itemConstraint i now = .ok c ∧ ∀ u, (∀ v ∈ c', v ≤ u) → ∀ v ∈ c, v ≤ u := by
  have hwindow := hb.windowBound hrange i now
  have hpenalty := hb.penaltyBound hrange i now
  obtain ⟨hrep, rfl⟩ := (itemConstraint_eq_ok hg.falling).1 hc
  obtain ⟨hstart, hroom, hserved⟩ := representable_iff.1 hrep
  have hrep' : h.Representable i now :=
    representable_iff.2 ⟨hstart, hwindow.inRange hroom, hpenalty.inRange hserved⟩
  refine ⟨_, (itemConstraint_eq_ok hh.falling).2 ⟨hrep', rfl⟩, ?_⟩
  intro u hu
  obtain ⟨hw, hp⟩ := later?_le_iff.1 hu
  exact later?_le_iff.2 ⟨hwindow.le hw, hpenalty.le hp⟩

/-- The safe instant after a history that is behind is no later. -/
theorem nextSafeSend (hb : Behind h g) (hh : h.Tidy) (hg : g.Tidy)
    (hrange : ∀ e ∈ h.entries, Moment.InRange e) (p : Policy) (now : Moment) :
    NoLater (h.nextSafeSend p now) (g.nextSafeSend p now) :=
  foldlM_noLater (fun _ _ _ => hb.itemConstraint hh hg hrange) (Int.le_refl now)

end Behind

/-! ## One record more -/

/-- What comes to a place when an instant is put into a list is no earlier than what was there. -/
theorem getElem?_place (hl : Falling l) (s : Moment) {e : Moment} (he : l[k]? = some e) :
    ∃ e', (place s l)[k]? = some e' ∧ e ≤ e' := by
  induction l generalizing k with
  | nil => cases he
  | cons a l ih =>
    obtain ⟨hhead, hrest⟩ := List.pairwise_cons.1 hl
    unfold place
    split
    · rename_i hat
      cases k with
      | zero => exact ⟨s, rfl, Option.some.inj he ▸ hat⟩
      | succ k =>
        -- the entry moves back by one place; before it there is one that is no earlier
        have hlt : k < (a :: l).length := (List.getElem?_eq_some_iff.1 he).1.le
        refine ⟨(a :: l)[k], List.getElem?_eq_getElem hlt, ?_⟩
        obtain ⟨hlt', rfl⟩ := List.getElem?_eq_some_iff.1 he
        exact List.pairwise_iff_getElem.1 hl k (k + 1) hlt hlt' (Nat.lt_succ_self k)
    · cases k with
      | zero => exact ⟨a, rfl, Int.le_of_eq (Option.some.inj he).symm⟩
      | succ k => exact ih hrest he

/-- A history is behind itself with one record more, unless it is empty. -/
theorem Tidy.behind_push (hh : h.Tidy) (hne : h.entries ≠ []) (s : Moment) :
    Behind h (h.push s) where
  entry k e he := by
    have hk : k < h.capacity :=
      Nat.lt_of_lt_of_le (List.getElem?_eq_some_iff.1 he).1 hh.fits
    obtain ⟨e', he', hle⟩ := getElem?_place hh.falling s he
    exact ⟨e', (List.getElem?_take_of_lt hk).trans he', hle⟩
  empty hnil := absurd hnil hne

/-! ## A greater capacity -/

/-- The history of a fixed capacity after some records. -/
def recorded (capacity : Nat) (dates : List Moment) : History :=
  (empty capacity).edited (dates.map .push)

theorem pushed_map_push (dates : List Moment) : pushed (dates.map .push) = dates := by
  unfold pushed
  rw [List.filterMap_map]
  exact List.filterMap_some

theorem asked_map_push (dates : List Moment) : asked (dates.map .push) = [] := by
  unfold asked
  rw [List.filterMap_map]
  exact List.filterMap_none dates

/-- With a fixed capacity, a history holds that many of the newest instants. -/
theorem entries_recorded (capacity : Nat) (dates : List Moment) :
    (recorded capacity dates).entries = (newestFirst dates).take capacity := by
  have hroom : RoomFor capacity (empty capacity) (dates.map .push) := by
    intro front t back hes
    exact capacity_le_edited (empty capacity) front
  have hcapacity : (recorded capacity dates).capacity = capacity := by
    rw [recorded, capacity_edited, asked_map_push]
    rfl
  have hfits := ((tidy_empty capacity).edited (dates.map .push)).fits
  calc (recorded capacity dates).entries
      = (recorded capacity dates).entries.take capacity :=
        (List.take_of_length_le (Nat.le_trans hfits (Nat.le_of_eq hcapacity))).symm
    _ = (newestFirst (pushed (dates.map .push))).take capacity := take_edited hroom
    _ = (newestFirst dates).take capacity := by rw [pushed_map_push]

/-- A history with room for one entry at least is behind one of a greater capacity. -/
theorem behind_recorded {small great : Nat} (hone : 1 ≤ small) (hle : small ≤ great)
    (dates : List Moment) : Behind (recorded small dates) (recorded great dates) where
  entry k e he := by
    rw [entries_recorded, List.getElem?_take] at he
    split at he
    · rename_i hk
      refine ⟨e, ?_, Int.le_refl e⟩
      rw [entries_recorded, List.getElem?_take_of_lt (Nat.lt_of_lt_of_le hk hle), he]
    · cases he
  empty hnil := by
    rw [entries_recorded, List.take_eq_nil_iff] at hnil
    rw [entries_recorded, hnil.resolve_left (Nat.one_le_iff_ne_zero.1 hone), List.take_nil]

/-! ## More history -/

theorem inRange_edited {capacity : Nat} {es : List Edit}
    (hrange : ∀ d ∈ pushed es, Moment.InRange d) :
    ∀ e ∈ ((empty capacity).edited es).entries, Moment.InRange e :=
  fun e he => hrange e ((subperm_edited capacity es).subset he)

/-- More history never means an earlier send: one more record on a history that is not empty leaves
the safe instant or makes it later, a growth leaves it, and so does a greater capacity for the same
records. -/
theorem nextSafeSend_monotone (p : Policy) (now : Moment) :
    (∀ capacity es, (∀ d ∈ pushed es, Moment.InRange d) →
      ((empty capacity).edited es).entries ≠ [] → ∀ s,
      NoLater (((empty capacity).edited es).nextSafeSend p now)
        ((((empty capacity).edited es).push s).nextSafeSend p now)) ∧
    (∀ (h : History) c, (h.grow c).nextSafeSend p now = h.nextSafeSend p now) ∧
    ∀ small great dates, 1 ≤ small → small ≤ great → (∀ d ∈ dates, Moment.InRange d) →
      NoLater ((recorded small dates).nextSafeSend p now)
        ((recorded great dates).nextSafeSend p now) := by
  refine ⟨?_, fun h c => rfl, ?_⟩
  · intro capacity es hrange hne s
    have htidy := (tidy_empty capacity).edited es
    exact (htidy.behind_push hne s).nextSafeSend htidy (htidy.push s) (inRange_edited hrange) p now
  · intro small great dates hone hle hrange
    have hpushed : ∀ d ∈ pushed (dates.map .push), Moment.InRange d := by
      rw [pushed_map_push]
      exact hrange
    exact (behind_recorded hone hle dates).nextSafeSend ((tidy_empty small).edited _)
      ((tidy_empty great).edited _) (inRange_edited hpushed) p now

/-- Two requests in ten seconds. -/
def twoInTen : Policy := .ofRules ⟨"pair", by decide⟩ [⟨"Account", [⟨⟨2, 10, 60⟩, ⟨0, 10, 0⟩⟩]⟩]

/-- Replies that were dated at 0 s and at 5 s. -/
def twoDates : List Moment := [0, 5000000000]

/-- At 6 s the next send is at 10 s. A record of 1 s that comes late takes the place of the oldest
one and puts the send off to 11 s; with room for one record alone, the send would be at once. -/
theorem nextSafeSend_monotone_twoDates :
    NoLater (((empty 2).edited (twoDates.map .push)).nextSafeSend twoInTen 6000000000)
        ((((empty 2).edited (twoDates.map .push)).push 1000000000).nextSafeSend twoInTen
          6000000000) ∧
      NoLater ((recorded 1 twoDates).nextSafeSend twoInTen 6000000000)
        ((recorded 2 twoDates).nextSafeSend twoInTen 6000000000) ∧
      (recorded 1 twoDates).nextSafeSend twoInTen 6000000000 = .ok 6000000000 ∧
      (recorded 2 twoDates).nextSafeSend twoInTen 6000000000 = .ok 10000000000 ∧
      ((recorded 2 twoDates).push 1000000000).nextSafeSend twoInTen 6000000000 =
        .ok 11000000000 := by
  obtain ⟨hpush, -, hcapacity⟩ := nextSafeSend_monotone twoInTen 6000000000
  exact ⟨hpush 2 (twoDates.map .push) (by decide) (by decide) 1000000000,
    hcapacity 1 2 twoDates (by decide) (by decide) (by decide), by decide +kernel,
    by decide +kernel, by decide +kernel⟩

end History

end Throttle
