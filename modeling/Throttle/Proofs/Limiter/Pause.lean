import Mathlib.Order.Bounds.Basic
import Throttle.Limiter.Pause

/-!
  The pause of several managers. It is there if one of them still has to wait, and then it is given by
  a snapshot with the latest send of all (`longestPause_cases`): it lasts the least number of whole
  seconds until every send has come, and it names the policy of that snapshot. So it does not depend
  on the order of the snapshots but for the name, and for that only if several of them share the
  latest send (`longestPause_exact`).
-/

namespace Throttle

/-- The whole seconds that cover a delay are as few as can be. -/
theorem Delay.secondsUp_le_iff {d : Delay} {n : Nat} :
    d.secondsUp ≤ n ↔ d ≤ Delay.ofSeconds n := by
  unfold secondsUp ofSeconds perSecond Delay at *
  omega

theorem Moment.gap_le_iff {now due : Moment} {d : Delay} :
    gap now due ≤ d ↔ due ≤ now + (d : Int) := by
  unfold gap Moment Delay at *
  omega

theorem laterWait_spec (a b : Moment × PolicyName) :
    (laterWait a b = a ∨ laterWait a b = b) ∧
      a.1 ≤ (laterWait a b).1 ∧ b.1 ≤ (laterWait a b).1 := by
  unfold laterWait
  split
  · rename_i hab
    exact ⟨.inr rfl, hab, Int.le_refl _⟩
  · rename_i hab
    exact ⟨.inl rfl, Int.le_refl _, Int.le_of_lt (Int.not_le.1 hab)⟩

/-- Of some waits in a row, the one that is left is no earlier than any. -/
theorem foldl_laterWait (a : Moment × PolicyName) (rest : List (Moment × PolicyName)) :
    rest.foldl laterWait a ∈ a :: rest ∧
      ∀ x ∈ a :: rest, x.1 ≤ (rest.foldl laterWait a).1 := by
  induction rest generalizing a with
  | nil => simp
  | cons b rest ih =>
    obtain ⟨hone, ha, hb⟩ := laterWait_spec a b
    obtain ⟨hmem, hle⟩ := ih (laterWait a b)
    obtain ⟨hlast, hrest⟩ := List.forall_mem_cons.1 hle
    rw [List.foldl_cons]
    constructor
    · rcases List.mem_cons.1 hmem with hsame | hlater
      · rw [hsame]
        rcases hone with h | h <;> simp [h]
      · exact List.mem_cons_of_mem _ (List.mem_cons_of_mem _ hlater)
    · rw [List.forall_mem_cons, List.forall_mem_cons]
      exact ⟨Int.le_trans ha hlast, Int.le_trans hb hlast, hrest⟩

namespace Snapshot

variable {ss ss' : List Snapshot} {s s' : Snapshot} {now t t' : Moment}

theorem wait?_eq_some_iff {x : Moment × PolicyName} :
    s.wait? now = some x ↔ s.nextSend = some x.1 ∧ now < x.1 ∧ s.policy.name = x.2 := by
  obtain ⟨t, name⟩ := x
  unfold wait?
  split
  · rename_i u hu
    rw [hu]
    split
    · rename_i hlt
      simp only [Option.some.injEq, Prod.mk.injEq]
      constructor
      · rintro ⟨rfl, rfl⟩
        exact ⟨rfl, hlt, rfl⟩
      · rintro ⟨rfl, -, rfl⟩
        exact ⟨rfl, rfl⟩
    · rename_i hlt
      simp only [reduceCtorEq, Option.some.injEq, false_iff, not_and]
      rintro rfl h
      exact absurd h hlt
  · rename_i hnone
    simp [hnone]

/-- Of some snapshots, one that shows the latest send. -/
structure Latest (ss : List Snapshot) (s : Snapshot) (t : Moment) : Prop where
  shown : s ∈ ss
  due : s.nextSend = some t
  last : ∀ s' ∈ ss, ∀ t', s'.nextSend = some t' → t' ≤ t

theorem Latest.perm (h : Latest ss s t) (hp : ss.Perm ss') : Latest ss' s t where
  shown := hp.subset h.shown
  due := h.due
  last s' hs' := h.last s' (hp.symm.subset hs')

theorem Latest.unique (h : Latest ss s t) (h' : Latest ss s' t') : t = t' :=
  Int.le_antisymm (h'.last s h.shown t h.due) (h.last s' h'.shown t' h'.due)

end Snapshot

open Snapshot

variable {ss ss' : List Snapshot} {now : Moment} {p : Pause}

/-- How long the pause is: nobody has to wait any more, or it is that of a snapshot with the latest
send. -/
theorem longestPause_cases (now : Moment) (ss : List Snapshot) :
    (longestPause now ss = none ∧ ∀ s ∈ ss, ∀ t, s.nextSend = some t → t ≤ now) ∨
      ∃ s t, Latest ss s t ∧ now < t ∧
        longestPause now ss = some ⟨Delay.secondsUp (Moment.gap now t), s.policy.name⟩ := by
  unfold longestPause
  cases hwaits : ss.filterMap (wait? now) with
  | nil =>
    refine .inl ⟨rfl, fun s hs t ht => Int.not_lt.1 fun hlt => ?_⟩
    have hwait : s.wait? now = some (t, s.policy.name) := wait?_eq_some_iff.2 ⟨ht, hlt, rfl⟩
    cases hwait.symm.trans (List.filterMap_eq_nil_iff.1 hwaits s hs)
  | cons a rest =>
    obtain ⟨hmem, hle⟩ := foldl_laterWait a rest
    rw [← hwaits] at hmem hle
    obtain ⟨s, hs, hwait⟩ := List.mem_filterMap.1 hmem
    obtain ⟨hdue, hlt, hname⟩ := wait?_eq_some_iff.1 hwait
    refine .inr ⟨s, _, ⟨hs, hdue, fun s' hs' t' ht' => ?_⟩, hlt, by rw [hname]⟩
    by_cases hlater : now < t'
    · exact hle (t', s'.policy.name)
        (List.mem_filterMap.2 ⟨s', hs', wait?_eq_some_iff.2 ⟨ht', hlater, rfl⟩⟩)
    · exact Int.le_trans (Int.not_lt.1 hlater) (Int.le_of_lt hlt)

/-- Seconds after which no send of some snapshots is still to come. -/
def sufficing (now : Moment) (ss : List Snapshot) : Set Nat :=
  {n | ∀ s ∈ ss, ∀ t, s.nextSend = some t → t ≤ now + (Delay.ofSeconds n : Int)}

theorem Snapshot.Latest.isLeast {s : Snapshot} {t : Moment} (h : Latest ss s t) :
    IsLeast (sufficing now ss) (Delay.secondsUp (Moment.gap now t)) := by
  have hset : sufficing now ss = Set.Ici (Delay.secondsUp (Moment.gap now t)) := by
    ext n
    rw [Set.mem_Ici, Delay.secondsUp_le_iff, Moment.gap_le_iff]
    constructor
    · exact fun hn => hn s h.shown t h.due
    · exact fun hn s' hs' t' ht' => Int.le_trans (h.last s' hs' t' ht') hn
  exact hset ▸ isLeast_Ici

/-- The pause of some snapshots is exact. There is one if and only if a snapshot shows a send that is
still to come. It lasts the least number of whole seconds, one at least, after which every send has
come, and its policy is that of a snapshot with the latest send. In another order of the snapshots it
is as long, and it is the same unless snapshots of different policies share the latest send. -/
theorem longestPause_exact (now : Moment) (ss : List Snapshot) :
    ((longestPause now ss).isSome ↔ ∃ s ∈ ss, ∃ t, s.nextSend = some t ∧ now < t) ∧
      (∀ p ∈ longestPause now ss, IsLeast (sufficing now ss) p.seconds ∧ 1 ≤ p.seconds ∧
        ∃ s t, Latest ss s t ∧ s.policy.name = p.policy) ∧
      ∀ ss', ss.Perm ss' →
        (longestPause now ss').map Pause.seconds = (longestPause now ss).map Pause.seconds ∧
          (longestPause now ss' = longestPause now ss ∨
            ∃ s s' t, Latest ss s t ∧ Latest ss s' t ∧ s.policy.name ≠ s'.policy.name) := by
  rcases longestPause_cases now ss with ⟨hnone, hover⟩ | ⟨s, t, hlatest, hlt, hsome⟩
  · refine ⟨?_, ?_, ?_⟩
    · rw [hnone]
      constructor
      · intro hsome
        cases hsome
      · rintro ⟨s, hs, t, ht, hlt⟩
        exact absurd hlt (Int.not_lt.2 (hover s hs t ht))
    · rw [hnone]
      rintro p ⟨⟩
    · intro ss' hp
      rcases longestPause_cases now ss' with ⟨hnone', -⟩ | ⟨s', t', hlatest', hlt', -⟩
      · rw [hnone, hnone']
        exact ⟨rfl, .inl rfl⟩
      · have hold := hlatest'.perm hp.symm
        exact absurd hlt' (Int.not_lt.2 (hover s' hold.shown t' hold.due))
  · refine ⟨?_, ?_, ?_⟩
    · rw [hsome]
      exact ⟨fun _ => ⟨s, hlatest.shown, t, hlatest.due, hlt⟩, fun _ => rfl⟩
    · rw [hsome]
      rintro p ⟨⟩
      refine ⟨hlatest.isLeast, ?_, s, t, hlatest, rfl⟩
      refine Nat.one_le_iff_ne_zero.2 fun hzero => ?_
      have hover := Moment.gap_le_iff.1 (Delay.secondsUp_le_iff.1 (Nat.le_of_eq hzero))
      rw [Delay.ofSeconds, Nat.zero_mul] at hover
      exact absurd hlt (Int.not_lt.2 (by simpa using hover))
    · intro ss' hp
      rcases longestPause_cases now ss' with ⟨-, hover'⟩ | ⟨s', t', hlatest', hlt', hsome'⟩
      · exact absurd hlt (Int.not_lt.2 (hover' s (hlatest.perm hp).shown t hlatest.due))
      · have hold := hlatest'.perm hp.symm
        obtain rfl := hlatest.unique hold
        rw [hsome, hsome']
        refine ⟨rfl, ?_⟩
        by_cases hname : s.policy.name = s'.policy.name
        · exact .inl (by rw [hname])
        · exact .inr ⟨s, s', t, hlatest, hold, hname⟩

/-- What a manager shows that has to wait, or not. -/
def shownWith (name : PolicyName) (due : Option Moment) : Snapshot :=
  ⟨Policy.unknown name, 0, due.isSome, due, 0, 0, 0⟩

def tradeName : PolicyName := ⟨"trade-api", by decide⟩

def stashName : PolicyName := ⟨"stash-api", by decide⟩

/-- Two managers wait, for 2.5 and for 6.2 seconds, and one does not. -/
def threeSnapshots : List Snapshot :=
  [shownWith tradeName (some 2500000000), shownWith stashName (some 6200000000),
    shownWith tradeName none]

/-- The longer of two waits is shown, for seven seconds, also in the opposite order. -/
theorem longestPause_exact_threeSnapshots :
    longestPause 0 threeSnapshots = some ⟨7, stashName⟩ ∧
      IsLeast (sufficing 0 threeSnapshots) 7 ∧
      threeSnapshots.Perm threeSnapshots.reverse ∧
      (longestPause 0 threeSnapshots.reverse).map Pause.seconds = some 7 := by
  have hpause : longestPause 0 threeSnapshots = some ⟨7, stashName⟩ := by decide +kernel
  have hperm : threeSnapshots.Perm threeSnapshots.reverse := (List.reverse_perm _).symm
  obtain ⟨-, hleast, horder⟩ := longestPause_exact 0 threeSnapshots
  refine ⟨hpause, (hleast _ hpause).1, hperm, ?_⟩
  rw [(horder _ hperm).1, hpause, Option.map_some]

end Throttle
