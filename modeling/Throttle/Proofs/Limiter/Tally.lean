import Throttle.Proofs.Limiter.Queues
import Throttle.Proofs.Limiter.Range

/-!
  The count of violations, over the runs of a limiter. Every refusal that a manager takes in is counted
  once, by the limiter and by the manager, and its total is told: the totals are 1, 2, 3 and so on,
  in the order in which listeners hear them, however the managers interleave (`violations_tallied`).
  A refusal that ends its manager is the exception: the limiter has counted it, but the manager does
  not live to show it.
-/

namespace Throttle

open Http Actor

/-! ## Sums over lists -/

theorem sum_map_set (f : α → Nat) {xs : List α} {k : Nat} {a : α} (h : xs[k]? = some a) (b : α) :
    ((xs.set k b).map f).sum + f a = (xs.map f).sum + f b := by
  induction xs generalizing k with
  | nil => cases h
  | cons x xs ih =>
    cases k with
    | zero =>
      cases h
      simp only [List.set_cons_zero, List.map_cons, List.sum_cons]
      omega
    | succ k =>
      have hrest := ih h
      simp only [List.set_cons_succ, List.map_cons, List.sum_cons]
      omega

/-- Lists that agree place by place, a place that is not there counting for nothing, have one sum. -/
theorem sum_map_of_places {f : α → Nat} {xs ys : List α}
    (h : ∀ i : Nat, (ys[i]?).elim 0 f = (xs[i]?).elim 0 f) : (ys.map f).sum = (xs.map f).sum := by
  induction xs generalizing ys with
  | nil =>
    refine List.sum_eq_zero_iff.2 ?_
    intro n hn
    obtain ⟨y, hy, rfl⟩ := List.mem_map.1 hn
    obtain ⟨i, hi⟩ := List.getElem?_of_mem hy
    have hplace := h i
    rw [hi] at hplace
    exact hplace
  | cons x xs ih =>
    cases ys with
    | nil =>
      have hhead : 0 = f x := h 0
      have htail : (([] : List α).map f).sum = (xs.map f).sum := ih fun i => h (i + 1)
      simp only [List.map_cons, List.sum_cons, ← hhead, ← htail]
      rfl
    | cons y ys =>
      have hhead : f y = f x := h 0
      have htail := ih fun i => h (i + 1)
      simp only [List.map_cons, List.sum_cons, hhead, htail]

namespace Limiter

variable {w : Limiter} {m : Move} {ms : List Move} {i k : Nat} {a : Actor}

/-! ## Refusals -/

/-- A manager takes in a refusal: the reply to a probe, or the reply to a request of its own. -/
def takesRefusal (w : Limiter) : Move → Bool
  | .command i => (w.actors[i]?).any fun a => a.nextSeed.any (·.isViolation)
  | .signal i => (w.actors[i]?).any fun a => a.nextReply.any (·.isViolation)
  | _ => false

/-- The refusals that managers take in with some moves. -/
def refusals (w : Limiter) : List Move → Nat
  | [] => 0
  | m :: ms => (w.takesRefusal m).toNat + (w.step m).1.refusals ms

/-- A manager takes in a refusal that ends it. -/
def fatal (w : Limiter) (m : Move) : Bool :=
  w.takesRefusal m &&
    (m.actor?.bind fun i => (w.step m).1.actors[i]?).any fun b => b.stage = .failed

/-- The refusals that end managers with some moves. -/
def fatalities (w : Limiter) : List Move → Nat
  | [] => 0
  | m :: ms => (w.fatal m).toNat + (w.step m).1.fatalities ms

theorem refusals_snoc (w : Limiter) (ms : List Move) (m : Move) :
    w.refusals (ms ++ [m]) = w.refusals ms + ((w.after ms).takesRefusal m).toNat := by
  induction ms generalizing w with
  | nil => exact (Nat.zero_add _).symm
  | cons n ms ih => rw [List.cons_append, refusals, ih, refusals, Nat.add_assoc]; rfl

theorem fatalities_snoc (w : Limiter) (ms : List Move) (m : Move) :
    w.fatalities (ms ++ [m]) = w.fatalities ms + ((w.after ms).fatal m).toNat := by
  induction ms generalizing w with
  | nil => exact (Nat.zero_add _).symm
  | cons n ms ih => rw [List.cons_append, fatalities, ih, fatalities, Nat.add_assoc]; rfl

/-! ## What a move counts -/

/-- The violations that the managers have counted. -/
def counted (w : Limiter) : Nat := (w.actors.map (·.manager.violations)).sum

/-- How many managers have failed. -/
def failures (w : Limiter) : Nat := w.actors.countP (·.stage = .failed)

theorem failures_eq (w : Limiter) :
    w.failures = (w.actors.map fun a => (a.stage = .failed : Bool).toNat).sum := by
  unfold failures
  induction w.actors with
  | nil => rfl
  | cons a as ih =>
    rw [List.countP_cons, ih, List.map_cons, List.sum_cons, Nat.add_comm]
    cases decide (a.stage = .failed) <;> rfl

/-- What a move makes of the counts. -/
structure Tallies (w : Limiter) (m : Move) : Prop where
  violations : (w.step m).1.violations = w.violations + (w.takesRefusal m).toNat
  totals : totals (told (w.step m).2) = if w.takesRefusal m then [w.violations + 1] else []
  counted : (w.step m).1.counted + (w.fatal m).toNat = w.counted + (w.takesRefusal m).toNat
  failures : w.failures + (w.fatal m).toNat ≤ (w.step m).1.failures

theorem tallies_feeding (hm : m.actor? = none) (w : Limiter) : Tallies w m := by
  have hnone : w.takesRefusal m = false := by cases m <;> first | rfl | cases hm
  have hfatal : w.fatal m = false := by
    unfold fatal
    rw [hnone, Bool.false_and]
  -- feeding leaves every manager as it is, and a new one has counted nothing
  have hplaces {f : Actor → Nat} (hkept : ∀ a cs connected,
      f { a with mailbox := a.mailbox ++ cs, connected } = f a)
      (hnew : ∀ name cs connected, f { Actor.new name with mailbox := cs, connected } = 0) (i : Nat) :
      ((w.step m).1.actors[i]?).elim 0 f = (w.actors[i]?).elim 0 f := by
    cases hb : (w.step m).1.actors[i]? with
    | none =>
      cases ha : w.actors[i]? with
      | none => rfl
      | some a =>
        obtain ⟨b, hthere⟩ := step_keeps w m ha
        exact nomatch hb.symm.trans hthere
    | some b =>
      cases step_touches w m i hb with
      | fed ha hother cs connected hseeds => rw [ha]; exact hkept _ cs connected
      | made name hfree hreply cs connected hseeds => rw [hfree]; exact hnew name cs connected
      | acted ha hacts hd => exact nomatch hm.symm.trans hacts
  constructor
  · rw [hnone]
    exact violations_feeding hm w
  · rw [hnone]
    exact totals_of_plain (plain_feeding hm w)
  · rw [hnone, hfatal]
    exact sum_map_of_places (hplaces (fun _ _ _ => rfl) fun _ _ _ => rfl)
  · rw [hfatal, failures_eq, failures_eq]
    exact Nat.le_of_eq (sum_map_of_places (hplaces (fun _ _ _ => rfl) fun _ _ _ => rfl)).symm

/-- A manager takes in the refusal that its deed brings. -/
theorem takesRefusal_of_acting {d : Deed} (hm : m.actor? = some k)
    (hd : m.deed? w.surroundings = some d) :
    w.takesRefusal m = (w.actors[k]?).any fun a => a.refusal d := by
  have never : (w.actors[k]?).any (fun _ => false) = false := by
    cases w.actors[k]? <;> rfl
  cases m with
  | command j => cases hm; cases hd; rfl
  | signal j => cases hm; cases hd; rfl
  | ring j => cases hd; exact never.symm
  | returned j id result => cases hd; exact never.symm
  | _ => cases hm

theorem tallies_acting (hm : m.actor? = some k)
    (hsound : ∀ a, w.actors[k]? = some a → Sound w.now a) : Tallies w m := by
  obtain ⟨d, hd, hcore, -⟩ := acting_step hm w
  obtain ⟨htold, hviolations⟩ := acting_told hm hd
  have hactors := actors_of_core hcore
  have htakes := takesRefusal_of_acting hm hd
  have hfatal : w.fatal m =
      (w.takesRefusal m && ((w.step m).1.actors[k]?).any fun b => b.stage = .failed) := by
    unfold fatal
    rw [hm]
    rfl
  unfold outputsOf at htold hviolations
  cases ha : w.actors[k]? with
  | none =>
    rw [ha] at htold hviolations htakes
    rw [htakes, Option.any_none, Bool.false_and] at hfatal
    have hsame : (w.step m).1.actors = w.actors := by rw [hactors, live_of_none ha]
    constructor
    · rw [hviolations, htakes]
      rfl
    · rw [htold, htakes]
      rfl
    · unfold counted
      rw [hsame, hfatal, htakes]
      rfl
    · unfold failures
      rw [hsame, hfatal]
      exact Nat.le_refl _
  | some a =>
    have hcounts := undergo_counts (hsound a ha) (deed_at hd)
    rw [ha, Option.elim_some] at htold hviolations
    rw [ha, Option.any_some] at htakes
    replace hactors : (w.step m).1.actors = w.actors.set k (a.undergo d) := by
      rw [hactors, live_of_some ha]
      rfl
    have hplace : (w.step m).1.actors[k]? = some (a.undergo d) := by
      rw [hactors]
      exact List.getElem?_set_self (List.getElem?_eq_some_iff.1 ha).1
    rw [hplace, Option.any_some, htakes] at hfatal
    constructor
    · rw [hviolations, hcounts.told, length_told, htakes]
    · rw [htold, hcounts.told, htakes]
      rfl
    · have hbalance := hcounts.balance
      have hsum := sum_map_set (fun a => a.manager.violations) ha (a.undergo d)
      unfold counted
      rw [hactors, hfatal, htakes]
      omega
    · have hends := undergo_failures a d
      have hsum := sum_map_set (fun a => (a.stage = .failed : Bool).toNat) ha (a.undergo d)
      rw [failures_eq, failures_eq, hactors, hfatal]
      omega

theorem tallies_step (hsound : ∀ (i : Nat) a, w.actors[i]? = some a → Sound w.now a) (m : Move) :
    Tallies w m := by
  cases hm : m.actor? with
  | none => exact tallies_feeding hm w
  | some k => exact tallies_acting hm (hsound k)

/-! ## Every run -/

/-- How the counts of violations agree after some moves. -/
structure Tally (w : Limiter) (ms : List Move) : Prop where
  /-- The limiter has counted every refusal that a manager took in. -/
  violations : (w.after ms).violations = w.refusals ms
  /-- Listeners heard the totals one by one. -/
  totals : totals (told ((w.run ms).2.map (·.what))) = List.range' 1 (w.after ms).violations
  /-- The managers have counted the same, but for the refusals that ended them. -/
  counted : (w.after ms).violations = (w.after ms).counted + w.fatalities ms
  /-- A refusal ends no more than one manager. -/
  fatalities : w.fatalities ms ≤ (w.after ms).failures
  /-- A manager shows what it has counted. -/
  shown : ∀ a ∈ (w.after ms).actors, a.snapshot.violations = a.manager.violations

/-- In every run, the violations that the limiter counts are the refusals that its managers took in,
listeners hear of each with the next total, and the managers' own counts add up to them, except for
refusals that ended a manager. -/
theorem violations_tallied (config : Config) (authorizer : Authorizer) (now : Moment)
    (ms : List Move) : Tally (new config authorizer now) ms := by
  have hshown (ms : List Move) : ∀ a ∈ ((new config authorizer now).after ms).actors,
      a.snapshot.violations = a.manager.violations := by
    intro a ha
    obtain ⟨i, hi⟩ := List.getElem?_of_mem ha
    exact congrArg Snapshot.violations (shown_run rfl ms hi)
  induction ms using List.reverseRecOn with
  | nil => exact ⟨rfl, rfl, rfl, Nat.le_refl 0, hshown []⟩
  | append_singleton ms m ih =>
    have hstep := tallies_step
      (fun i a ha => sound_run (w := new config authorizer now) rfl ms ha) m
    have hafter : (new config authorizer now).after (ms ++ [m]) =
        (((new config authorizer now).after ms).step m).1 := after_append _ ms [m]
    have hlast := hshown (ms ++ [m])
    rw [hafter] at hlast
    constructor
    · rw [hafter, hstep.violations, ih.violations, refusals_snoc]
    · rw [run_snoc_what, told_append, totals_append, ih.totals, hstep.totals, hafter,
        hstep.violations]
      cases ((new config authorizer now).after ms).takesRefusal m with
      | false => exact List.append_nil _
      | true =>
        rw [Bool.toNat_true, List.range'_1_concat, Nat.add_comm 1]
        rfl
    · have hbefore := ih.counted
      have hcounted := hstep.counted
      rw [hafter, hstep.violations, fatalities_snoc]
      omega
    · have hbefore := ih.fatalities
      have hfailures := hstep.failures
      rw [hafter, fatalities_snoc]
      omega
    · rw [hafter]
      exact hlast

/-- The refusal of a probe ends the manager that is made for it. The limiter has counted it and told
its total; the manager shows none. -/
theorem violations_tallied_refusedProbe :
    Tally (new .default .none century) (refusedProbe ++ [.command 0]) ∧
      ((new .default .none century).after (refusedProbe ++ [.command 0])).violations = 1 ∧
      ((new .default .none century).after (refusedProbe ++ [.command 0])).actors.map
        (·.snapshot.violations) = [0] ∧
      (new .default .none century).fatalities (refusedProbe ++ [.command 0]) = 1 :=
  ⟨violations_tallied .default .none century _, by decide +kernel, by decide +kernel,
    by decide +kernel⟩

end Limiter

end Throttle
