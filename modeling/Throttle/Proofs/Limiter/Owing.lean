import Throttle.Proofs.Limiter.Conservation
import Throttle.Proofs.Manager.Breakdown

/-!
  No caller gets two results, in any run. A limiter owes an answer to the submissions that it holds,
  but for those that were lost to managers that failed (`owed`). What a move delivers it owes no more
  (`owed_step`), also when a manager fails in it. So what a run has delivered and what is owed after
  it are together at most what was submitted (`owed_run`).
-/

namespace Throttle

open Http Actor

/-- Everybody who gets a result is somebody whose submission ends. -/
theorem delivered_sublist_endings (hs : List Happening) :
    ((delivered hs).map (·.1)).Sublist (endings hs) := by
  induction hs with
  | nil => exact .slnil
  | cons h hs ih =>
    unfold delivered endings at ih ⊢
    cases h with
    | answered id result => exact ih.cons_cons id
    | notice span n =>
      rw [List.filterMap_cons_none rfl, List.filterMap_cons]
      split
      · exact ih
      · exact ih.cons _
    | event e => exact ih
    | count p t => exact ih
    | transmitted sender r => exact ih

namespace Limiter

variable {w v : Limiter} {m : Move} {id k : Nat} {a : Actor} {step : Actor.Step}

/-! ## What is owed -/

/-- How often a limiter owes a submission an answer. -/
def owed (w : Limiter) (id : Nat) : Nat :=
  (w.routes.flatMap fun x => x.2.ids).count id + (w.actors.flatMap Actor.dues).count id

/-- A limiter owes an answer to what it holds, or has lost it. -/
theorem held_eq_owed_add (w : Limiter) (id : Nat) :
    w.held id = w.owed id + (w.actors.flatMap Actor.lost).count id := by
  have hsplit (as : List Actor) : (as.flatMap Actor.custody).count id =
      (as.flatMap Actor.dues).count id + (as.flatMap Actor.lost).count id := by
    induction as with
    | nil => rfl
    | cons a as ih =>
      have hone := count_custody a id
      simp only [count_flatMap_cons]
      omega
  unfold held owed
  rw [hsplit, Nat.add_assoc]

/-- Lists of lists compare place by place. -/
theorem count_flatMap_le {α : Type} {f : α → List Nat} {xs ys : List α}
    (h : ∀ (i : Nat) x, xs[i]? = some x → ∃ y, ys[i]? = some y ∧ (f x).count id ≤ (f y).count id) :
    (xs.flatMap f).count id ≤ (ys.flatMap f).count id := by
  induction xs generalizing ys with
  | nil => exact Nat.zero_le _
  | cons x xs ih =>
    obtain ⟨y, hy, hle⟩ := h 0 x rfl
    cases ys with
    | nil => cases hy
    | cons z ys =>
      obtain rfl := Option.some.inj hy
      have hrest := @ih ys fun i x hx => h (i + 1) x hx
      rw [count_flatMap_cons, count_flatMap_cons]
      omega

/-- What is lost stays lost. -/
theorem lost_step (w : Limiter) (m : Move) (id : Nat) :
    (w.actors.flatMap Actor.lost).count id ≤
      ((w.step m).1.actors.flatMap Actor.lost).count id := by
  refine count_flatMap_le fun i a ha => ?_
  obtain ⟨b, hb⟩ := step_keeps w m ha
  refine ⟨b, hb, ?_⟩
  by_cases hfailed : a.stage = .failed
  · obtain ⟨c, ds, hbefore, -, rfl, -⟩ := step_lives w m i hb
    obtain rfl : a = c := by
      rcases hbefore with hc | ⟨hnone, -⟩
      · exact Option.some.inj (ha.symm.trans hc)
      · exact nomatch hnone.symm.trans ha
    obtain ⟨hlater, hcustody⟩ := live_of_over (.inl hfailed) ds
    rw [lost_of_failed hfailed, lost_of_failed (hlater.trans hfailed), hcustody]
  · rw [lost_of_stage hfailed]
    exact Nat.zero_le _

/-! ## Orphans -/

theorem delivered_orphan (w : Limiter) (p : Pending) :
    delivered (w.orphan p).2 =
      if p.id ∈ w.answered ∨ p.id ∈ w.dropped then [] else [(p.id, .error .shutdown)] := by
  unfold orphan
  simp only [List.contains_iff_mem]
  split
  · rename_i hanswered
    rw [if_pos (.inl hanswered)]
    rfl
  · rename_i hanswered
    simp only [delivered_answer, hanswered, false_or]

theorem answered_orphan (w : Limiter) (p : Pending) :
    (w.orphan p).1.answered =
      ((delivered (w.orphan p).2).map (·.1)).reverse ++ w.answered := by
  unfold orphan
  split
  · rfl
  · exact answered_answer w p.id _

/-- The orphans that get a result get it once, and have none before. -/
theorem delivered_orphans (w : Limiter) (ps : List Pending) :
    ((delivered (each orphan w ps).2).map (·.1)).Nodup ∧
      ∀ id ∈ (delivered (each orphan w ps).2).map (·.1),
        id ∉ w.answered ∧ ∃ p ∈ ps, p.id = id := by
  induction ps generalizing w with
  | nil => exact ⟨.nil, List.forall_mem_nil _⟩
  | cons p ps ih =>
    obtain ⟨hnodup, hrest⟩ := ih (w.orphan p).1
    rw [each_cons, delivered_append, List.map_append]
    have hfirst : ∀ id ∈ (delivered (w.orphan p).2).map (·.1), id ∉ w.answered ∧ p.id = id := by
      intro id hid
      rw [delivered_orphan] at hid
      split at hid
      · cases hid
      · rename_i hnew
        obtain rfl := List.mem_singleton.1 hid
        exact ⟨fun hanswered => hnew (.inl hanswered), rfl⟩
    rw [answered_orphan] at hrest
    constructor
    · refine List.nodup_append.2 ⟨?_, hnodup, fun id hid k hk => ?_⟩
      · rw [delivered_orphan]
        split
        · exact .nil
        · exact List.pairwise_singleton _ _
      · rintro rfl
        exact (hrest id hk).1 (List.mem_append_left _ (List.mem_reverse.2 hid))
    · intro id hid
      rcases List.mem_append.1 hid with hid | hid
      · exact ⟨(hfirst id hid).1, p, .head _, (hfirst id hid).2⟩
      · obtain ⟨hnew, q, hq, hqid⟩ := hrest id hid
        exact ⟨fun hmem => hnew (List.mem_append_right _ hmem), q, .tail _ hq, hqid⟩

/-! ## Moves -/

/-- The submissions whose callers got results, among some happenings. -/
def paid (hs : List Happening) : List Nat := (delivered hs).map (·.1)

@[simp] theorem paid_append (hs gs : List Happening) : paid (hs ++ gs) = paid hs ++ paid gs := by
  unfold paid
  rw [delivered_append, List.map_append]

theorem count_paid_le (hs : List Happening) (id : Nat) :
    (paid hs).count id ≤ (endings hs).count id := (delivered_sublist_endings hs).count_le id

/-- A manager that fails owes nothing more, and it has answered only what it owed. -/
theorem commit_owed (ha : w.actors[k]? = some a) (hbreaks : a.Breaks step)
    (hfailed : step.actor.stage = .failed) (id : Nat) :
    (w.commit k step).1.owed id + (paid (w.commit k step).2).count id ≤ w.owed id := by
  have howed : (w.commit k step).1.owed id + a.dues.count id = w.owed id := by
    have hset := count_flatMap_set (f := Actor.dues) id ha step.actor
    rw [dues_of_failed hfailed, List.count_nil] at hset
    have hroutes : (w.commit k step).1.core.routes = (w.placed k step.actor).core.routes :=
      congrArg routes (core_commit w k step)
    change (w.commit k step).1.routes = w.routes at hroutes
    unfold owed
    rw [actors_of_core (core_commit w k step), hroutes]
    dsimp only
    omega
  suffices hpaid : (paid (w.commit k step).2).count id ≤ a.dues.count id by omega
  generalize hu : each (perform k (managerSpan step.actor)) (w.placed k step.actor) step.outputs = u
  have hsplit : (w.commit k step).2 = u.2 ++ (each orphan u.1 step.orphans).2 := by
    rw [← hu]
    rfl
  have hanswered : u.1.answered = (paid u.2).reverse ++ w.answered := by
    rw [← hu]
    exact answered_performAll _ _ _ _
  have hanswers : (paid u.2).Sublist a.dues := by
    rw [← hu]
    unfold paid
    rw [delivered_performAll]
    exact (List.filter_sublist.map _).trans hbreaks.answers
  obtain ⟨hnodup, horphans⟩ := delivered_orphans u.1 step.orphans
  have hle := hanswers.count_le id
  rw [hsplit, paid_append, List.count_append]
  by_cases hid : id ∈ paid (each orphan u.1 step.orphans).2
  · obtain ⟨hnew, p, hp, rfl⟩ := horphans id hid
    have hnone : (paid u.2).count p.id = 0 := by
      refine List.count_eq_zero.2 fun hmem => hnew ?_
      rw [hanswered]
      exact List.mem_append_left _ (List.mem_reverse.2 hmem)
    have hone : (paid (each orphan u.1 step.orphans).2).count p.id ≤ 1 :=
      List.nodup_iff_count.1 hnodup p.id
    have hdue := List.count_pos_iff.2 (hbreaks.orphans p hp)
    omega
  · rw [List.count_eq_zero.2 hid]
    exact hle

theorem withActor_owed {g : Surroundings → Actor → Option Actor.Step}
    (hbreaks : ∀ {a step}, g w.surroundings a = some step → step.actor.stage = .failed →
      a.Breaks step) {b : Actor} (hb : (w.withActor k g).1.actors[k]? = some b)
    (hfailed : b.stage = .failed) (id : Nat) :
    (w.withActor k g).1.owed id + (paid (w.withActor k g).2).count id ≤ w.owed id := by
  unfold withActor at hb ⊢
  cases ha : w.actors[k]? with
  | none => exact Nat.le_refl _
  | some a =>
    rw [ha] at hb
    dsimp only at hb ⊢
    cases hg : g w.surroundings a with
    | none => exact Nat.le_refl _
    | some step =>
      rw [hg] at hb
      dsimp only at hb ⊢
      rw [actor_commit ha step] at hb
      obtain rfl := Option.some.inj hb
      exact commit_owed ha (hbreaks hg hfailed) hfailed id

/-- What is owed after a move and what the move delivers was owed before, or is submitted in it. -/
theorem owed_step (h : w.Housed) (m : Move) (id : Nat) :
    (w.step m).1.owed id + (paid (w.step m).2).count id ≤
      w.owed id + ((w.submits? m).toList.map fun _ => w.nextId).count id := by
  by_cases hcalm : ∀ id, m ≠ .cancel id ∧ m ≠ .letGo id
  · by_cases hfails : ∃ k b, (m = .command k ∨ m = .signal k) ∧
        (w.step m).1.actors[k]? = some b ∧ b.stage = .failed
    · obtain ⟨k, b, rfl | rfl, hb, hfailed⟩ := hfails
      · exact withActor_owed breaks_of_command hb hfailed id
      · exact withActor_owed breaks_of_signal hb hfailed id
    · have hsettles := settles_step h m hcalm fun k hm a ha hfailed =>
        hfails ⟨k, a, hm, ha, hfailed⟩
      have hbound := hsettles.bound id
      have hpaid := count_paid_le (w.step m).2 id
      have hlost := lost_step w m id
      rw [held_eq_owed_add, held_eq_owed_add, List.count_nil] at hbound
      omega
  · have howed (k : Nat) : (w.letGo k).owed id = w.owed id := by
      unfold letGo
      split <;> rfl
    push Not at hcalm
    obtain ⟨k, hk⟩ := hcalm
    by_cases hcancel : m = .cancel k
    · subst hcancel
      exact Nat.le_of_eq (howed k)
    · obtain rfl := hk hcancel
      exact Nat.le_of_eq (howed k)

/-! ## Runs -/

/-- The results that reach their callers in a run, in order. -/
def results (w : Limiter) (ms : List Move) : List (Nat × Except Failure Reply) :=
  delivered ((w.run ms).2.map (·.what))

theorem results_snoc (w : Limiter) (ms : List Move) (m : Move) :
    w.results (ms ++ [m]) = w.results ms ++ delivered ((w.after ms).step m).2 := by
  unfold results
  rw [run_snoc_what, delivered_append]

/-- How often the caller of a submission gets a result in a run. -/
def resolutions (w : Limiter) (ms : List Move) (id : Nat) : Nat :=
  ((w.results ms).map (·.1)).count id

theorem resolutions_snoc (w : Limiter) (ms : List Move) (m : Move) (id : Nat) :
    w.resolutions (ms ++ [m]) id =
      w.resolutions ms id + (paid ((w.after ms).step m).2).count id := by
  unfold resolutions
  rw [results_snoc, List.map_append, List.count_append]
  rfl

theorem housed_new (config : Config) (authorizer : Authorizer) (now : Moment) (ms : List Move) :
    ((new config authorizer now).after ms).Housed :=
  housed_run (kept_new config authorizer now).housed ms

/-- In every run, what is still owed and what was delivered was submitted. -/
theorem owed_run (config : Config) (authorizer : Authorizer) (now : Moment) (ms : List Move)
    (id : Nat) :
    ((new config authorizer now).after ms).owed id +
        (new config authorizer now).resolutions ms id ≤
      ((new config authorizer now).after ms).issued id := by
  induction ms using List.reverseRecOn with
  | nil => exact Nat.zero_le _
  | append_singleton ms m ih =>
    have hnumbered : 0 < ((new config authorizer now).after ms).nextId :=
      Nat.lt_of_lt_of_le Nat.one_pos (nextId_le_run (new config authorizer now) ms)
    have hstep := owed_step (housed_new config authorizer now ms) m id
    rw [after_append, resolutions_snoc, after_cons, after_nil, issued_step hnumbered]
    omega

/-- In every run, no caller gets two results. -/
theorem resolutions_le_one (config : Config) (authorizer : Authorizer) (now : Moment)
    (ms : List Move) (id : Nat) :
    ((new config authorizer now).after ms).owed id +
      (new config authorizer now).resolutions ms id ≤ 1 := by
  refine Nat.le_trans (owed_run config authorizer now ms id) ?_
  unfold issued
  split
  · exact Nat.le_refl 1
  · exact Nat.zero_le 1

end Limiter

end Throttle
