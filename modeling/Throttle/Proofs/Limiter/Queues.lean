import Throttle.Proofs.Limiter.Ending
import Throttle.Proofs.Limiter.Listeners
import Throttle.Proofs.Manager.Cancellation

/-!
  What listeners know of the queues. As long as a manager runs, the length that they heard last is
  the length of its queue, which is also the one that it shows (`queue_announced`). When a manager
  stops, it empties its queue and shows that, but listeners are not told: they go on believing that
  it holds what it held when it was told to stop.
-/

namespace Throttle

open Http Actor

namespace Limiter

variable {w : Limiter} {m : Move} {ms : List Move} {i : Nat} {a : Actor}

/-! ## What is heard of one manager -/

/-- What listeners hear of a manager in some moves, in order. -/
def toldBy (w : Limiter) (i : Nat) : List Move → List Event
  | [] => []
  | m :: ms => (if m.actor? = some i then told (w.step m).2 else []) ++ (w.step m).1.toldBy i ms

theorem toldBy_snoc (w : Limiter) (i : Nat) (ms : List Move) (m : Move) :
    w.toldBy i (ms ++ [m]) =
      w.toldBy i ms ++ if m.actor? = some i then told ((w.after ms).step m).2 else [] := by
  induction ms generalizing w with
  | nil => exact List.append_nil _
  | cons n ms ih => rw [List.cons_append, toldBy, ih, toldBy, List.append_assoc]; rfl

/-- The length of a manager's queue that listeners heard last, or 0. -/
def lastQueued (w : Limiter) (i : Nat) (ms : List Move) : Nat := queuedAfter (w.toldBy i ms) 0

theorem lastQueued_of_other (hm : m.actor? ≠ some i) :
    w.lastQueued i (ms ++ [m]) = w.lastQueued i ms := by
  unfold lastQueued
  rw [toldBy_snoc, if_neg hm, List.append_nil]

theorem lastQueued_of_acting {d : Deed} (ha : (w.after ms).actors[i]? = some a)
    (hm : m.actor? = some i) (hd : m.deed? (w.after ms).surroundings = some d) :
    w.lastQueued i (ms ++ [m]) = queuedAfter (tells (a.outputs d)) (w.lastQueued i ms) := by
  have houtputs : (w.after ms).outputsOf i d = a.outputs d := by
    unfold outputsOf
    rw [ha]
    rfl
  unfold lastQueued
  rw [toldBy_snoc, if_pos hm, (acting_told hm hd).1, houtputs, queuedAfter_append]

/-- Nothing is heard of a manager before it is made. -/
theorem lastQueued_of_none (hnone : (w.after ms).actors[i]? = none) : w.lastQueued i ms = 0 := by
  induction ms using List.reverseRecOn with
  | nil => rfl
  | append_singleton ms m ih =>
    rw [after_append] at hnone
    have hbefore : (w.after ms).actors[i]? = none := by
      cases hb : (w.after ms).actors[i]? with
      | none => rfl
      | some b =>
        obtain ⟨c, hc⟩ := step_keeps (w.after ms) m hb
        exact nomatch hnone.symm.trans hc
    by_cases hm : m.actor? = some i
    · obtain ⟨d, hd, -⟩ := acting_step hm (w.after ms)
      have houtputs : (w.after ms).outputsOf i d = [] := by
        unfold outputsOf
        rw [hbefore]
        rfl
      unfold lastQueued at ih ⊢
      rw [toldBy_snoc, if_pos hm, (acting_told hm hd).1, houtputs, queuedAfter_append,
        ih hbefore]
      rfl
    · rw [lastQueued_of_other hm]
      exact ih hbefore

/-! ## Every manager of a run -/

theorem shown_run (hactors : w.actors = []) (ms : List Move)
    (ha : (w.after ms).actors[i]? = some a) : a.snapshot = a.manager.snapshot :=
  managers_induction (P := fun _ a => a.snapshot = a.manager.snapshot) (fun _ _ => rfl)
    (fun h _ => h) (fun _ _ h => h) (fun h hc _ => hc.snapshot_eq h) hactors ms ha

/-- A manager stopped in a run, and listeners believe that it still holds what it held then. -/
def Silenced (w : Limiter) (ms : List Move) (i : Nat) : Prop :=
  ∃ front back b, ms = front ++ .command i :: back ∧ (w.after front).actors[i]? = some b ∧
    b.Stops ∧ w.lastQueued i ms = b.manager.queue.length

/-- What listeners know of the queue of a manager. -/
inductive Announced (w : Limiter) (ms : List Move) (i : Nat) (a : Actor) : Prop where
  | running (hstage : a.stage = .running) (h : w.lastQueued i ms = a.manager.queue.length)
  | silenced (hstage : a.stage ≠ .running) (hempty : a.manager.queue = [])
      (h : Silenced w ms i)
  | failed (hstage : a.stage = .failed)

theorem Silenced.snoc (h : Silenced w ms i)
    (hsame : w.lastQueued i (ms ++ [m]) = w.lastQueued i ms) : Silenced w (ms ++ [m]) i := by
  obtain ⟨front, back, b, rfl, hb, hstops, hlast⟩ := h
  exact ⟨front, back ++ [m], b, List.append_assoc .., hb, hstops, hsame.trans hlast⟩

/-- What a deed makes of the queue, listeners know if the manager goes on. -/
theorem Announced.acted {d : Deed} (h : Announced w ms i a)
    (ha : (w.after ms).actors[i]? = some a) (hsound : Sound (w.after ms).now a)
    (hm : m.actor? = some i) (hd : m.deed? (w.after ms).surroundings = some d) :
    Announced w (ms ++ [m]) i (a.undergo d) := by
  have hlast := lastQueued_of_acting ha hm hd
  cases undergo_queue hsound d with
  | failed hfailed => exact .failed hfailed
  | told hbefore hafter htold =>
    cases h with
    | running hstage h => exact .running hafter (by rw [hlast, h, htold])
    | silenced hstage hempty h => exact absurd hbefore hstage
    | failed hstage => exact nomatch hbefore.symm.trans hstage
  | emptied hcommand hstops hsilent hempty hafter =>
    cases h with
    | running hstage h =>
      subst hcommand
      have hcommand : m = .command i := by
        cases m <;> cases hd
        cases hm
        rfl
      subst hcommand
      refine .silenced hafter hempty ⟨ms, [], a, rfl, ha, hstops, ?_⟩
      rw [hlast, hsilent]
      exact h
    | silenced hstage hempty h => exact absurd hstops.running hstage
    | failed hstage => exact nomatch hstops.running.symm.trans hstage
  | ended hbefore hafter hsilent hsame =>
    cases h with
    | running hstage h => exact absurd hstage hbefore
    | silenced hstage hempty h =>
      exact .silenced hafter (hsame.trans hempty) (h.snoc (hlast.trans (hsilent _)))
    | failed hstage => exact .failed ((undergo_change a d).failed hstage)

theorem announced_run (hactors : w.actors = []) (ms : List Move)
    (ha : (w.after ms).actors[i]? = some a) : Announced w ms i a := by
  induction ms using List.reverseRecOn generalizing a with
  | nil =>
    rw [after_nil, hactors] at ha
    cases ha
  | append_singleton ms m ih =>
    rw [after_append] at ha
    cases step_touches (w.after ms) m i ha with
    | fed hb hm cs connected hseeds =>
      have hsame : w.lastQueued i (ms ++ [m]) = w.lastQueued i ms := lastQueued_of_other hm
      cases ih hb with
      | running hstage h => exact .running hstage (hsame.trans h)
      | silenced hstage hempty h => exact .silenced hstage hempty (h.snoc hsame)
      | failed hstage => exact .failed hstage
    | made name hnone hprobe cs connected hseeds =>
      have hm : m.actor? ≠ some i := by cases m <;> first | exact absurd rfl hprobe | nofun
      exact .running rfl ((lastQueued_of_other hm).trans (lastQueued_of_none hnone))
    | acted hb hm hd => exact (ih hb).acted hb (sound_run hactors ms hb) hm hd

/-- In every run, the length that a manager shows is the length of its queue, and between two messages
it is the one that listeners heard last. A manager that was told to stop has emptied its queue, but what
listeners heard last is the length that its queue had then. -/
theorem queue_announced (config : Config) (authorizer : Authorizer) (now : Moment) (ms : List Move)
    (ha : ((new config authorizer now).after ms).actors[i]? = some a) :
    a.snapshot.queued = a.manager.queue.length ∧
      (a.stage = .running →
        (new config authorizer now).lastQueued i ms = a.manager.queue.length) ∧
      (a.stage = .closing ∨ a.stage = .stopped →
        a.manager.queue = [] ∧ Silenced (new config authorizer now) ms i) := by
  refine ⟨congrArg Snapshot.queued (shown_run rfl ms ha), ?_⟩
  cases announced_run rfl ms ha with
  | running hstage h =>
    refine ⟨fun _ => h, fun hended => ?_⟩
    rw [hstage] at hended
    rcases hended with hended | hended <;> cases hended
  | silenced hstage hempty h => exact ⟨fun hrunning => absurd hrunning hstage, fun _ => ⟨hempty, h⟩⟩
  | failed hstage =>
    rw [hstage]
    exact ⟨nofun, fun hended => by rcases hended with hended | hended <;> cases hended⟩

/-- Two requests are in the queue when the manager stops. Listeners believe in them for good. -/
theorem queue_announced_stoppedRun :
    ∃ a, ((new .default .none 0).after (stoppedRun ++ [.command 0])).actors[0]? = some a ∧
      a.stage = .closing ∧ a.snapshot.queued = 0 ∧
      (new .default .none 0).lastQueued 0 (stoppedRun ++ [.command 0]) = 2 ∧
      Silenced (new .default .none 0) (stoppedRun ++ [.command 0]) 0 := by
  have hshape : (((new .default .none 0).after (stoppedRun ++ [.command 0])).actors[0]?).map
      (·.stage) = some .closing := by decide +kernel
  obtain ⟨a, ha, hstage⟩ := Option.map_eq_some_iff.1 hshape
  obtain ⟨hshown, -, hstopped⟩ := queue_announced .default .none 0 (stoppedRun ++ [.command 0]) ha
  obtain ⟨hempty, hsilenced⟩ := hstopped (.inl hstage)
  rw [hempty] at hshown
  exact ⟨a, ha, hstage, hshown, by decide +kernel, hsilenced⟩

end Limiter

end Throttle
