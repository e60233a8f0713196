import Throttle.Proofs.Manager.Naming
import Throttle.Proofs.Manager.Reports

/-!
  What an actor tells listeners with a deed. It passes on what its turns tell: the total of a refusal
  that it takes in, once (`undergo_counts`), and the length of its queue for as long as it goes on
  (`undergo_queue`). Of its last act, in which it empties its queue, it tells nothing.
-/

namespace Throttle

open Http Turn

namespace Actor

variable {s : Surroundings} {a b : Actor} {step : Step} {d : Deed}

/-! ## Steps -/

/-- What an actor brings about with a deed. -/
def outputs (a : Actor) : Deed → List Output
  | .command s => (a.command s).elim [] Step.outputs
  | .signal s => (a.signal s).elim [] Step.outputs
  | _ => []

/-- A step that takes in a refusal, or does not. If it ends the actor, nothing is counted. -/
structure Step.Reports (s : Surroundings) (a : Actor) (step : Step) (refusal : Bool) : Prop where
  told : totals (tells step.outputs) = Manager.told s refusal
  counted : step.actor.stage ≠ .failed →
    step.actor.manager.violations = a.manager.violations + (Manager.told s refusal).length
  failed : step.actor.stage = .failed → step.actor.manager = a.manager
  queued : step.actor.stage = .running →
    queuedAfter (tells step.outputs) a.manager.queue.length = step.actor.manager.queue.length

theorem finish_reports {t : Turn Manager} {refusal : Bool} {stage : Stage} {holding : List Pending}
    (h : t.Reports a.manager (Manager.told s refusal)) (hb : b.manager = a.manager)
    (hstage : stage ≠ .failed) : (b.finish stage holding t).Reports s a refusal := by
  unfold finish
  dsimp only
  cases hr : t.result with
  | ok m =>
    exact ⟨h.told, fun _ => h.counted m hr, fun hfailed => absurd hfailed hstage,
      fun _ => h.queued m hr⟩
  | error e =>
    refine ⟨h.told, fun hgoes => absurd rfl hgoes, fun _ => ?_, nofun⟩
    rw [foldl_perform]
    exact hb

/-- An actor that stops empties its queue and tells nobody. -/
theorem close_reports (a : Actor) :
    a.close.Reports s a false := by
  have hended := close_stage a
  have hunfailed := close_unfailed a
  rw [close_eq] at hended hunfailed ⊢
  exact ⟨congrArg totals (Manager.tells_close _ _), fun _ => rfl,
    fun hfailed => absurd hfailed hunfailed, fun hrunning => absurd hrunning hended⟩

theorem close_of_manager (hb : b.manager = a.manager) : b.close.Reports s a false := by
  have h := close_reports (s := s) b
  exact ⟨h.told, hb ▸ h.counted, hb ▸ h.failed, hb ▸ h.queued⟩

theorem command_reports (h : a.command s = some step) :
    step.Reports s a (a.nextSeed.any (·.isViolation)) := by
  unfold command at h
  split at h
  · cases h
  · rename_i hstage
    have hrunning := not_not.1 hstage
    split at h
    · rename_i hmailbox
      split at h <;> cases h
      simp only [nextSeed, hrunning, hmailbox]
      exact close_reports a
    · rename_i c rest hmailbox
      dsimp only at h
      cases c with
      | seed reply =>
        cases h
        have hreports := Manager.receive_reports s a.manager (.seed reply)
        simp only [nextSeed, hrunning, hmailbox, List.any_cons, List.any_nil, Bool.or_false]
        exact finish_reports hreports rfl nofun
      | queue p =>
        cases h
        simp only [nextSeed, hrunning, hmailbox, List.any_nil]
        exact finish_reports (Manager.receive_reports s a.manager (.queue p)) rfl nofun
      | shutdown =>
        cases h
        simp only [nextSeed, hrunning, hmailbox, List.any_nil]
        exact close_of_manager rfl

/-- The next signal of an actor brings no refusal unless it is the reply of a request. -/
theorem nextReply_refused (hstage : a.stage = .running ∨ a.stage = .closing)
    {result : Except TransportFailure Reply} {rest : List Signal}
    (hinbox : a.inbox = .reply result :: rest) :
    a.nextReply.any (·.isViolation) = refused result := by
  unfold nextReply
  rw [hinbox]
  rcases hstage with hstage | hstage <;> rw [hstage] <;> cases result <;> rfl

theorem nextReply_of_other (h : ∀ result rest, a.inbox = .reply result :: rest →
    a.stage ≠ .running ∧ a.stage ≠ .closing) : a.nextReply.any (·.isViolation) = false := by
  unfold nextReply
  split
  · rename_i result rest hstage hinbox
    exact absurd hstage (h result rest hinbox).1
  · rename_i result rest hstage hinbox
    exact absurd hstage (h result rest hinbox).2
  · rfl

theorem signal_reports {now : Moment} (hsound : Sound now a) (h : a.signal s = some step) :
    step.Reports s a (a.nextReply.any (·.isViolation)) := by
  unfold signal at h
  cases hinbox : a.inbox with
  | nil =>
    rw [hinbox] at h
    cases h
  | cons x rest =>
    rw [hinbox] at h
    dsimp only at h
    have still : Step.Reports s a ⟨{ a with inbox := rest }, [], []⟩ false :=
      ⟨rfl, fun _ => rfl, fun _ => rfl, fun _ => rfl⟩
    have hother (h : ∀ result, x = .reply result → a.stage ≠ .running ∧ a.stage ≠ .closing) :
        a.nextReply.any (·.isViolation) = false := by
      refine nextReply_of_other fun result rest' hcons => h result ?_
      rw [hinbox] at hcons
      exact (List.cons.inj hcons).1
    split at h <;> cases h
    · rw [hother nofun]
      exact finish_reports (Manager.receive_reports s a.manager (.fire _)) rfl nofun
    · rename_i result hstage
      have hwired := hsound.wired hstage
      rw [hinbox] at hwired
      have hreports := Manager.receive_reports s a.manager (.reply result)
      rw [Manager.Message.refuses, decide_eq_true hwired.of_reply.1, Bool.true_and] at hreports
      rw [nextReply_refused (.inl hstage) hinbox]
      exact finish_reports hreports rfl nofun
    · rw [hother nofun]
      exact still
    · rename_i result hstage
      rw [nextReply_refused (.inr hstage) hinbox]
      exact finish_reports (Manager.conclude_reports s result a.manager) rfl nofun
    · rename_i hreply _ hclosing
      rw [hother fun result hx => ⟨fun hstage => hreply result hstage hx,
        fun hstage => hclosing result hstage hx⟩]
      exact still

/-! ## Refusals -/

/-- An actor takes in a refusal with a deed. -/
def refusal (a : Actor) : Deed → Bool
  | .command _ => a.nextSeed.any (·.isViolation)
  | .signal _ => a.nextReply.any (·.isViolation)
  | _ => false

theorem refusal_alive (h : a.refusal d = true) : a.stage ≠ .failed := by
  intro hfailed
  cases d with
  | command s =>
    simp only [refusal, nextSeed, hfailed] at h
    cases h
  | signal s =>
    simp only [refusal, nextReply, hfailed] at h
    cases h
  | _ => cases h

theorem nextReply_of_signal (h : a.signal s = none) : a.nextReply = none := by
  unfold signal at h
  split at h
  · rename_i hinbox
    unfold nextReply
    rw [hinbox]
    split <;> first | rfl | rename_i hcons; cases hcons
  · dsimp only at h
    split at h <;> cases h

/-- An actor handles a message with a deed, or its manager stays as it is. -/
inductive Steps (a : Actor) : Deed → Actor → Prop where
  | still {d : Deed} {b : Actor} (houtputs : a.outputs d = []) (hrefusal : a.refusal d = false)
      (hstage : b.stage = a.stage) (hmanager : b.manager = a.manager) : Steps a d b
  | commanded {s : Surroundings} {b : Actor} {step : Step} (h : a.command s = some step)
      (houtputs : a.outputs (.command s) = step.outputs) (hb : b = step.actor) :
      Steps a (.command s) b
  | signaled {s : Surroundings} {b : Actor} {step : Step} (h : a.signal s = some step)
      (houtputs : a.outputs (.signal s) = step.outputs) (hb : b = step.actor) :
      Steps a (.signal s) b

theorem undergo_steps (a : Actor) (d : Deed) : Steps a d (a.undergo d) := by
  cases d with
  | post c =>
    simp only [undergo]
    split <;> exact .still rfl rfl rfl rfl
  | command s =>
    cases h : a.command s with
    | none =>
      simp only [undergo, h, Option.elim_none]
      refine .still (by simp only [outputs, h, Option.elim_none]) ?_ rfl rfl
      simp only [refusal, nextSeed_of_command h, List.any_nil]
    | some step =>
      simp only [undergo, h, Option.elim_some]
      exact .commanded h (by simp only [outputs, h, Option.elim_some]) rfl
  | signal s =>
    cases h : a.signal s with
    | none =>
      simp only [undergo, h, Option.elim_none]
      refine .still (by simp only [outputs, h, Option.elim_none]) ?_ rfl rfl
      simp only [refusal, nextReply_of_signal h, Option.any_none]
    | some step =>
      simp only [undergo, h, Option.elim_some]
      exact .signaled h (by simp only [outputs, h, Option.elim_some]) rfl
  | ring now =>
    simp only [undergo, ring]
    cases a.alarm.filter fun x => decide (x.due ≤ now) <;> exact .still rfl rfl rfl rfl
  | returned id r =>
    simp only [undergo, returned]
    split <;> exact .still rfl rfl rfl rfl
  | disconnect => exact .still rfl rfl rfl rfl

/-- What a deed counts: the refusal that the actor takes in, unless it ends the actor. -/
structure Counts (s : Surroundings) (a : Actor) (d : Deed) (b : Actor) : Prop where
  told : totals (tells (a.outputs d)) = Manager.told s (a.refusal d)
  counted : b.stage ≠ .failed →
    b.manager.violations = a.manager.violations + (a.refusal d).toNat
  failed : b.stage = .failed → b.manager = a.manager

theorem length_told (s : Surroundings) (refusal : Bool) :
    (Manager.told s refusal).length = refusal.toNat := by
  cases refusal <;> rfl

theorem Step.Reports.counts (h : step.Reports s a (a.refusal d))
    (houtputs : a.outputs d = step.outputs) : Counts s a d step.actor :=
  ⟨houtputs ▸ h.told, length_told s (a.refusal d) ▸ h.counted, h.failed⟩

theorem Counts.of_same (houtputs : a.outputs d = []) (hrefusal : a.refusal d = false)
    (hmanager : b.manager = a.manager) : Counts s a d b := by
  refine ⟨?_, fun _ => ?_, fun _ => hmanager⟩
  · rw [houtputs, hrefusal]
    rfl
  · rw [hmanager, hrefusal]
    rfl

theorem undergo_counts {now : Moment} (hsound : Sound now a) (hat : d.At s) :
    Counts s a d (a.undergo d) := by
  cases undergo_steps a d with
  | still houtputs hrefusal hstage hmanager => exact .of_same houtputs hrefusal hmanager
  | commanded h houtputs hb =>
    obtain rfl := hat
    rw [hb]
    exact (command_reports h).counts houtputs
  | signaled h houtputs hb =>
    obtain rfl := hat
    rw [hb]
    exact (signal_reports hsound h).counts houtputs

/-- An actor has counted what it took in, but for a refusal that ended it. -/
theorem Counts.balance (h : Counts s a d b) :
    b.manager.violations + (a.refusal d && b.stage = .failed).toNat =
      a.manager.violations + (a.refusal d).toNat := by
  by_cases hfailed : b.stage = .failed
  · rw [h.failed hfailed, decide_eq_true hfailed, Bool.and_true]
  · rw [h.counted hfailed, decide_eq_false hfailed, Bool.and_false]
    rfl

/-- An actor that a refusal ends had not failed before, and one that has failed stays so. -/
theorem undergo_failures (a : Actor) (d : Deed) :
    (decide (a.stage = .failed)).toNat + (a.refusal d && (a.undergo d).stage = .failed).toNat ≤
      (decide ((a.undergo d).stage = .failed)).toNat := by
  cases hrefusal : a.refusal d with
  | true =>
    rw [decide_eq_false (refusal_alive hrefusal), Bool.true_and]
    exact Nat.le_of_eq (Nat.zero_add _)
  | false =>
    rw [Bool.false_and]
    by_cases hfailed : a.stage = .failed
    · rw [decide_eq_true ((undergo_change a d).failed hfailed)]
      exact Bool.toNat_le _
    · rw [decide_eq_false hfailed]
      exact Nat.zero_le _

/-! ## Queues -/

/-- What a deed makes of the queue, and of what listeners know of its length. -/
inductive Queued (a : Actor) (d : Deed) (b : Actor) : Prop where
  | told (hbefore : a.stage = .running) (hafter : b.stage = .running)
      (h : queuedAfter (tells (a.outputs d)) a.manager.queue.length = b.manager.queue.length)
  | failed (h : b.stage = .failed)
  | emptied {s : Surroundings} (hd : d = .command s) (hstops : a.Stops)
      (hsilent : tells (a.outputs d) = []) (hempty : b.manager.queue = [])
      (hafter : b.stage ≠ .running)
  | ended (hbefore : a.stage ≠ .running) (hafter : b.stage ≠ .running)
      (hsilent : ∀ n, queuedAfter (tells (a.outputs d)) n = n)
      (h : b.manager.queue = a.manager.queue)

theorem Queued.of_same (houtputs : a.outputs d = []) (hstage : b.stage = a.stage)
    (hmanager : b.manager = a.manager) : Queued a d b := by
  by_cases hrunning : a.stage = .running
  · refine .told hrunning (hstage.trans hrunning) ?_
    rw [houtputs, hmanager]
    rfl
  · refine .ended hrunning (hstage ▸ hrunning) ?_ (congrArg Manager.queue hmanager)
    rw [houtputs]
    exact fun _ => rfl

theorem finish_running (a : Actor) (holding : List Pending) (t : Turn Manager) :
    (a.finish .running holding t).actor.stage = .running ∨
      (a.finish .running holding t).actor.stage = .failed := by
  unfold finish
  dsimp only
  cases t.result with
  | ok m => exact .inl rfl
  | error e => exact .inr rfl

/-- An actor that does not go on after a command has failed, or was to stop. -/
theorem command_ends (h : a.command s = some step) :
    a.stage = .running ∧
      (step.actor.stage = .running ∨ step.actor.stage = .failed ∨ a.Stops) := by
  have goes {b : Actor} {holding : List Pending} {t : Turn Manager} :
      (b.finish .running holding t).actor.stage = .running ∨
        (b.finish .running holding t).actor.stage = .failed ∨ a.Stops :=
    (finish_running b holding t).imp_right .inl
  unfold command at h
  split at h
  · cases h
  · rename_i hstage
    have hrunning := not_not.1 hstage
    refine ⟨hrunning, ?_⟩
    split at h
    · rename_i hmailbox
      split at h
      · cases h
      · rename_i hconnected
        exact .inr (.inr ⟨hrunning, .inr ⟨hmailbox, by simpa using hconnected⟩⟩)
    · rename_i c rest hmailbox
      cases c with
      | seed reply => cases h; exact goes
      | queue p => cases h; exact goes
      | shutdown => exact .inr (.inr ⟨hrunning, .inl ⟨rest, hmailbox⟩⟩)

theorem command_queue (h : a.command s = some step)
    (houtputs : a.outputs (.command s) = step.outputs) : Queued a (.command s) step.actor := by
  obtain ⟨hrunning, hgoes | hfailed | hstops⟩ := command_ends h
  · refine .told hrunning hgoes ?_
    rw [houtputs]
    exact (command_reports h).queued hgoes
  · exact .failed hfailed
  · rw [hstops.command_eq s] at h
    cases h
    refine .emptied rfl hstops ?_ ?_ (close_stage a)
    · rw [houtputs, close_eq]
      exact Manager.tells_close _ _
    · rw [close_eq]
      rfl

theorem signal_queue {now : Moment} (hsound : Sound now a) (h : a.signal s = some step)
    (houtputs : a.outputs (.signal s) = step.outputs) : Queued a (.signal s) step.actor := by
  have hreports := signal_reports hsound h
  have goes (hrunning : a.stage = .running)
      (hstage : step.actor.stage = .running ∨ step.actor.stage = .failed) :
      Queued a (.signal s) step.actor := by
    rcases hstage with hgoes | hfailed
    · refine .told hrunning hgoes ?_
      rw [houtputs]
      exact hreports.queued hgoes
    · exact .failed hfailed
  have ended (hended : a.stage ≠ .running) (hstage : step.actor.stage ≠ .running)
      (hsilent : ∀ n, queuedAfter (tells step.outputs) n = n)
      (hsame : step.actor.manager.queue = a.manager.queue) : Queued a (.signal s) step.actor := by
    rw [← houtputs] at hsilent
    exact .ended hended hstage hsilent hsame
  unfold signal at h
  split at h
  · cases h
  · rename_i x rest hinbox
    dsimp only at h
    by_cases hrunning : a.stage = .running
    · refine goes hrunning ?_
      rw [hrunning] at h
      cases x <;> cases h <;> exact finish_running _ _ _
    · split at h <;> cases h
      · exact absurd ‹_› hrunning
      · exact absurd ‹_› hrunning
      · exact ended hrunning hrunning (fun _ => rfl) rfl
      · rename_i result _
        rw [conclude_eq] at ended ⊢
        exact ended hrunning nofun (Manager.queuedAfter_conclude s result a.manager)
          (a.manager.concluded_queue result)
      · exact ended hrunning hrunning (fun _ => rfl) rfl

/-- Listeners know the length of the queue until the actor stops. -/
theorem undergo_queue {now : Moment} (hsound : Sound now a) (d : Deed) : Queued a d (a.undergo d) := by
  cases undergo_steps a d with
  | still houtputs hrefusal hstage hmanager => exact .of_same houtputs hstage hmanager
  | commanded h houtputs hb =>
    rw [hb]
    exact command_queue h houtputs
  | signaled h houtputs hb =>
    rw [hb]
    exact signal_queue hsound h houtputs

end Actor

end Throttle
