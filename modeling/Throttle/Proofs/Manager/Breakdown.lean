import Throttle.Proofs.Manager.Ending

/-!
  Turns that leave the calendar. What such a turn has brought about before stays: it may have
  answered the active request, and nothing else (`receive_answersOnly`). The actor fails, and all
  that it owed an answer is lost to it (`breaks_of_command`, `breaks_of_signal`). What an actor holds
  when its life is over does not change any more (`live_of_over`).
-/

namespace Throttle

open Http Turn

/-- The requests that a turn answers are among some, in order, whether it leaves the calendar or
not. -/
def Turn.AnswersOnly (t : Turn α) (ids : List Nat) : Prop :=
  ((answers t.outputs).map (·.1)).Sublist ids

namespace Turn.AnswersOnly

variable {t : Turn α} {f : α → Turn β} {os : List Output} {ids rest : List Nat}

theorem pure (a : α) : (Pure.pure a : Turn α).AnswersOnly [] := .slnil

theorem bind (h : t.AnswersOnly ids) (hf : ∀ a, t.result = .ok a → (f a).AnswersOnly rest) :
    (t >>= f).AnswersOnly (ids ++ rest) := by
  cases hr : t.result with
  | error e =>
    rw [bind_of_error hr]
    exact h.trans (List.sublist_append_left ids rest)
  | ok a =>
    rw [bind_of_ok hr]
    unfold AnswersOnly
    rw [answers_append, List.map_append]
    exact h.append (hf a hr)

/-- A turn that answers nobody, before another. -/
theorem after (h : t.AnswersOnly []) (hf : ∀ a, t.result = .ok a → (f a).AnswersOnly ids) :
    (t >>= f).AnswersOnly ids := h.bind hf

theorem tell {f : Unit → Turn β} (h : answers os = []) (hf : (f ()).AnswersOnly ids) :
    (Turn.tell os >>= f).AnswersOnly ids := by
  refine after ?_ fun _ _ => hf
  show ((answers os).map _).Sublist []
  rw [h]
  exact .slnil

theorem lift {r : Except Overflow α} (hf : ∀ a, r = .ok a → (f a).AnswersOnly ids) :
    (Turn.lift r >>= f).AnswersOnly ids := after (t := Turn.lift r) .slnil hf

theorem of_silent (h : Silent t.outputs) : t.AnswersOnly [] := by
  unfold AnswersOnly
  rw [h.answers_eq]
  exact .slnil

theorem of_nil (h : t.AnswersOnly []) (ids : List Nat) : t.AnswersOnly ids :=
  h.trans (List.nil_sublist ids)

end Turn.AnswersOnly

namespace Manager

variable {s : Surroundings} {m : Manager} {msg : Message}

/-- The active request, by number. -/
def activeIds (m : Manager) : List Nat := m.active.toList.map (·.id)

theorem finish_answersOnly (m : Manager) (result : Except Failure Reply) :
    (m.finish result).AnswersOnly m.activeIds := by
  unfold AnswersOnly activeIds
  rw [finish_answers, List.map_map]
  exact .refl _

theorem plan_answersOnly (s : Surroundings) (p : Pending) (m : Manager) :
    (plan s p m).AnswersOnly [] := by
  unfold plan
  exact .lift fun sendAt _ => .tell rfl (.of_silent (silent_schedule s sendAt _))

theorem activate_answersOnly (s : Surroundings) (m : Manager) :
    (activate s m).AnswersOnly [] := by
  unfold activate
  split
  · exact .pure m
  · refine .tell (answers_flatMap_abandon m _) ?_
    split
    · dsimp only
      split
      · exact .tell rfl (.pure _)
      · exact .pure _
    · exact .tell rfl (plan_answersOnly s _ _)

theorem skipActive_answersOnly (s : Surroundings) (p : Pending) (m : Manager) :
    (m.skipActive s p).AnswersOnly [] :=
  .tell (answers_abandon m p) (activate_answersOnly s _)

theorem suspend_answersOnly (s : Surroundings) (e : PolicyError) (m : Manager) :
    (m.suspend s e).AnswersOnly [] :=
  .lift fun resume _ => .tell rfl (.of_silent (silent_schedule s resume _))

theorem absorb_answersOnly (reply : Reply) (m : Manager) : (m.absorb reply).AnswersOnly [] :=
  .of_silent (silent_absorb reply m)

theorem send_answersOnly (s : Surroundings) (m : Manager) : (m.send s).AnswersOnly m.activeIds := by
  cases hactive : m.active with
  | none =>
    rw [send_of_none hactive]
    exact (activate_answersOnly s _).of_nil _
  | some p =>
    cases hg : s.gone p.id with
    | true =>
      rw [send_of_gone hactive hg]
      exact (skipActive_answersOnly s p m).of_nil _
    | false =>
      cases ha : s.authorizer p.request with
      | error refusal =>
        rw [send_of_unsigned hactive hg ha, ← List.append_nil m.activeIds]
        exact .tell rfl ((finish_answersOnly m.back _).bind fun _ _ => activate_answersOnly s _)
      | ok signed =>
        rw [send_of_signed hactive hg ha]
        exact List.nil_sublist _

theorem onViolation_answersOnly (s : Surroundings) (reply : Reply) (before : Status) (m : Manager) :
    (m.onViolation s reply before).AnswersOnly [] := by
  rw [onViolation_eq]
  refine .tell (by split <;> rfl) (.after (.of_silent (silent_countViolation s _ m)) fun _ _ => ?_)
  refine .lift fun lapse _ => ?_
  unfold retry
  split
  · exact activate_answersOnly s _
  · split
    · exact skipActive_answersOnly s _ _
    · exact .lift fun sendAt _ => .tell rfl (.of_silent (silent_schedule s sendAt _))

theorem onAccepted_answersOnly (s : Surroundings) (reply : Reply) (absorbed : Absorbed)
    (m : Manager) : (m.onAccepted s reply absorbed).AnswersOnly m.activeIds := by
  rw [onAccepted_eq]
  refine .tell (by split <;> rfl) (.after (.of_silent (silent_outcome m reply absorbed)) ?_)
  intro result _
  rw [← List.append_nil m.activeIds]
  refine (finish_answersOnly m result).bind fun _ _ => ?_
  split
  · exact (suspend_answersOnly s _ _).after fun _ _ => activate_answersOnly s _
  · exact activate_answersOnly s _

theorem onReply_answersOnly (s : Surroundings) (result : Except TransportFailure Reply)
    (m : Manager) : (m.onReply s result).AnswersOnly m.activeIds := by
  unfold onReply
  split
  · exact List.nil_sublist _
  · dsimp only
    cases result with
    | error e =>
      rw [← List.append_nil m.activeIds]
      exact .tell rfl ((finish_answersOnly m.back _).bind fun _ _ => activate_answersOnly s _)
    | ok reply =>
      refine (absorb_answersOnly reply m.back).after fun x hx => ?_
      obtain rfl := Except.ok.inj ((absorb_result reply m.back).symm.trans hx)
      dsimp only
      split
      · exact (onViolation_answersOnly s reply _ _).of_nil _
      · exact onAccepted_answersOnly s reply _ (m.back.heard reply)

/-- Whatever becomes of a message, its turn answers the active request at most. -/
theorem receive_answersOnly (s : Surroundings) (m : Manager) (msg : Message) :
    (m.receive s msg).AnswersOnly m.activeIds := by
  cases msg with
  | seed reply =>
    refine Turn.AnswersOnly.of_nil (t := m.onSeed s reply) ?_ _
    unfold onSeed
    refine (absorb_answersOnly reply m).after fun x _ => ?_
    dsimp only
    split
    · refine .tell rfl (.after (.of_silent (silent_countViolation s _ _)) fun _ _ => ?_)
      exact .lift fun lapse _ => activate_answersOnly s _
    · exact activate_answersOnly s _
  | queue p =>
    refine Turn.AnswersOnly.of_nil (t := m.onQueue s p) ?_ _
    unfold onQueue
    split
    · exact .tell (answers_abandon m p) (.pure m)
    · exact .tell rfl (activate_answersOnly s _)
  | fire generation =>
    show (m.onFire s generation).AnswersOnly _
    unfold onFire
    split
    · exact List.nil_sublist _
    · split
      · exact send_answersOnly s m
      · exact send_answersOnly s m
      · exact Turn.AnswersOnly.of_nil (.tell rfl (activate_answersOnly s _)) _
      · exact List.nil_sublist _
      · exact List.nil_sublist _
  | reply result => exact onReply_answersOnly s result m

end Manager

/-! ## Actors -/

namespace Actor

variable {s : Surroundings} {a b : Actor} {step : Step}

/-- The requests that an actor owes an answer, by number. One that has failed owes none: they were
lost to it. -/
def dues (a : Actor) : List Nat := if a.stage = .failed then [] else a.custody

/-- The requests that were lost to an actor, by number. -/
def lost (a : Actor) : List Nat := if a.stage = .failed then a.custody else []

theorem dues_of_failed (h : a.stage = .failed) : a.dues = [] := if_pos h

theorem dues_of_stage (h : a.stage ≠ .failed) : a.dues = a.custody := if_neg h

theorem lost_of_failed (h : a.stage = .failed) : a.lost = a.custody := if_pos h

theorem lost_of_stage (h : a.stage ≠ .failed) : a.lost = [] := if_neg h

/-- An actor owes an answer to what it holds, or has lost it. -/
theorem count_custody (a : Actor) (id : Nat) :
    a.custody.count id = a.dues.count id + a.lost.count id := by
  by_cases hfailed : a.stage = .failed
  · rw [dues_of_failed hfailed, lost_of_failed hfailed, List.count_nil, Nat.zero_add]
  · rw [dues_of_stage hfailed, lost_of_stage hfailed, List.count_nil, Nat.add_zero]

/-- A step answers and orphans only requests that the actor owed an answer. -/
structure Breaks (a : Actor) (step : Step) : Prop where
  answers : ((answers step.outputs).map (·.1)).Sublist a.dues
  orphans : ∀ p ∈ step.orphans, p.id ∈ a.dues

theorem activeIds_sublist_custody (a : Actor) : a.manager.activeIds.Sublist a.custody := by
  rw [custody_eq, Manager.custody, List.map_append, List.append_assoc]
  exact List.sublist_append_left _ _

/-- A step that does nothing but take a signal. -/
theorem breaks_of_nothing (a b : Actor) : a.Breaks ⟨b, [], []⟩ where
  answers := List.nil_sublist _
  orphans := List.forall_mem_nil _

/-- A message that ends the actor. -/
theorem Takes.breaks {msg : Manager.Message} {holding : List Pending} (h : a.Takes msg b)
    (hstage : a.stage = .running) (hholding : ∀ p ∈ holding, p.id ∈ msg.brings)
    (hfailed : (b.finish .running holding (a.manager.receive s msg)).actor.stage = .failed) :
    a.Breaks (b.finish .running holding (a.manager.receive s msg)) := by
  have hdues : a.dues = a.custody := dues_of_stage (by rw [hstage]; nofun)
  refine ⟨?_, fun p hp => ?_⟩
  · rw [finish_outputs, hdues]
    exact (Manager.receive_answersOnly s a.manager msg).trans a.activeIds_sublist_custody
  · rw [hdues, h.custody_perm.mem_iff]
    have hmanager : b.manager = a.manager := by cases h <;> rfl
    have horphans : p ∈ b.held ++ holding := by
      unfold finish at hp hfailed
      cases hr : (a.manager.receive s msg).result with
      | ok m =>
        rw [hr] at hfailed
        cases hfailed
      | error e =>
        rw [hr] at hp
        exact hp
    rcases List.mem_append.1 horphans with hheld | hbrought
    · have hid : p.id ∈ b.custody := List.mem_map_of_mem hheld
      rw [custody_eq, hmanager] at hid
      rcases List.mem_append.1 hid with hmine | hwaits
      · exact List.mem_append_left _ (List.mem_append_left _ hmine)
      · exact List.mem_append_right _ hwaits
    · exact List.mem_append_left _ (List.mem_append_right _ (hholding p hbrought))

/-- The step of an actor that stops. -/
theorem close_eq (a : Actor) :
    a.close = ⟨a.deaf.after (if a.manager.inFlight then .closing else .stopped) a.manager.ending
        (a.manager.close (queuedIn a.mailbox)).outputs,
      (a.manager.close (queuedIn a.mailbox)).outputs, []⟩ :=
  finish_of_ok (Manager.close_result _ _)

/-- Stopping does not end an actor outside the calendar. -/
theorem close_unfailed (a : Actor) : a.close.actor.stage ≠ .failed := by
  rw [close_eq, after_stage]
  split <;> nofun

theorem breaks_of_command (h : a.command s = some step) (hfailed : step.actor.stage = .failed) :
    a.Breaks step := by
  unfold command at h
  split at h
  · cases h
  · rename_i hstage
    rw [not_not] at hstage
    split at h
    · split at h <;> cases h
      exact absurd hfailed a.close_unfailed
    · rename_i c rest hmailbox
      cases c with
      | seed reply =>
        cases h
        exact (Takes.seed hmailbox).breaks hstage (List.forall_mem_nil _) hfailed
      | queue p =>
        cases h
        refine (Takes.queue hmailbox).breaks hstage ?_ hfailed
        exact List.forall_mem_singleton.2 (List.mem_singleton_self p.id)
      | shutdown =>
        cases h
        exact absurd hfailed (close_unfailed _)

/-- The step of a closing actor that takes in the reply to its last request. -/
theorem conclude_eq (s : Surroundings) (r : Except TransportFailure Reply) (a : Actor)
    (rest : List Signal) :
    { a with inbox := rest }.finish .stopped [] (a.manager.conclude s r) =
      ⟨{ a with inbox := rest }.after .stopped (a.manager.concluded r)
          (a.manager.conclude s r).outputs,
        (a.manager.conclude s r).outputs, []⟩ :=
  finish_of_ok (Manager.conclude_yields s r a.manager).result

theorem breaks_of_signal (h : a.signal s = some step) (hfailed : step.actor.stage = .failed) :
    a.Breaks step := by
  unfold signal at h
  split at h
  · cases h
  · rename_i x rest hinbox
    dsimp only at h
    split at h <;> cases h
    · rename_i hstage
      exact (Takes.fire hinbox).breaks hstage (List.forall_mem_nil _) hfailed
    · rename_i hstage
      exact (Takes.reply hinbox).breaks hstage (List.forall_mem_nil _) hfailed
    · exact breaks_of_nothing a _
    · rw [conclude_eq] at hfailed
      cases hfailed
    · exact breaks_of_nothing a _

/-- An actor whose life is over stays as it is, and holds what it held. -/
theorem undergo_of_over (h : a.stage = .failed ∨ a.stage = .stopped) (d : Deed) :
    (a.undergo d).stage = a.stage ∧ (a.undergo d).custody = a.custody := by
  have hrunning : a.stage ≠ .running := by rcases h with h | h <;> rw [h] <;> nofun
  cases d with
  | post c =>
    have hsame : a.undergo (.post c) = a := if_neg fun hopen => hrunning (beq_iff_eq.1 hopen)
    rw [hsame]
    exact ⟨rfl, rfl⟩
  | command s =>
    have hnone : a.command s = none := if_pos hrunning
    simp only [undergo, hnone, Option.elim_none]
    exact ⟨trivial, trivial⟩
  | signal s =>
    simp only [undergo, signal]
    cases a.inbox with
    | nil => exact ⟨rfl, rfl⟩
    | cons x rest => rcases h with h | h <;> dsimp only <;> rw [h] <;> cases x <;> exact ⟨rfl, rfl⟩
  | ring now =>
    simp only [undergo, ring]
    cases a.alarm.filter fun x => decide (x.due ≤ now) <;> exact ⟨rfl, rfl⟩
  | returned id result =>
    simp only [undergo, returned]
    split <;> exact ⟨rfl, rfl⟩
  | disconnect => exact ⟨rfl, rfl⟩

theorem live_of_over (h : a.stage = .failed ∨ a.stage = .stopped) (ds : List Deed) :
    (a.live ds).stage = a.stage ∧ (a.live ds).custody = a.custody := by
  induction ds generalizing a with
  | nil => exact ⟨rfl, rfl⟩
  | cons d ds ih =>
    obtain ⟨hstage, hcustody⟩ := undergo_of_over h d
    obtain ⟨hlater, hkept⟩ := ih (by rwa [hstage])
    exact ⟨hlater.trans hstage, hkept.trans hcustody⟩

end Actor

end Throttle
