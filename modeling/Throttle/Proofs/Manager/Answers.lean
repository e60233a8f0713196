import Throttle.Proofs.Manager.Life

/-!
  Which requests leave a manager for good, and how. `answers` are the results among some outputs,
  `ends` the requests that get one or are dropped because their callers are gone. `Accounts` is the
  balance of a turn: what was held before is held afterwards or has ended, and what ended without an
  answer had no caller any more. Every handled message keeps it (`Handling.accounts`), and so do the
  stop and the end of a manager (`close_accounts`, `conclude_accounts`). What a running manager
  answers is listed in `Handling.answered`.
-/

namespace Throttle

open Http Turn

/-! ## Outputs that end a request -/

namespace Notice

/-- The request that a line says was dropped because its caller is gone. -/
def gone? (n : Notice) : Option Nat :=
  if n.message = (callerGone 0).message then
    n.fields.head?.bind fun field => Text.digits? field.2.toList
  else none

theorem gone?_callerGone (id : Nat) : (callerGone id).gone? = some id := by
  have hid : (toString id).toList = Text.decimal id := String.toList_ofList
  show Text.digits? (toString id).toList = some id
  rw [hid, Text.digits?_decimal]

end Notice

namespace Output

/-- The answer that an output gives to a caller. -/
def answer? : Output → Option (Nat × Except Failure Reply)
  | .answer id result => some (id, result)
  | _ => none

/-- The request that an output ends. -/
def end? : Output → Option Nat
  | .answer id _ => some id
  | .notice n => n.gone?
  | _ => none

end Output

/-- The answers among some outputs, in order. -/
def answers (os : List Output) : List (Nat × Except Failure Reply) := os.filterMap Output.answer?

/-- The requests that some outputs end, in order. -/
def ends (os : List Output) : List Nat := os.filterMap Output.end?

@[simp] theorem answers_append (os ps : List Output) :
    answers (os ++ ps) = answers os ++ answers ps := List.filterMap_append

@[simp] theorem ends_append (os ps : List Output) : ends (os ++ ps) = ends os ++ ends ps :=
  List.filterMap_append

/-- Outputs that end no request. -/
def Silent (os : List Output) : Prop := ∀ o ∈ os, o.end? = none

theorem Silent.ends_eq {os : List Output} (h : Silent os) : ends os = [] :=
  List.filterMap_eq_nil_iff.2 h

theorem silent_nil : Silent [] := List.forall_mem_nil _

theorem silent_cons {o : Output} {os : List Output} (ho : o.end? = none) (h : Silent os) :
    Silent (o :: os) := List.forall_mem_cons.2 ⟨ho, h⟩

theorem Silent.append {os ps : List Output} (ho : Silent os) (hp : Silent ps) :
    Silent (os ++ ps) := List.forall_mem_append.2 ⟨ho, hp⟩

theorem silent_ite {c : Prop} [Decidable c] {os : List Output} (h : Silent os) :
    Silent (if c then os else []) := by
  split
  · exact h
  · exact silent_nil

theorem Silent.answers_eq {os : List Output} (h : Silent os) : answers os = [] := by
  refine List.filterMap_eq_nil_iff.2 fun o ho => ?_
  cases o with
  | answer id result => exact nomatch h _ ho
  | _ => rfl

/-! ## The balance of a turn -/

/-- What was held before is held after, or the outputs have ended it; what they ended without an
answer had no caller any more. -/
structure Accounts (s : Surroundings) (before after : List Nat) (os : List Output) : Prop where
  balance : before.Perm (after ++ ends os)
  known : ∀ id ∈ ends os, s.gone id = true ∨ ∃ result, (id, result) ∈ answers os

namespace Accounts

variable {s : Surroundings} {before middle after : List Nat} {os ps : List Output}

theorem silent (h : Silent os) (before : List Nat) : Accounts s before before os where
  balance := by rw [h.ends_eq, List.append_nil]
  known := by
    rw [h.ends_eq]
    exact List.forall_mem_nil _

theorem trans (h : Accounts s before middle os) (h' : Accounts s middle after ps) :
    Accounts s before after (os ++ ps) where
  balance := by
    rw [ends_append]
    refine h.balance.trans ((h'.balance.append_right _).trans ?_)
    rw [List.append_assoc]
    exact List.perm_append_comm.append_left after
  known id hid := by
    rw [ends_append, List.mem_append] at hid
    simp only [answers_append, List.mem_append]
    rcases hid with hid | hid
    · exact (h.known id hid).imp_right fun ⟨result, hr⟩ => ⟨result, .inl hr⟩
    · exact (h'.known id hid).imp_right fun ⟨result, hr⟩ => ⟨result, .inr hr⟩

theorem of_perm (h : Accounts s middle after os) (hp : before.Perm middle) :
    Accounts s before after os :=
  ⟨hp.trans h.balance, h.known⟩

/-- An output before the others that ends nothing. -/
theorem cons {o : Output} (h : Accounts s before after os) (ho : o.end? = none) :
    Accounts s before after (o :: os) :=
  (silent (silent_cons ho silent_nil) before).trans h

theorem append_right (h : Accounts s before after os) (rest : List Nat) :
    Accounts s (before ++ rest) (after ++ rest) os where
  balance := by
    refine (h.balance.append_right rest).trans ?_
    rw [List.append_assoc, List.append_assoc]
    exact List.perm_append_comm.append_left after
  known := h.known

end Accounts

namespace Manager

variable {s : Surroundings} {m m' : Manager} {msg : Message} {os : List Output}

/-- The requests that a manager holds. -/
def custody (m : Manager) : List Nat := (m.active.toList ++ m.queue).map (·.id)

theorem custody_of_some {p : Pending} (h : m.active = some p) :
    m.custody = p.id :: m.queue.map (·.id) := by
  rw [custody, h]
  rfl

/-! ### Parts of a turn that end nothing -/

theorem silent_countViolation (s : Surroundings) (id : Option Nat) (m : Manager) :
    Silent (m.countViolation s id).outputs :=
  silent_cons rfl (silent_cons rfl (silent_cons rfl silent_nil))

theorem silent_schedule (s : Surroundings) (due : Moment) (m : Manager) :
    Silent (schedule s due m).outputs := by
  rw [schedule_outputs]
  exact (silent_ite (silent_cons rfl silent_nil)).append (silent_cons rfl silent_nil)

theorem silent_absorb (reply : Reply) (m : Manager) : Silent (m.absorb reply).outputs := by
  unfold absorb
  rw [bind_of_ok (readHeaders_result reply m)]
  refine Silent.append ?_ silent_nil
  unfold readHeaders
  split
  · exact silent_nil
  · split
    · rw [bind_of_ok (adopt_result _ m), adopt_outputs]
      refine .append (.append ?_ (.append ?_ (silent_cons rfl silent_nil))) silent_nil
      · split
        · intro o h
          obtain ⟨d, -, rfl⟩ := List.mem_map.1 h
          rfl
        · exact silent_nil
      · exact silent_ite (silent_cons rfl silent_nil)
    · exact silent_cons rfl (silent_cons rfl silent_nil)

theorem silent_outcome (m : Manager) (reply : Reply) (absorbed : Absorbed) :
    Silent (m.outcome reply absorbed).outputs := by
  unfold outcome
  split
  · exact silent_cons rfl silent_nil
  · split <;> exact silent_nil

theorem silent_refusalOutputs (s : Surroundings) (before : Status) (m : Manager) :
    Silent (refusalOutputs s before m) :=
  (silent_ite (silent_cons rfl silent_nil)).append (silent_countViolation s _ m)

theorem silent_planOutputs (s : Surroundings) (p : Pending) (sendAt : Moment) (m : Manager) :
    Silent (planOutputs s p sendAt m) :=
  silent_cons rfl (silent_schedule s sendAt _)

/-! ### Parts of a turn that end a request -/

theorem abandon_ends (m : Manager) (p : Pending) : ends (m.abandon p) = [p.id] := by
  have hgone : Output.end? (.notice (.callerGone p.id)) = some p.id :=
    Notice.gone?_callerGone p.id
  unfold abandon ends
  rw [List.filterMap_cons_some hgone]
  rfl

theorem answers_abandon (m : Manager) (p : Pending) : answers (m.abandon p) = [] := rfl

theorem flatMap_abandon_ends (m : Manager) (ps : List Pending) :
    ends (ps.flatMap m.abandon) = ps.map (·.id) := by
  induction ps with
  | nil => rfl
  | cons p ps ih => rw [List.flatMap_cons, ends_append, abandon_ends, ih]; rfl

theorem answers_flatMap_abandon (m : Manager) (ps : List Pending) :
    answers (ps.flatMap m.abandon) = [] := by
  induction ps with
  | nil => rfl
  | cons p ps ih => rw [List.flatMap_cons, answers_append, answers_abandon, ih]; rfl

/-- Requests that are dropped had no callers any more. -/
theorem flatMap_abandon_accounts (m : Manager) {ps : List Pending}
    (hgone : ∀ p ∈ ps, s.gone p.id = true) (rest : List Nat) :
    Accounts s (ps.map (·.id) ++ rest) rest (ps.flatMap m.abandon) where
  balance := by
    rw [flatMap_abandon_ends]
    exact List.perm_append_comm
  known id hid := by
    rw [flatMap_abandon_ends] at hid
    obtain ⟨p, hp, rfl⟩ := List.mem_map.1 hid
    exact .inl (hgone p hp)

theorem abandon_accounts (m : Manager) {p : Pending} (hgone : s.gone p.id = true)
    (rest : List Nat) : Accounts s (p.id :: rest) rest (m.abandon p) := by
  have h := m.flatMap_abandon_accounts (s := s) (List.forall_mem_singleton.2 hgone) rest
  rwa [List.flatMap_singleton] at h

theorem finish_answers (m : Manager) (result : Except Failure Reply) :
    answers (m.finish result).outputs = m.active.toList.map fun p => (p.id, result) := by
  unfold finish
  cases m.active with
  | none => rfl
  | some p => cases result <;> rfl

theorem finish_ends (m : Manager) (result : Except Failure Reply) :
    ends (m.finish result).outputs = m.active.toList.map (·.id) := by
  unfold finish
  cases m.active with
  | none => rfl
  | some p => cases result <;> rfl

theorem finish_accounts (s : Surroundings) (m : Manager) (result : Except Failure Reply) :
    Accounts s m.custody (m.queue.map (·.id)) (m.finish result).outputs where
  balance := by
    rw [finish_ends, custody, List.map_append]
    exact List.perm_append_comm
  known id hid := by
    rw [finish_ends] at hid
    obtain ⟨p, hp, rfl⟩ := List.mem_map.1 hid
    exact .inr ⟨result, by rw [finish_answers]; exact List.mem_map.2 ⟨p, hp, rfl⟩⟩

/-! ### Turning to the queue -/

theorem Activation.answers_eq (h : Activation s m m' os) : answers os = [] := by
  cases h with
  | busy hbusy => rfl
  | drained hactive hphase hgone =>
    rw [answers_append, answers_flatMap_abandon]
    split <;> rfl
  | planned gone rest p sendAt hactive hphase hqueue hgone hlive hsend =>
    rw [answers_append, answers_flatMap_abandon, List.nil_append]
    refine Silent.answers_eq (silent_cons rfl ?_)
    exact silent_planOutputs s p sendAt _

/-- Turning to the queue moves a request to the active place and drops those whose callers are
gone. -/
theorem Activation.accounts (h : Activation s m m' os) :
    Accounts s m.custody m'.custody os := by
  cases h with
  | busy hbusy => exact .silent silent_nil _
  | drained hactive hphase hgone =>
    have hdropped := m.flatMap_abandon_accounts hgone []
    rw [List.append_nil] at hdropped
    have hcustody : m.custody = m.queue.map (·.id) := by rw [custody, hactive]; rfl
    have hafter : { m with queue := [] : Manager }.custody = [] := by
      rw [custody]
      simp [hactive]
    rw [hcustody, hafter]
    refine hdropped.trans (.silent ?_ [])
    split
    · exact silent_cons rfl silent_nil
    · exact silent_nil
  | planned gone rest p sendAt hactive hphase hqueue hgone hlive hsend =>
    have hcustody : m.custody = gone.map (·.id) ++ (p :: rest).map (·.id) := by
      rw [custody, hactive, hqueue, ← List.map_append]
      rfl
    rw [hcustody]
    exact (m.flatMap_abandon_accounts hgone _).trans
      (.silent (silent_cons rfl (silent_planOutputs s p sendAt _)) _)

/-- Turning to the queue with a free place. -/
theorem Activation.accounts_of_vacated (h : Activation s m.vacated m' os) :
    Accounts s (m.queue.map (·.id)) m'.custody os := h.accounts

theorem Retrial.accounts {wait : Delay} {lapse : Moment} (h : Retrial s wait lapse m m' os) :
    Accounts s m.custody m'.custody os := by
  cases h with
  | empty hactive next => exact next.accounts
  | skipped hactive hgone next =>
    rw [custody_of_some hactive]
    exact (m.abandon_accounts hgone _).trans next.accounts_of_vacated
  | again hactive hlive hsend =>
    exact .silent (silent_cons rfl (silent_schedule s _ _)) m.custody

theorem Retrial.answers_eq {wait : Delay} {lapse : Moment} (h : Retrial s wait lapse m m' os) :
    answers os = [] := by
  cases h with
  | empty hactive next => exact next.answers_eq
  | skipped hactive hgone next => exact next.answers_eq
  | again hactive hlive hsend => exact (silent_schedule s _ _).answers_eq

/-! ### Messages -/

/-- The request that comes with a message. -/
def Message.brings : Message → List Nat
  | .queue p => [p.id]
  | _ => []

theorem passOutputs_accounts (s : Surroundings) (reply : Reply) (m : Manager) :
    Accounts s m.custody (m.queue.map (·.id)) (passOutputs reply m) :=
  (Accounts.silent (silent_ite (silent_cons rfl silent_nil)) m.custody).trans
    ((Accounts.silent (silent_outcome m reply _) m.custody).trans (finish_accounts s m _))

/-- A handled message leaves every request where it was, or moves it on, or ends it. -/
theorem Handling.accounts (h : Handling s m msg m' os) :
    Accounts s (m.custody ++ msg.brings) m'.custody os := by
  have alone {msg : Message} (hmsg : msg.brings = []) : m.custody ++ msg.brings = m.custody := by
    rw [hmsg, List.append_nil]
  cases h with
  | @seeded reply _ _ haccepted next =>
    rw [alone rfl]
    exact (Accounts.silent (silent_absorb reply m) m.custody).trans next.accounts
  | @seedRefused reply _ _ _ _ hrefused hpaused hlapse next =>
    rw [alone rfl]
    refine (Accounts.silent (silent_absorb reply m) m.custody).trans (.cons ?_ rfl)
    exact (Accounts.silent (silent_countViolation s none _) m.custody).trans next.accounts
  | joinedGone hgone =>
    exact (m.abandon_accounts hgone m.custody).of_perm List.perm_append_comm
  | @joined p _ _ hlive next =>
    have hcustody : m.custody ++ [p.id] = { m with queue := m.queue ++ [p] : Manager }.custody := by
      simp [custody]
    show Accounts s (m.custody ++ [p.id]) _ _
    rw [hcustody]
    exact (next.accounts.cons rfl).cons rfl
  | fireStale hstale =>
    rw [alone rfl]
    exact .silent silent_nil _
  | fireIdle hphase =>
    rw [alone rfl]
    exact .silent silent_nil _
  | resumed hphase next =>
    rw [alone rfl]
    exact next.accounts.cons rfl
  | fireEmpty hphase hactive next =>
    rw [alone rfl]
    exact next.accounts
  | skipped hphase hactive hgone next =>
    rw [alone rfl, custody_of_some hactive]
    exact (m.abandon_accounts hgone _).trans next.accounts_of_vacated
  | unsigned hphase hactive hlive hsigned next =>
    rw [alone rfl]
    exact ((finish_accounts s m.back _).trans next.accounts_of_vacated).cons rfl
  | sent hphase hactive hlive hsigned =>
    rw [alone rfl]
    exact .silent (silent_cons rfl (silent_cons rfl (silent_cons rfl silent_nil))) _
  | stray hphase =>
    rw [alone rfl]
    exact .silent (silent_cons rfl silent_nil) _
  | lost hphase next =>
    rw [alone rfl]
    exact ((finish_accounts s m.back _).trans next.accounts_of_vacated).cons rfl
  | @passed reply _ _ hphase haccepted hclear next =>
    rw [alone rfl]
    exact (Accounts.silent (silent_absorb reply m.back) m.custody).trans
      ((passOutputs_accounts s reply (m.back.heard reply)).trans next.accounts_of_vacated)
  | @suspended reply _ resume hphase haccepted hmalformed hresume =>
    rw [alone rfl]
    refine (Accounts.silent (silent_absorb reply m.back) m.custody).trans
      ((passOutputs_accounts s reply (m.back.heard reply)).trans ?_)
    exact .silent (silent_cons rfl (silent_cons rfl (silent_schedule s resume _))) _
  | @refused reply _ _ _ hphase hrefused hlapse next =>
    rw [alone rfl]
    exact (Accounts.silent (silent_absorb reply m.back) m.custody).trans
      ((Accounts.silent (silent_refusalOutputs s _ _) m.custody).trans next.accounts)

/-! ### The end of a manager -/

theorem close_outputs_eq (late : List Pending) (m : Manager) :
    (m.close late).outputs =
      .disarm :: ((if !(m.unsent ++ late).isEmpty then
          [.notice (.failingPending (m.unsent ++ late).length)] else []) ++
        ((m.unsent ++ late).map (fun p => .answer p.id (.error .shutdown)) ++
          if m.inFlight then [.notice .awaitingLast] else [])) := by
  unfold close
  dsimp only
  split <;> split <;> simp [tell_bind, pure_def]

theorem answerAll_accounts (s : Surroundings) (result : Except Failure Reply) (ps : List Pending)
    (rest : List Nat) :
    Accounts s (rest ++ ps.map (·.id)) rest (ps.map fun p => .answer p.id result) := by
  have hends : ends (ps.map fun p => .answer p.id result) = ps.map (·.id) := by
    unfold ends
    rw [List.filterMap_map]
    exact List.filterMap_eq_map.symm ▸ rfl
  refine ⟨by rw [hends], fun id hid => ?_⟩
  rw [hends] at hid
  obtain ⟨p, hp, rfl⟩ := List.mem_map.1 hid
  exact .inr ⟨result, List.mem_filterMap.2 ⟨_, List.mem_map_of_mem hp, rfl⟩⟩

/-- A manager that stops answers what it holds and what is still in its mailbox, but for the request
under way. -/
theorem close_accounts (s : Surroundings) (late : List Pending) (m : Manager) :
    Accounts s (m.custody ++ late.map (·.id)) m.ending.custody (m.close late).outputs := by
  rw [close_outputs_eq]
  refine .cons ?_ rfl
  refine (Accounts.silent (silent_ite (silent_cons rfl silent_nil)) _).trans ?_
  have hlast : Accounts s m.ending.custody m.ending.custody
      (if m.inFlight then [.notice .awaitingLast] else []) :=
    .silent (silent_ite (silent_cons rfl silent_nil)) _
  refine ((answerAll_accounts s _ (m.unsent ++ late) m.ending.custody).of_perm ?_).trans hlast
  rw [List.map_append, ← List.append_assoc]
  refine List.Perm.append_right _ (List.Perm.of_eq ?_)
  unfold custody unsent ending
  split <;> simp

/-- The reply that a stopping manager waited for ends its request. -/
theorem conclude_accounts (s : Surroundings) (result : Except TransportFailure Reply)
    (m : Manager) :
    (m.conclude s result).Ends fun m' os => Accounts s m.custody m'.custody os := by
  unfold conclude
  cases result with
  | error e =>
    refine .bind (finish_result m _) (finish_quiet m _) (.pure ?_)
    rw [List.append_nil]
    exact finish_accounts s m _
  | ok reply =>
    refine .bind (absorb_result reply m) (absorb_quiet reply m) ?_
    have habsorb : Accounts s m.custody m.custody (m.absorb reply).outputs :=
      .silent (silent_absorb reply m) _
    dsimp only
    split
    · refine .bind (countViolation_result s _ _) (countViolation_quiet s _ _) ?_
      refine .bind (finish_result _ _) (finish_quiet _ _) (.pure ?_)
      rw [List.append_nil]
      exact habsorb.trans ((Accounts.silent (silent_countViolation s _ _) _).trans
        (finish_accounts s (m.heard reply).counted _))
    · refine .bind (outcome_result _ reply) (outcome_quiet _ reply _) ?_
      refine .bind (finish_result _ _) (finish_quiet _ _) (.pure ?_)
      rw [List.append_nil]
      exact habsorb.trans ((Accounts.silent (silent_outcome _ reply _) _).trans
        (finish_accounts s (m.heard reply) _))

/-! ### What a running manager answers -/

/-- The results that a running manager gives: its request was not signed, or came to a transport
failure, or to a reply that was not refused. -/
inductive Result (s : Surroundings) (m : Manager) (p : Pending) :
    Message → Except Failure Reply → Prop where
  | unsigned {refusal : Refusal}
      (hphase : ∃ t, m.phase = .activating t ∨ m.phase = .violationWait t)
      (hsigned : s.authorizer p.request = .error refusal) :
      Result s m p (.fire m.generation) (.error (.authorization refusal))
  | lost (e : TransportFailure) : Result s m p (.reply (.error e)) (.error (.transport e))
  | passed {reply : Reply} (haccepted : reply.isViolation = false) :
      Result s m p (.reply (.ok reply)) ((m.heard reply).resultOf reply)

theorem passOutputs_answers (reply : Reply) (m : Manager) :
    answers (passOutputs reply m) = m.active.toList.map fun p => (p.id, m.resultOf reply) := by
  unfold passOutputs
  rw [answers_append, answers_append, (silent_outcome m reply _).answers_eq, finish_answers]
  split <;> rfl

/-- Every answer of a running manager goes to its active request. -/
theorem Handling.answered {id : Nat} {result : Except Failure Reply}
    (h : Handling s m msg m' os) (hmem : (id, result) ∈ answers os) :
    ∃ p, m.active = some p ∧ id = p.id ∧ Result s m p msg result := by
  -- an answer to whatever was the active request
  have active (result' : Except Failure Reply)
      (hmem : (id, result) ∈ m.active.toList.map fun p => (p.id, result'))
      (hresult : ∀ p, m.active = some p → Result s m p msg result') :
      ∃ p, m.active = some p ∧ id = p.id ∧ Result s m p msg result := by
    obtain ⟨p, hp, heq⟩ := List.mem_map.1 hmem
    cases heq
    have hp := Option.mem_toList.1 hp
    exact ⟨p, hp, rfl, hresult p hp⟩
  have nothing {os : List Output} (hnone : answers os = []) (hmem : (id, result) ∈ answers os) :
      ∃ p, m.active = some p ∧ id = p.id ∧ Result s m p msg result := by
    rw [hnone] at hmem
    cases hmem
  cases h with
  | @seeded reply _ _ haccepted next =>
    refine nothing ?_ hmem
    rw [answers_append, (silent_absorb reply m).answers_eq, next.answers_eq]
    rfl
  | @seedRefused reply _ _ _ os hrefused hpaused hlapse next =>
    refine nothing ?_ hmem
    rw [answers_append, (silent_absorb reply m).answers_eq]
    exact next.answers_eq
  | joinedGone hgone => exact nothing rfl hmem
  | joined hlive next => exact nothing next.answers_eq hmem
  | fireStale hstale => exact nothing rfl hmem
  | fireIdle hphase => exact nothing rfl hmem
  | resumed hphase next => exact nothing next.answers_eq hmem
  | fireEmpty hphase hactive next => exact nothing next.answers_eq hmem
  | skipped hphase hactive hgone next => exact nothing next.answers_eq hmem
  | @unsigned p refusal _ os hphase hactive hlive hsigned next =>
    refine active (.error (.authorization refusal)) ?_ fun q hq => ?_
    · change _ ∈ answers ((m.back.finish _).outputs ++ os) at hmem
      rwa [answers_append, finish_answers, next.answers_eq, List.append_nil] at hmem
    · obtain rfl := Option.some.inj (hactive.symm.trans hq)
      exact .unsigned hphase hsigned
  | sent hphase hactive hlive hsigned => exact nothing rfl hmem
  | stray hphase => exact nothing rfl hmem
  | @lost e _ os hphase next =>
    refine active (.error (.transport e)) ?_ fun p _ => .lost e
    change _ ∈ answers ((m.back.finish _).outputs ++ os) at hmem
    rwa [answers_append, finish_answers, next.answers_eq, List.append_nil] at hmem
  | @passed reply _ _ hphase haccepted hclear next =>
    refine active ((m.heard reply).resultOf reply) ?_ fun p _ => .passed haccepted
    rwa [answers_append, (silent_absorb reply m.back).answers_eq, answers_append,
      passOutputs_answers, next.answers_eq, List.append_nil] at hmem
  | @suspended reply _ resume hphase haccepted hmalformed hresume =>
    refine active ((m.heard reply).resultOf reply) ?_ fun p _ => .passed haccepted
    have hrest : answers (schedule s resume ((m.heard reply).pausing resume)).outputs = [] :=
      (silent_schedule s resume _).answers_eq
    rw [answers_append, (silent_absorb reply m.back).answers_eq, answers_append,
      passOutputs_answers] at hmem
    change _ ∈ _ ++ answers (schedule s resume _).outputs at hmem
    rwa [hrest, List.append_nil] at hmem
  | @refused reply _ _ _ hphase hrefused hlapse next =>
    refine nothing ?_ hmem
    rw [answers_append, (silent_absorb reply m.back).answers_eq, answers_append,
      (silent_refusalOutputs s _ _).answers_eq, next.answers_eq]
    rfl

end Manager

/-! ## Actors -/

namespace Actor

variable {s : Surroundings} {a b : Actor} {step : Step}

/-- The requests that an actor holds, by number. -/
def custody (a : Actor) : List Nat := a.held.map (·.id)

theorem custody_eq (a : Actor) :
    a.custody = a.manager.custody ++ (queuedIn a.mailbox).map (·.id) := List.map_append

/-- What a step of an actor consists of. -/
inductive Course (s : Surroundings) (a : Actor) : Step → Prop where
  | handled {msg : Manager.Message} {b : Actor} (holding : List Pending)
      (hstage : a.stage = .running) (htakes : a.Takes msg b) :
      Course s a (b.finish .running holding (a.manager.receive s msg))
  | closed (rest : List Command) (hstage : a.stage = .running)
      (hqueued : queuedIn a.mailbox = queuedIn rest) :
      Course s a { a with mailbox := rest }.close
  | concluded {result : Except TransportFailure Reply} (rest : List Signal) :
      Course s a ({ a with inbox := rest }.finish .stopped [] (a.manager.conclude s result))
  | ignored (rest : List Signal) : Course s a ⟨{ a with inbox := rest }, [], []⟩

theorem command_course (h : a.command s = some step) : Course s a step := by
  unfold command at h
  split at h
  · cases h
  · rename_i hstage
    rw [not_not] at hstage
    split at h
    · split at h <;> cases h
      exact .closed a.mailbox hstage rfl
    · rename_i c rest hmailbox
      cases c with
      | seed reply =>
        cases h
        exact .handled [] hstage (.seed hmailbox)
      | queue p =>
        cases h
        exact .handled [p] hstage (.queue hmailbox)
      | shutdown =>
        cases h
        exact .closed rest hstage (by rw [hmailbox]; rfl)

theorem signal_course (h : a.signal s = some step) : Course s a step := by
  unfold signal at h
  split at h
  · cases h
  · rename_i x rest hinbox
    dsimp only at h
    split at h <;> cases h
    · rename_i hstage
      exact .handled [] hstage (.fire hinbox)
    · rename_i hstage
      exact .handled [] hstage (.reply hinbox)
    · exact .ignored rest
    · exact .concluded rest
    · exact .ignored rest

/-- A turn that leaves the calendar ends the actor. -/
theorem finish_ok {stage : Stage} {holding : List Pending} {t : Turn Manager}
    (h : (a.finish stage holding t).actor.stage ≠ .failed) : ∃ m, t.result = .ok m := by
  cases hr : t.result with
  | ok m => exact ⟨m, rfl⟩
  | error e =>
    unfold finish at h
    rw [hr] at h
    exact absurd rfl h

theorem Takes.custody_perm {msg : Manager.Message} (h : a.Takes msg b) :
    a.custody.Perm (a.manager.custody ++ msg.brings ++ (queuedIn b.mailbox).map (·.id)) := by
  rw [custody_eq]
  cases h with
  | seed hmailbox =>
    rw [hmailbox]
    exact .of_eq (congrArg (· ++ _) (List.append_nil _).symm)
  | queue hmailbox =>
    rw [hmailbox]
    exact .of_eq (List.append_assoc _ [_] _).symm
  | fire hinbox => exact .of_eq (congrArg (· ++ _) (List.append_nil _).symm)
  | reply hinbox => exact .of_eq (congrArg (· ++ _) (List.append_nil _).symm)

/-- A step that does not leave the calendar orphans nothing, and what the actor held it holds or has
ended. -/
theorem Course.accounts (h : Course s a step) (hstage : step.actor.stage ≠ .failed) :
    step.orphans = [] ∧ Accounts s a.custody step.actor.custody step.outputs := by
  cases h with
  | @handled msg b holding hrunning htakes =>
    obtain ⟨m', hr⟩ := finish_ok hstage
    rw [finish_of_ok hr]
    refine ⟨rfl, .of_perm ?_ htakes.custody_perm⟩
    rw [custody_eq]
    exact ((Manager.receive_ends s a.manager msg).result hr).accounts.append_right _
  | closed rest hrunning hqueued =>
    have hclose : ({ a with mailbox := rest } : Actor).close =
        ⟨({ a with mailbox := [] } : Actor).after
            (if a.manager.inFlight then .closing else .stopped) a.manager.ending
            (a.manager.close (queuedIn rest)).outputs,
          (a.manager.close (queuedIn rest)).outputs, []⟩ :=
      finish_of_ok (Manager.close_result _ _)
    have hafter := a.manager.close_accounts s (queuedIn rest)
    rw [hclose, custody_eq, custody_eq, hqueued]
    exact ⟨rfl, by rwa [← List.append_nil a.manager.ending.custody] at hafter⟩
  | @concluded result rest =>
    obtain ⟨m', hr⟩ := finish_ok hstage
    rw [finish_of_ok hr, custody_eq, custody_eq]
    exact ⟨rfl, ((a.manager.conclude_accounts s result).result hr).append_right _⟩
  | ignored rest => exact ⟨rfl, .silent silent_nil _⟩

end Actor

end Throttle
