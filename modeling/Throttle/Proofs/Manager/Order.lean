import Mathlib.Data.List.Induction
import Throttle.Proofs.Manager.Coupling
import Throttle.Proofs.Manager.Marks

/-!
  The order in which a manager sends. `fresh` are the requests that it holds and has not tried yet:
  they leave in the order in which they entered its mailbox (`Orderly.order`). A request that was
  sent is sent again only from a wait after a refusal, and `sinceSend`, the last request sent with
  the replies that came since, then shows that request with its own refusal. Every deed keeps this
  (`Orderly.change`). For the record of a whole life, `firsts_sublist` says that first transmissions
  keep the order of entry, `resent_after_refusal` that nothing but a refusal of the same request
  comes between two transmissions of it.
-/

namespace Throttle

open Http

namespace Manager

variable {s : Surroundings} {m m' : Manager} {os : List Output}

/-! ## Requests not tried yet -/

/-- The requests that a manager holds and has not sent, in the order in which they will leave. -/
def untried (m : Manager) : List Pending :=
  (match m.phase with
    | .activating _ => m.active.toList
    | _ => []) ++ m.queue

theorem queue_sublist_untried (m : Manager) : m.queue.Sublist m.untried :=
  List.sublist_append_right _ _

theorem untried_of_phase (h : ∀ t, m.phase ≠ .activating t) : m.untried = m.queue := by
  unfold untried
  split
  · rename_i t ht
    exact absurd ht (h t)
  · rfl

theorem untried_of_idle (h : m.phase = .idle) : m.untried = m.queue :=
  untried_of_phase fun _ ht => nomatch h.symm.trans ht

/-- The request that comes with a message. -/
def Message.joins : Message → List Pending
  | .queue p => [p]
  | _ => []

theorem Activation.sends_eq (h : Activation s m m' os) : sends os = [] := by
  cases h with
  | busy hbusy => rfl
  | drained hactive hphase hgone =>
    have hq : AllQuiet (if m.queue ≠ [] then [{ m with queue := [] : Manager }.queueUpdated]
        else []) :=
      allQuiet_ite (allQuiet_cons trivial allQuiet_nil)
    rw [sends_append, hq.sends_eq, (flatMap_abandon_quiet m _).sends_eq]
    rfl
  | planned gone rest p sendAt hactive hphase hqueue hgone hlive hsend =>
    rw [sends_append, (flatMap_abandon_quiet m _).sends_eq, queueUpdated, sends_event,
      sends_planOutputs]
    rfl

/-- Turning to the queue only drops requests from its front. -/
theorem Activation.untried_sublist (h : Activation s m m' os) :
    m'.untried.Sublist m.untried := by
  cases h with
  | busy hbusy => exact List.Sublist.refl _
  | drained hactive hphase hgone =>
    rw [untried_of_idle (m := { m with queue := [] }) hphase]
    exact List.nil_sublist _
  | planned gone rest p sendAt hactive hphase hqueue hgone hlive hsend =>
    rw [untried_of_idle hphase, hqueue]
    exact List.sublist_append_right _ _

theorem Activation.keeps_sending (h : Activation s m m' os) {phase : Phase}
    (hphase : m'.phase = phase) (hne : phase ≠ .idle) (hne' : ∀ t, phase ≠ .activating t) :
    m' = m := by
  cases h with
  | busy hbusy => rfl
  | drained hactive hidle hgone => exact absurd (hidle.symm.trans hphase).symm hne
  | planned gone rest p sendAt hactive hidle hqueue hgone hlive hsend =>
    exact absurd hphase.symm (hne' sendAt)

/-- A message makes a manager send the request that was to leave, or it only drops requests. -/
theorem Handling.order {msg : Message} (h : Handling s m msg m' os) :
    (sends os = [] ∧ m'.untried.Sublist (m.untried ++ msg.joins)) ∨
      ∃ p, m.active = some p ∧ sends os = [p.id] ∧ m' = { m with phase := .sending } ∧
        (∃ t, m.phase = .activating t ∨ m.phase = .violationWait t) ∧
        msg = .fire m.generation := by
  have still {m' : Manager} (hsub : m'.untried.Sublist m.untried) :
      m'.untried.Sublist (m.untried ++ msg.joins) :=
    hsub.trans (List.sublist_append_left _ _)
  -- a manager with the queue of `m` that turns to it
  have turned {k m' : Manager} {ps : List Output} (next : Activation s k m' ps)
      (hidle : k.phase = .idle) (hqueue : k.queue = m.queue) :
      m'.untried.Sublist (m.untried ++ msg.joins) := by
    refine still (next.untried_sublist.trans ?_)
    rw [untried_of_idle hidle, hqueue]
    exact m.queue_sublist_untried
  cases h with
  | seeded haccepted next =>
    exact .inl ⟨by simp [next.sends_eq], still next.untried_sublist⟩
  | seedRefused hrefused hpaused hlapse next =>
    exact .inl ⟨by simp [next.sends_eq], still next.untried_sublist⟩
  | joinedGone hgone => exact .inl ⟨by simp, still (List.Sublist.refl _)⟩
  | joined hlive next =>
    refine .inl ⟨by simp [queueUpdated, next.sends_eq], next.untried_sublist.trans ?_⟩
    unfold untried
    rw [List.append_assoc]
    exact List.Sublist.refl _
  | fireStale hstale => exact .inl ⟨rfl, still (List.Sublist.refl _)⟩
  | fireIdle hphase => exact .inl ⟨rfl, still (List.Sublist.refl _)⟩
  | resumed hphase next => exact .inl ⟨by simp [next.sends_eq], turned next rfl rfl⟩
  | fireEmpty hphase hactive next => exact .inl ⟨next.sends_eq, turned next rfl rfl⟩
  | skipped hphase hactive hgone next =>
    exact .inl ⟨by simp [next.sends_eq], turned next rfl rfl⟩
  | unsigned hphase hactive hlive hsigned next =>
    exact .inl ⟨by simp [next.sends_eq], turned next rfl rfl⟩
  | sent hphase hactive hlive hsigned =>
    exact .inr ⟨_, hactive, rfl, rfl, hphase, rfl⟩
  | stray hphase => exact .inl ⟨rfl, still (List.Sublist.refl _)⟩
  | lost hphase next => exact .inl ⟨by simp [next.sends_eq], turned next rfl rfl⟩
  | passed hphase haccepted hclear next =>
    exact .inl ⟨by simp [next.sends_eq], turned next rfl rfl⟩
  | suspended hphase haccepted hmalformed hresume =>
    exact .inl ⟨by simp, still m.queue_sublist_untried⟩
  | refused hphase hrefused hlapse next =>
    cases next with
    | empty hactive next => exact .inl ⟨by simp [next.sends_eq], turned next rfl rfl⟩
    | skipped hactive hgone next => exact .inl ⟨by simp [next.sends_eq], turned next rfl rfl⟩
    | again hactive hlive hsend => exact .inl ⟨by simp, still m.queue_sublist_untried⟩

theorem Handling.sends_of_sending {msg : Message} (h : Handling s m msg m' os)
    (hphase : m.phase = .sending) : sends os = [] := by
  rcases h.order with ⟨hnone, -⟩ | ⟨p, -, -, -, ⟨t, ht | ht⟩, -⟩
  · exact hnone
  · exact nomatch hphase.symm.trans ht
  · exact nomatch hphase.symm.trans ht

theorem Handling.sends_of_violationWait {msg : Message} (h : Handling s m msg m' os) {t : Moment}
    (hphase : m'.phase = .violationWait t) : sends os = [] := by
  rcases h.order with ⟨hnone, -⟩ | ⟨p, -, -, rfl, -⟩
  · exact hnone
  · cases hphase

/-- A manager that has a request under way, or waits to send one again, had it so before, or it is
just being sent, or it was just refused. -/
theorem Handling.under_way {msg : Message} (h : Handling s m msg m' os)
    (hphase : m'.phase = .sending ∨ ∃ t, m'.phase = .violationWait t) :
    (m'.phase = m.phase ∧ m'.active = m.active ∧
        (m.phase = .sending → ∀ result, msg ≠ .reply result)) ∨
      (∃ p, m.active = some p ∧ sends os = [p.id] ∧ m' = { m with phase := .sending } ∧
        msg = .fire m.generation) ∨
      ∃ reply t, msg = .reply (.ok reply) ∧ reply.isViolation = true ∧ m.phase = .sending ∧
        m'.phase = .violationWait t ∧ m'.active = m.active := by
  have hidle : m'.phase ≠ .idle := by rcases hphase with h | ⟨t, h⟩ <;> rw [h] <;> nofun
  have hactivating (t : Moment) : m'.phase ≠ .activating t := by
    rcases hphase with h | ⟨t, h⟩ <;> rw [h] <;> nofun
  -- turning to the queue leads to neither phase
  have turned {k : Manager} {ps : List Output} {P : Prop} (next : Activation s k m' ps)
      (hk : k.phase = .idle) : P := by
    rw [next.keeps_sending rfl hidle hactivating] at hidle
    exact absurd hk hidle
  cases h with
  | seeded haccepted next =>
    rw [next.keeps_sending rfl hidle hactivating]
    exact .inl ⟨rfl, rfl, fun _ => nofun⟩
  | seedRefused hrefused hpaused hlapse next =>
    rw [next.keeps_sending rfl hidle hactivating]
    exact .inl ⟨rfl, rfl, fun _ => nofun⟩
  | joinedGone hgone => exact .inl ⟨rfl, rfl, fun _ => nofun⟩
  | joined hlive next =>
    rw [next.keeps_sending rfl hidle hactivating]
    exact .inl ⟨rfl, rfl, fun _ => nofun⟩
  | fireStale hstale => exact .inl ⟨rfl, rfl, fun _ => nofun⟩
  | fireIdle _ => exact .inl ⟨rfl, rfl, fun _ => nofun⟩
  | resumed _ next => exact turned next rfl
  | fireEmpty _ hactive next => exact turned next rfl
  | skipped _ hactive hgone next => exact turned next rfl
  | unsigned _ hactive hlive hsigned next => exact turned next rfl
  | sent _ hactive hlive hsigned => exact .inr (.inl ⟨_, hactive, rfl, rfl, rfl⟩)
  | stray hnot => exact .inl ⟨rfl, rfl, fun hsending => absurd hsending hnot⟩
  | lost _ next => exact turned next rfl
  | passed _ haccepted hclear next => exact turned next rfl
  | suspended _ haccepted hmalformed hresume => rcases hphase with h | ⟨t, h⟩ <;> cases h
  | refused hsending hrefused hlapse next =>
    cases next with
    | empty hactive next => exact turned next rfl
    | skipped hactive hgone next => exact turned next rfl
    | again hactive hlive hsend =>
      exact .inr (.inr ⟨_, _, rfl, hrefused, hsending, rfl, rfl⟩)

end Manager

namespace Actor

/-! ## The invariant -/

variable {now : Moment} {s : Surroundings} {a b : Actor} {ms ns : List Mark}

/-- The requests that a running actor holds and has not sent. -/
def fresh (a : Actor) : List Nat :=
  if a.stage = .running then (a.manager.untried ++ queuedIn a.mailbox).map (·.id) else []

/-- The replies in an inbox. -/
def resultsIn (inbox : List Signal) : List (Except TransportFailure Reply) :=
  inbox.filterMap fun
    | .reply result => some result
    | .fire _ => none

/-- What an actor holds, next to the marks of its life so far. -/
structure Orderly (now : Moment) (a : Actor) (ms : List Mark) : Prop where
  sound : Sound now a
  order : ((sentIn ms).eraseDups ++ a.fresh).Sublist (enteredIn ms)
  /-- The request under way was sent last, and nothing came back but its own reply. -/
  sending : a.stage = .running → a.manager.phase = .sending →
    ∃ p, a.manager.active = some p ∧
      sinceSend ms = (some p.id, (resultsIn a.inbox).map fun r => (p.id, refused r))
  /-- The request that waits to be sent again was sent last, and refused. -/
  refused : a.stage = .running → ∀ t, a.manager.phase = .violationWait t →
    ∃ p, a.manager.active = some p ∧ sinceSend ms = (some p.id, [(p.id, true)])

theorem orderly_new (now : Moment) (name : PolicyName) : Orderly now (new name) [] where
  sound := sound_new now name
  order := .slnil
  sending _ := nofun
  refused _ := nofun

theorem fresh_of_running (h : a.stage = .running) :
    a.fresh = (a.manager.untried ++ queuedIn a.mailbox).map (·.id) := if_pos h

theorem orderly_of_ended (hs : Sound now b) (hstage : b.stage ≠ .running)
    (ho : Orderly now a ms) : Orderly now b ms where
  sound := hs
  order := by
    have hfresh : b.fresh = [] := if_neg hstage
    rw [hfresh, List.append_nil]
    exact (List.sublist_append_left _ _).trans ho.order
  sending hrunning := absurd hrunning hstage
  refused hrunning := absurd hrunning hstage

theorem resultsIn_append (inbox more : List Signal) :
    resultsIn (inbox ++ more) = resultsIn inbox ++ resultsIn more := List.filterMap_append

theorem resultsIn_ring (inbox : List Signal) (generation : Nat) :
    resultsIn (inbox ++ [.fire generation]) = resultsIn inbox := by
  rw [resultsIn_append]
  exact List.append_nil _

theorem length_resultsIn (inbox : List Signal) : (resultsIn inbox).length = replies inbox := by
  induction inbox with
  | nil => rfl
  | cons x inbox ih =>
    cases x with
    | fire g => rw [replies_fire, ← ih]; rfl
    | reply r => rw [replies_reply, ← ih]; rfl

/-- An inbox that holds one signal, which is a reply. -/
theorem reply_of_resultsIn {inbox : List Signal} {r : Except TransportFailure Reply}
    (hlength : inbox.length = 1) (h : resultsIn inbox = [r]) :
    ∃ rest, inbox = .reply r :: rest := by
  obtain ⟨x, rfl⟩ := List.length_eq_one_iff.1 hlength
  cases x with
  | fire generation => cases h
  | reply result => exact ⟨[], by rw [List.head_eq_of_cons_eq h]⟩

theorem resultsIn_of_replies {inbox : List Signal} (h : replies inbox = 0) :
    resultsIn inbox = [] := by
  rw [← length_resultsIn] at h
  exact List.eq_nil_of_length_eq_zero h

theorem Takes.queuedIn_eq {msg : Manager.Message} (h : a.Takes msg b) :
    queuedIn a.mailbox = msg.joins ++ queuedIn b.mailbox := by
  cases h with
  | seed hmailbox => rw [hmailbox]; rfl
  | queue hmailbox => rw [hmailbox]; rfl
  | fire hinbox => rfl
  | reply hinbox => rfl

theorem Takes.resultsIn_eq {msg : Manager.Message} (h : a.Takes msg b)
    (hne : ∀ result, msg ≠ .reply result) : resultsIn b.inbox = resultsIn a.inbox := by
  cases h with
  | seed hmailbox => rfl
  | queue hmailbox => rfl
  | fire hinbox => rw [hinbox]; rfl
  | reply hinbox => exact absurd rfl (hne _)

section Handling

variable {msg : Manager.Message} {m' : Manager} {os : List Output}

/-- What a message makes the manager send leaves the front of what it holds; a request that leaves
once more was on the record already. -/
theorem Orderly.order_handled (ho : Orderly now a ms) (hstage : a.stage = .running)
    (htakes : a.Takes msg b) (h : Manager.Handling s a.manager msg m' os) :
    ((sentIn (ms ++ (sends os).map .sent)).eraseDups ++ (b.after .running m' os).fresh).Sublist
      (enteredIn (ms ++ (sends os).map .sent)) := by
  have horder := ho.order
  rw [fresh_of_running hstage, htakes.queuedIn_eq, ← List.append_assoc, List.map_append] at horder
  have hfresh : (b.after .running m' os).fresh =
      m'.untried.map (·.id) ++ (queuedIn b.mailbox).map (·.id) :=
    (if_pos rfl).trans List.map_append
  have hsent : { a.manager with phase := .sending : Manager }.untried = a.manager.queue := rfl
  rw [hfresh]
  rcases h.order with ⟨hnone, hsub⟩ | ⟨p, hactive, hone, rfl, ⟨t, hphase | hphase⟩, rfl⟩
  · rw [hnone]
    simp only [List.map_nil, List.append_nil]
    exact ((List.Sublist.refl _).append ((hsub.map _).append_right _)).trans horder
  · -- the request leaves for the first time
    have huntried : a.manager.untried = p :: a.manager.queue := by
      unfold Manager.untried
      rw [hphase, hactive]
      rfl
    rw [huntried] at horder
    rw [hone]
    simp only [sentIn_append, sentIn_sent, enteredIn_append, enteredIn_sent, List.append_nil]
    refine ((eraseDups_snoc_sublist _ _).append_right _).trans ?_
    simpa [hsent, Manager.Message.joins] using horder
  · -- it leaves once more
    obtain ⟨q, hq, hsince⟩ := ho.refused hstage t hphase
    obtain rfl := Option.some.inj (hactive.symm.trans hq)
    have huntried : a.manager.untried = a.manager.queue :=
      Manager.untried_of_phase fun _ ht => nomatch hphase.symm.trans ht
    rw [huntried] at horder
    rw [hone]
    simp only [sentIn_append, sentIn_sent, enteredIn_append, enteredIn_sent, List.append_nil]
    rw [eraseDups_snoc_of_mem (mem_sentIn_of_sinceSend hsince)]
    simpa [hsent, Manager.Message.joins] using horder

theorem Orderly.sending_handled (ho : Orderly now a ms) (hstage : a.stage = .running)
    (htakes : a.Takes msg b) (h : Manager.Handling s a.manager msg m' os)
    (hphase : m'.phase = .sending) :
    ∃ p, m'.active = some p ∧ sinceSend (ms ++ (sends os).map .sent) =
      (some p.id,
        (resultsIn (b.after .running m' os).inbox).map fun r => (p.id, Actor.refused r)) := by
  rcases h.under_way (.inl hphase) with
    ⟨hsame, hactive, hreply⟩ | ⟨p, hactive, hone, rfl, rfl⟩ | ⟨_, t, _, _, _, hwait, _⟩
  · have hsending : a.manager.phase = .sending := hsame.symm.trans hphase
    obtain ⟨p, hp, hsince⟩ := ho.sending hstage hsending
    rw [h.sends_of_sending hsending]
    refine ⟨p, hactive.trans hp, ?_⟩
    rw [List.map_nil, List.append_nil, hsince, after_inbox, htakes.resultsIn_eq (hreply hsending)]
  · refine ⟨p, hactive, ?_⟩
    have hw := ho.sound.wired hstage
    rw [htakes.inbox_eq] at hw
    obtain ⟨-, -, -, -, -, hreplies⟩ := hw.of_fire
    have hnone : resultsIn b.inbox = [] := resultsIn_of_replies hreplies
    rw [hone, sinceSend_append, after_inbox, hnone]
    rfl
  · exact nomatch hwait.symm.trans hphase

theorem Orderly.refused_handled {t : Moment} (ho : Orderly now a ms) (hstage : a.stage = .running)
    (htakes : a.Takes msg b) (h : Manager.Handling s a.manager msg m' os)
    (hphase : m'.phase = .violationWait t) :
    ∃ p, m'.active = some p ∧
      sinceSend (ms ++ (sends os).map .sent) = (some p.id, [(p.id, true)]) := by
  rcases h.under_way (.inr ⟨t, hphase⟩) with
    ⟨hsame, hactive, -⟩ | ⟨p, _, _, rfl, _⟩ | ⟨reply, _, rfl, hviolation, hsending, _, hactive⟩
  · obtain ⟨p, hp, hsince⟩ := ho.refused hstage t (hsame.symm.trans hphase)
    rw [h.sends_of_violationWait hphase]
    refine ⟨p, hactive.trans hp, ?_⟩
    rw [List.map_nil, List.append_nil, hsince]
  · cases hphase
  · obtain ⟨p, hp, hsince⟩ := ho.sending hstage hsending
    have hw := ho.sound.wired hstage
    rw [htakes.inbox_eq] at hw
    obtain ⟨-, -, -, -, -, hreplies⟩ := hw.of_reply
    have hnone : resultsIn b.inbox = [] := resultsIn_of_replies hreplies
    rw [h.sends_of_sending hsending]
    refine ⟨p, hactive.trans hp, ?_⟩
    rw [List.map_nil, List.append_nil, hsince, htakes.inbox_eq]
    show (some p.id, (p.id, reply.isViolation) :: (resultsIn b.inbox).map _) = _
    rw [hnone, hviolation]
    rfl

/-- Handling a message keeps the order. -/
theorem Orderly.handled (ho : Orderly now a ms) (hstage : a.stage = .running)
    (htakes : a.Takes msg b) (h : Manager.Handling s a.manager msg m' os)
    (hs : Sound now (b.after .running m' os)) :
    Orderly now (b.after .running m' os) (ms ++ (sends os).map .sent) where
  sound := hs
  order := ho.order_handled hstage htakes h
  sending _ hphase := ho.sending_handled hstage htakes h hphase
  refused _ _ hphase := ho.refused_handled hstage htakes h hphase

end Handling

theorem Orderly.advance {os : List Output} (ho : Orderly now a ms) (h : Advance s a b os)
    (hs : Sound now b) : Orderly now b (ms ++ (sends os).map .sent) := by
  cases h with
  | handled hstage htakes hhandled => exact ho.handled hstage htakes hhandled hs
  | broke hquiet =>
    rw [hquiet.sends_eq, List.map_nil, List.append_nil]
    exact orderly_of_ended hs nofun ho
  | stopped hstage hquiet =>
    rw [sends_disarm, hquiet.sends_eq, List.map_nil, List.append_nil]
    refine orderly_of_ended hs ?_ ho
    rw [after_stage]
    split <;> nofun
  | concluded hstage hinbox hquiet hactive hphase hqueue =>
    rw [hquiet.sends_eq, List.map_nil, List.append_nil]
    exact orderly_of_ended hs nofun ho
  | ignored hstage hinbox =>
    rw [sends_nil, List.map_nil, List.append_nil]
    exact orderly_of_ended hs hstage ho

/-- A request that enters the mailbox comes last. -/
theorem Orderly.posted (ho : Orderly now a ms) (c : Command) (hstage : a.stage = .running)
    (hs : Sound now (a.post c)) :
    Orderly now (a.post c) (ms ++ (queuedIn [c]).map fun p => .entered p.id) := by
  have hns : (queuedIn [c]).map (fun p => Mark.entered p.id) =
      ((queuedIn [c]).map (·.id)).map .entered := List.map_map.symm
  have hfresh : (a.post c).fresh = a.fresh ++ (queuedIn [c]).map (·.id) := by
    rw [fresh_of_running hstage, fresh_of_running (a := a.post c) hstage, ← List.map_append,
      List.append_assoc, ← queuedIn_append]
    rfl
  rw [hns]
  refine ⟨hs, ?_, ?_, ?_⟩
  · rw [hfresh, sentIn_append, sentIn_entered, List.append_nil, enteredIn_append,
      enteredIn_entered, ← List.append_assoc]
    exact ho.order.append_right _
  · intro _ hphase
    rw [sinceSend_entered]
    exact ho.sending hstage hphase
  · intro _ t hphase
    rw [sinceSend_entered]
    exact ho.refused hstage t hphase

/-- A transmission that comes to an end is that of the request under way. -/
theorem Orderly.returned {id : Nat} (ho : Orderly now a ms)
    (result : Except TransportFailure Reply) (hid : id ∈ a.outstanding)
    (hs : Sound now { a with
      outstanding := a.outstanding.erase id
      inbox := a.inbox ++ [.reply result] }) :
    Orderly now { a with
      outstanding := a.outstanding.erase id
      inbox := a.inbox ++ [.reply result] } (ms ++ [.returned id (Actor.refused result)]) := by
  have hsent : sentIn (ms ++ [.returned id (Actor.refused result)]) = sentIn ms := by
    rw [sentIn_append]
    exact List.append_nil _
  have hentered : enteredIn (ms ++ [.returned id (Actor.refused result)]) = enteredIn ms := by
    rw [enteredIn_append]
    exact List.append_nil _
  refine ⟨hs, ?_, ?_, ?_⟩
  · rw [hsent, hentered]
    exact ho.order
  · intro hstage hphase
    obtain ⟨p, hp, hsince⟩ := ho.sending hstage hphase
    obtain ⟨-, q, hq, rfl⟩ := (ho.sound.wired hstage).of_outstanding hid
    obtain rfl := Option.some.inj (hp.symm.trans hq)
    refine ⟨p, hp, ?_⟩
    rw [sinceSend_append, hsince]
    rw [resultsIn_append, List.map_append]
    rfl
  · intro hstage t hphase
    obtain ⟨hsending, -⟩ := (ho.sound.wired hstage).of_outstanding hid
    exact nomatch hsending.symm.trans hphase

/-- A deed keeps the order. -/
theorem Orderly.change {d : Deed} (ho : Orderly now a ms) (h : Change a d b ns)
    (hring : ∀ t, d = .ring t → t ≤ now) : Orderly now b (ms ++ ns) := by
  have hsound := h.sound ho.sound hring
  cases h with
  | none =>
    rw [List.append_nil]
    exact ho
  | posted c hstage => exact ho.posted c hstage hsound
  | commanded h => exact ho.advance h hsound
  | signaled h => exact ho.advance h hsound
  | @rang _ x halarm hdue =>
    rw [List.append_nil]
    refine ⟨hsound, ho.order, ?_, ho.refused⟩
    intro hstage hphase
    rw [resultsIn_ring]
    exact ho.sending hstage hphase
  | returned result hid => exact ho.returned result hid hsound
  | disconnected =>
    rw [List.append_nil]
    exact ⟨hsound, ho.order, ho.sending, ho.refused⟩

/-! ## Whole lives -/

theorem Orderly.mono {now' : Moment} (ho : Orderly now a ms) (hle : now ≤ now') :
    Orderly now' a ms := ⟨ho.sound.mono hle, ho.order, ho.sending, ho.refused⟩

theorem orderly_live (name : PolicyName) (ds : List Deed) :
    ∃ now, Orderly now ((new name).live ds) ((new name).record ds) := by
  have h := live_induction (P := Orderly) (fun h hle => h.mono hle)
    (fun h hc hring => h.change hc hring) (orderly_new 0 name) ds
  rwa [List.nil_append] at h

/-- First transmissions keep the order in which the requests entered the mailbox. -/
theorem firsts_sublist (name : PolicyName) (ds : List Deed) :
    (sentIn ((new name).record ds)).eraseDups.Sublist (enteredIn ((new name).record ds)) := by
  obtain ⟨now, ho⟩ := orderly_live name ds
  exact (List.sublist_append_left _ _).trans ho.order

/-- A request that is sent is one that was not tried, or the last one sent, which was refused. -/
theorem Orderly.sent {d : Deed} {id : Nat} (ho : Orderly now a ms) (h : Change a d b ns)
    (hsent : id ∈ sentIn ns) :
    ns = [.sent id] ∧ (id ∈ a.fresh ∨ sinceSend ms = (some id, [(id, true)])) := by
  have advance {s : Surroundings} {os : List Output} (hadvance : Advance s a b os)
      (hid : id ∈ sends os) :
      (sends os).map Mark.sent = [.sent id] ∧
        (id ∈ a.fresh ∨ sinceSend ms = (some id, [(id, true)])) := by
    cases hadvance with
    | handled hstage htakes hhandled =>
      rcases hhandled.order with ⟨hnone, -⟩ | ⟨p, hactive, hone, -, ⟨t, hphase | hphase⟩, -⟩
      · rw [hnone] at hid
        cases hid
      · rw [hone, List.mem_singleton] at hid
        subst hid
        refine ⟨by rw [hone]; rfl, .inl ?_⟩
        rw [fresh_of_running hstage]
        simp [Manager.untried, hphase, hactive]
      · rw [hone, List.mem_singleton] at hid
        subst hid
        obtain ⟨q, hq, hsince⟩ := ho.refused hstage t hphase
        obtain rfl := Option.some.inj (hactive.symm.trans hq)
        exact ⟨by rw [hone]; rfl, .inr hsince⟩
    | broke hquiet =>
      rw [hquiet.sends_eq] at hid
      cases hid
    | stopped hstage hquiet =>
      rw [sends_disarm, hquiet.sends_eq] at hid
      cases hid
    | concluded hstage hinbox hquiet hactive hphase hqueue =>
      rw [hquiet.sends_eq] at hid
      cases hid
    | ignored hstage hinbox => cases hid
  cases h with
  | none => cases hsent
  | posted c hstage =>
    have hns : (queuedIn [c]).map (fun p => Mark.entered p.id) =
        ((queuedIn [c]).map (·.id)).map .entered := List.map_map.symm
    rw [hns, sentIn_entered] at hsent
    cases hsent
  | commanded h => exact advance h (by rwa [sentIn_sent] at hsent)
  | signaled h => exact advance h (by rwa [sentIn_sent] at hsent)
  | rang halarm hdue => cases hsent
  | returned result hid => cases hsent
  | disconnected => cases hsent

/-- A request that is sent once more was refused since, and nothing else came back or was sent. -/
theorem Orderly.resent {d : Deed} {id : Nat} (ho : Orderly now a ms) (h : Change a d b ns)
    (hnodup : (enteredIn ms).Nodup) (hsent : id ∈ sentIn ns) {front back : List Mark}
    (hms : ms = front ++ .sent id :: back) (hback : id ∉ sentIn back) :
    sentIn back = [] ∧ returnsIn back = [(id, true)] := by
  rcases (ho.sent h hsent).2 with hfresh | hsince
  · have hnever : id ∉ sentIn ms := fun hmem =>
      (List.nodup_append.1 (ho.order.nodup hnodup)).2.2 id (List.mem_eraseDups.2 hmem) id hfresh rfl
    refine absurd ?_ hnever
    rw [hms, sentIn_append]
    exact List.mem_append_right _ List.mem_cons_self
  · rw [hms] at hsince
    exact sinceSend_split hsince hback

/-- Between two transmissions of one request comes its refusal, and nothing else comes back or is
sent. -/
theorem resent_after_refusal (name : PolicyName) (ds : List Deed)
    (hnodup : (enteredIn ((new name).record ds)).Nodup) {front back rest : List Mark} {id : Nat}
    (h : (new name).record ds = (front ++ .sent id :: back) ++ .sent id :: rest)
    (hback : id ∉ sentIn back) : sentIn back = [] ∧ returnsIn back = [(id, true)] := by
  induction ds using List.reverseRecOn generalizing rest with
  | nil => exact absurd h.symm (by simp [record])
  | append_singleton ds d ih =>
    obtain ⟨now, ho⟩ := orderly_live name ds
    rw [record_append, record, record, List.append_nil] at h hnodup
    rw [enteredIn_append] at hnodup
    have hprefix := hnodup.sublist (List.sublist_append_left _ _)
    have hchange := undergo_change ((new name).live ds) d
    -- the last deed sends the request once more, or an earlier one did
    have last (u : List Mark) (hms : front ++ .sent id :: back = (new name).record ds ++ u)
        (hns : ((new name).live ds).marks d = u ++ .sent id :: rest) :
        sentIn back = [] ∧ returnsIn back = [(id, true)] := by
      have hsent : id ∈ sentIn (((new name).live ds).marks d) := by
        rw [hns, sentIn_append]
        exact List.mem_append_right _ List.mem_cons_self
      have hone := (ho.sent hchange hsent).1
      rw [hns] at hone
      have hu : u = [] := by
        have hlength := congrArg List.length hone
        simp only [List.length_append, List.length_cons, List.length_nil] at hlength
        exact List.eq_nil_of_length_eq_zero (by omega)
      rw [hu, List.append_nil] at hms
      exact ho.resent hchange hprefix hsent hms.symm hback
    rcases List.append_eq_append_iff.1 h with ⟨u, hms, hns⟩ | ⟨u, hms, hns⟩
    · exact last u hms hns
    · cases u with
      | nil =>
        rw [List.append_nil] at hms
        exact last [] (by rw [hms, List.append_nil]) hns.symm
      | cons x u =>
        obtain ⟨rfl, -⟩ := List.cons.inj hns
        exact ih hprefix hms

end Actor

end Throttle
