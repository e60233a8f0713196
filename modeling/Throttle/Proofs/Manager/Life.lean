import Throttle.Proofs.Manager.Handling

/-!
  The life of an actor as a list of deeds: what is written to its mailbox, each message that it
  handles, each ring of its alarm and each end of a transmission, in any order. `Advance` lists
  what a handled message comes to, the end of the manager included, and `undergo_cases` what a deed
  comes to. Two marks of a deed are kept: the requests that entered the mailbox or left for the
  transport, and the replies that came back.
-/

namespace Throttle

open Http Turn

namespace Manager

variable {s : Surroundings} {m m' : Manager} {os : List Output}

/-! ## The end of a manager -/

/-- A manager that was told to stop. -/
@[simps]
def ending (m : Manager) : Manager :=
  { m with
    queue := []
    active := if m.inFlight then m.active else none
    phase := if m.inFlight then m.phase else .idle }

theorem close_result (late : List Pending) (m : Manager) :
    (m.close late).result = .ok m.ending := by
  unfold close ending
  dsimp only
  split <;> split <;> rfl

/-- A manager that stops turns its alarm off and answers what it holds. -/
theorem close_outputs (late : List Pending) (m : Manager) :
    ∃ os, AllQuiet os ∧ (m.close late).outputs = .disarm :: os := by
  have hanswers : AllQuiet ((m.unsent ++ late).map fun p => .answer p.id (.error .shutdown)) := by
    intro o h
    obtain ⟨p, _, rfl⟩ := List.mem_map.1 h
    trivial
  have hlast : AllQuiet (if m.inFlight then [.notice .awaitingLast] else []) :=
    allQuiet_ite (allQuiet_cons trivial allQuiet_nil)
  have hcount : AllQuiet (if !(m.unsent ++ late).isEmpty then
      [.notice (.failingPending (m.unsent ++ late).length)] else []) :=
    allQuiet_ite (allQuiet_cons trivial allQuiet_nil)
  refine ⟨_, hcount.append (hanswers.append hlast), ?_⟩
  unfold close
  dsimp only
  split <;> split <;> simp [tell_bind, pure_def]

/-- A closing manager takes in the reply that it waited for and answers its request. -/
theorem conclude_ends (s : Surroundings) (result : Except TransportFailure Reply) (m : Manager) :
    (m.conclude s result).Ends fun m' os =>
      AllQuiet os ∧ m'.active = none ∧ m'.phase = .idle ∧ m'.queue = m.queue := by
  unfold conclude
  cases result with
  | error e =>
    refine .bind (finish_result m _) (finish_quiet m _) (.pure ⟨?_, rfl, rfl, rfl⟩)
    exact (finish_quiet m _).append allQuiet_nil
  | ok reply =>
    refine .bind (absorb_result reply m) (absorb_quiet reply m) ?_
    dsimp only
    split
    · refine .bind (countViolation_result s _ _) (countViolation_quiet s _ _) ?_
      refine .bind (finish_result _ _) (finish_quiet _ _) (.pure ⟨?_, rfl, rfl, rfl⟩)
      exact (absorb_quiet _ _).append
        ((countViolation_quiet s _ _).append ((finish_quiet _ _).append allQuiet_nil))
    · refine .bind (outcome_result _ reply) (outcome_quiet _ reply _) ?_
      refine .bind (finish_result _ _) (finish_quiet _ _) (.pure ⟨?_, rfl, rfl, rfl⟩)
      exact (absorb_quiet _ _).append
        ((outcome_quiet _ _ _).append ((finish_quiet _ _).append allQuiet_nil))

end Manager

/-! ## Surroundings -/

/-- Surroundings that come later in the same limiter. Nothing ties what authorizers do now to what
they did before. -/
structure Surroundings.Leads (s t : Surroundings) : Prop where
  now : s.now ≤ t.now
  config : t.config = s.config
  gone : ∀ id, s.gone id = true → t.gone id = true

theorem Surroundings.Leads.refl (s : Surroundings) : s.Leads s where
  now := Int.le_refl _
  config := rfl
  gone _ h := h

theorem Surroundings.Leads.trans {s t u : Surroundings} (h : s.Leads t) (h' : t.Leads u) :
    s.Leads u where
  now := Int.le_trans h.now h'.now
  config := h'.config.trans h.config
  gone id hid := h'.gone id (h.gone id hid)

namespace Actor

variable {s : Surroundings} {a b : Actor}

/-! ## What a handled message comes to -/

/-- The next message of an actor, and the actor without it. -/
inductive Takes (a : Actor) : Manager.Message → Actor → Prop where
  | seed {reply : Reply} {rest : List Command} (h : a.mailbox = .seed reply :: rest) :
      Takes a (.seed reply) { a with mailbox := rest }
  | queue {p : Pending} {rest : List Command} (h : a.mailbox = .queue p :: rest) :
      Takes a (.queue p) { a with mailbox := rest }
  | fire {generation : Nat} {rest : List Signal} (h : a.inbox = .fire generation :: rest) :
      Takes a (.fire generation) { a with inbox := rest }
  | reply {result : Except TransportFailure Reply} {rest : List Signal}
      (h : a.inbox = .reply result :: rest) :
      Takes a (.reply result) { a with inbox := rest }

/-- An actor whose manager has become `m` and brought about `os`. -/
@[simps]
def after (a : Actor) (stage : Stage) (m : Manager) (os : List Output) : Actor :=
  { a with
    manager := m
    alarm := alarmAfter os a.alarm
    outstanding := a.outstanding ++ sends os
    stage
    snapshot := m.snapshot }

/-- An actor that an instant outside the calendar has ended. -/
@[simps]
def broken (a : Actor) : Actor :=
  { a with stage := .failed, mailbox := [], inbox := [], alarm := none }

/-- An actor that takes no more commands. -/
@[simps]
def deaf (a : Actor) : Actor := { a with mailbox := [] }

/-- What handling a message makes of an actor. -/
inductive Advance (s : Surroundings) (a : Actor) : Actor → List Output → Prop where
  | handled {msg : Manager.Message} {b : Actor} {m' : Manager} {os : List Output}
      (hstage : a.stage = .running) (htakes : a.Takes msg b)
      (h : Manager.Handling s a.manager msg m' os) : Advance s a (b.after .running m' os) os
  | broke {os : List Output} (hquiet : AllQuiet os) : Advance s a a.broken os
  | stopped {os : List Output} (hstage : a.stage = .running) (hquiet : AllQuiet os) :
      Advance s a
        (a.deaf.after (if a.manager.inFlight then .closing else .stopped) a.manager.ending
          (.disarm :: os))
        (.disarm :: os)
  | concluded {result : Except TransportFailure Reply} {rest : List Signal} {m' : Manager}
      {os : List Output} (hstage : a.stage = .closing) (hinbox : a.inbox = .reply result :: rest)
      (hquiet : AllQuiet os) (hactive : m'.active = none) (hphase : m'.phase = .idle)
      (hqueue : m'.queue = a.manager.queue) :
      Advance s a ({ a with inbox := rest }.after .stopped m' os) os
  | ignored {x : Signal} {rest : List Signal} (hstage : a.stage ≠ .running)
      (hinbox : a.inbox = x :: rest) : Advance s a { a with inbox := rest } []

/-- An actor that runs on has handled a message. -/
theorem Advance.running {os : List Output} (h : Advance s a b os) (hstage : b.stage = .running) :
    a.stage = .running ∧ ∃ msg c m', a.Takes msg c ∧ Manager.Handling s a.manager msg m' os ∧
      b = c.after .running m' os := by
  cases h with
  | handled hrunning htakes hhandled => exact ⟨hrunning, _, _, _, htakes, hhandled, rfl⟩
  | broke hquiet => cases hstage
  | stopped hrunning hquiet =>
    rw [after_stage] at hstage
    split at hstage <;> cases hstage
  | concluded hclosing hinbox hquiet hactive hphase hqueue => cases hstage
  | ignored hended hinbox => exact absurd hstage hended

/-- An actor that an instant outside the calendar has ended stays ended. -/
theorem Advance.failed {os : List Output} (h : Advance s a b os) (hstage : a.stage = .failed) :
    b.stage = .failed := by
  cases h with
  | handled hrunning htakes hhandled => exact nomatch hstage.symm.trans hrunning
  | broke hquiet => rfl
  | stopped hrunning hquiet => exact nomatch hstage.symm.trans hrunning
  | concluded hclosing hinbox hquiet hactive hphase hqueue =>
    exact nomatch hstage.symm.trans hclosing
  | ignored hended hinbox => exact hstage

theorem finish_of_ok {stage : Stage} {holding : List Pending} {t : Turn Manager} {m : Manager}
    (h : t.result = .ok m) :
    a.finish stage holding t = ⟨a.after stage m t.outputs, t.outputs, []⟩ := by
  unfold finish
  rw [h, foldl_perform]
  rfl

theorem finish_of_error {stage : Stage} {holding : List Pending} {t : Turn Manager} {e : Overflow}
    (h : t.result = .error e) (hq : AllQuiet t.outputs) :
    a.finish stage holding t = ⟨a.broken, t.outputs, a.held ++ holding⟩ := by
  unfold finish
  rw [h, foldl_perform, hq.sends_eq, List.append_nil]
  rfl

/-- A step that leaves the calendar ends the actor. -/
theorem finish_of_fails {stage : Stage} {holding : List Pending} {t : Turn Manager} (h : t.Fails) :
    (a.finish stage holding t).actor.stage = .failed := by
  obtain ⟨e, he⟩ := h
  unfold finish
  rw [he]

/-- Every output of a turn is one of its step. -/
theorem finish_outputs (a : Actor) (stage : Stage) (holding : List Pending) (t : Turn Manager) :
    (a.finish stage holding t).outputs = t.outputs := by
  unfold finish
  dsimp only
  split <;> rfl

theorem Takes.broken_eq {msg : Manager.Message} (h : a.Takes msg b) : b.broken = a.broken := by
  cases h <;> rfl

/-- A message that a running actor takes is handled, or ends the actor. -/
theorem Takes.advance {msg : Manager.Message} {holding : List Pending} (h : a.Takes msg b)
    (hstage : a.stage = .running) :
    Advance s a (b.finish .running holding (a.manager.receive s msg)).actor
      (b.finish .running holding (a.manager.receive s msg)).outputs := by
  have hends := Manager.receive_ends s a.manager msg
  cases hr : (a.manager.receive s msg).result with
  | ok m' =>
    rw [finish_of_ok hr]
    exact .handled hstage h (hends.result hr)
  | error e =>
    rw [finish_of_error hr (hends.quiet hr), h.broken_eq]
    exact .broke (hends.quiet hr)

theorem close_advance (hstage : a.stage = .running) (rest : List Command) :
    Advance s a { a with mailbox := rest }.close.actor { a with mailbox := rest }.close.outputs := by
  unfold close
  dsimp only
  obtain ⟨os, hquiet, hos⟩ := a.manager.close_outputs (queuedIn rest)
  rw [finish_of_ok (Manager.close_result _ _), hos]
  exact .stopped hstage hquiet

theorem command_advance {step : Step} (h : a.command s = some step) :
    Advance s a step.actor step.outputs := by
  unfold command at h
  by_cases hstage : a.stage = .running
  · rw [if_neg (fun hne => hne hstage)] at h
    split at h
    · rename_i hmailbox
      cases hc : a.connected with
      | true =>
        rw [hc] at h
        cases h
      | false =>
        rw [hc] at h
        cases h
        have hclose := close_advance (s := s) hstage []
        rw [← hmailbox] at hclose
        exact hclose
    · rename_i c rest hmailbox
      cases c with
      | seed reply =>
        cases h
        exact (Takes.seed hmailbox).advance hstage
      | queue p =>
        cases h
        exact (Takes.queue hmailbox).advance hstage
      | shutdown =>
        cases h
        exact close_advance hstage rest
  · rw [if_pos hstage] at h
    cases h

theorem signal_advance {step : Step} (h : a.signal s = some step) :
    Advance s a step.actor step.outputs := by
  unfold signal at h
  cases hinbox : a.inbox with
  | nil =>
    rw [hinbox] at h
    cases h
  | cons x rest =>
    rw [hinbox] at h
    dsimp only at h
    split at h <;> cases h
    · rename_i generation hstage
      exact (Takes.fire hinbox).advance hstage
    · rename_i result hstage
      exact (Takes.reply hinbox).advance hstage
    · rename_i generation hstage
      exact .ignored (by rw [hstage]; nofun) hinbox
    · rename_i result hstage
      have hends := Manager.conclude_ends s result a.manager
      cases hr : (a.manager.conclude s result).result with
      | ok m' =>
        obtain ⟨hquiet, hactive, hphase, hqueue⟩ := hends.result hr
        rw [finish_of_ok hr]
        exact .concluded hstage hinbox hquiet hactive hphase hqueue
      | error e =>
        rw [finish_of_error hr (hends.quiet hr)]
        exact .broke (hends.quiet hr)
    · rename_i x _ _ hfire hreply _ _
      refine .ignored ?_ hinbox
      intro hstage
      cases x with
      | fire generation => exact hfire generation hstage rfl
      | reply result => exact hreply result hstage rfl

/-- An actor that goes on after a turn keeps its mailbox and its inbox. -/
theorem finish_keeps {stage : Stage} {holding : List Pending} {t : Turn Manager}
    (hstage : (a.finish stage holding t).actor.stage = .running) :
    (a.finish stage holding t).actor.mailbox = a.mailbox ∧
      (a.finish stage holding t).actor.inbox = a.inbox := by
  cases hr : t.result with
  | ok m =>
    rw [finish_of_ok hr]
    exact ⟨rfl, rfl⟩
  | error e =>
    unfold finish at hstage
    rw [hr] at hstage
    cases hstage

theorem close_stage (a : Actor) : a.close.actor.stage ≠ .running := by
  unfold close
  dsimp only
  rw [finish_of_ok (Manager.close_result _ _), after_stage]
  split <;> nofun

/-- A command leaves the inbox as it is. -/
theorem command_inbox {step : Step} (h : a.command s = some step)
    (hstage : step.actor.stage = .running) : step.actor.inbox = a.inbox := by
  unfold command at h
  split at h
  · cases h
  · split at h
    · split at h <;> cases h
      exact absurd hstage (close_stage a)
    · dsimp only at h
      split at h <;> cases h
      · exact (finish_keeps hstage).2
      · exact (finish_keeps hstage).2
      · exact absurd hstage (close_stage _)

/-- A signal leaves the mailbox as it is. -/
theorem signal_mailbox {step : Step} (h : a.signal s = some step)
    (hstage : step.actor.stage = .running) : step.actor.mailbox = a.mailbox := by
  unfold signal at h
  split at h
  · cases h
  · dsimp only at h
    split at h <;> cases h
    · exact (finish_keeps hstage).1
    · exact (finish_keeps hstage).1
    · rfl
    · exact (finish_keeps hstage).1
    · rfl

/-! ## Deeds -/

/-- Something that can happen to an actor. -/
inductive Deed where
  /-- A command is written to its mailbox. -/
  | post (c : Command)
  /-- It handles its next command. -/
  | command (s : Surroundings)
  /-- It handles its next signal. -/
  | signal (s : Surroundings)
  /-- Its alarm goes off. -/
  | ring (now : Moment)
  /-- A transmission comes to an end. -/
  | returned (id : Nat) (result : Except TransportFailure Reply)
  /-- Nobody can write to its mailbox any more. -/
  | disconnect

/-- An actor after a deed; one that is not possible changes nothing. -/
def undergo (a : Actor) : Deed → Actor
  | .post c => if a.isOpen then a.post c else a
  | .command s => (a.command s).elim a Step.actor
  | .signal s => (a.signal s).elim a Step.actor
  | .ring now => (a.ring now).getD a
  | .returned id result => (a.returned id result).getD a
  | .disconnect => a.disconnect

/-- An actor after some deeds. -/
def live (a : Actor) (ds : List Deed) : Actor := ds.foldl undergo a

/-- What is remembered of a deed. -/
inductive Mark where
  /-- A request entered the mailbox. -/
  | entered (id : Nat)
  /-- A request was handed to the transport. -/
  | sent (id : Nat)
  /-- A transmission came to an end; the server may have refused it. -/
  | returned (id : Nat) (refused : Bool)
  deriving DecidableEq

/-- The server answered that a limit was overrun. -/
def refused : Except TransportFailure Reply → Bool
  | .ok reply => reply.isViolation
  | .error _ => false

/-- What is remembered of one deed. -/
def marks (a : Actor) : Deed → List Mark
  | .post c => if a.isOpen then (queuedIn [c]).map fun p => .entered p.id else []
  | .command s => (a.command s).elim [] fun step => (sends step.outputs).map .sent
  | .signal s => (a.signal s).elim [] fun step => (sends step.outputs).map .sent
  | .ring _ => []
  | .returned id result => if id ∈ a.outstanding then [.returned id (refused result)] else []
  | .disconnect => []

/-- What is remembered of some deeds, the first of them first. -/
def record (a : Actor) : List Deed → List Mark
  | [] => []
  | d :: ds => a.marks d ++ (a.undergo d).record ds

@[simp] theorem live_nil (a : Actor) : a.live [] = a := rfl

@[simp] theorem live_cons (a : Actor) (d : Deed) (ds : List Deed) :
    a.live (d :: ds) = (a.undergo d).live ds := rfl

theorem live_append (a : Actor) (ds es : List Deed) :
    a.live (ds ++ es) = (a.live ds).live es := List.foldl_append

theorem record_append (a : Actor) (ds es : List Deed) :
    a.record (ds ++ es) = a.record ds ++ (a.live ds).record es := by
  induction ds generalizing a with
  | nil => rfl
  | cons d ds ih => simp [record, ih]

/-- The reply to a probe that a running actor takes in with its next command. -/
def nextSeed (a : Actor) : List Reply :=
  match a.stage, a.mailbox with
  | .running, .seed reply :: _ => [reply]
  | _, _ => []

/-- The replies to probes that an actor takes in with a deed. -/
def seeds (a : Actor) : Deed → List Reply
  | .command _ => a.nextSeed
  | _ => []

theorem nextSeed_of_command (h : a.command s = none) : a.nextSeed = [] := by
  unfold command at h
  unfold nextSeed
  split at h
  · rename_i hstage
    split
    · rename_i hrunning _
      exact absurd hrunning hstage
    · rfl
  · split at h
    · rename_i hmailbox
      rw [hmailbox]
      split
      · rename_i hcons
        cases hcons
      · rfl
    · dsimp only at h
      split at h <;> cases h

/-- What a deed does to an actor, with its marks. -/
inductive Change (a : Actor) : Deed → Actor → List Mark → Prop where
  | none (d : Deed) (hseeds : a.seeds d = []) : Change a d a []
  | posted (c : Command) (hstage : a.stage = .running) :
      Change a (.post c) (a.post c) ((queuedIn [c]).map fun p => .entered p.id)
  | commanded {s : Surroundings} {b : Actor} {os : List Output} (h : Advance s a b os)
      (hinbox : b.stage = .running → b.inbox = a.inbox) :
      Change a (.command s) b ((sends os).map .sent)
  | signaled {s : Surroundings} {b : Actor} {os : List Output} (h : Advance s a b os)
      (hmailbox : b.stage = .running → b.mailbox = a.mailbox) :
      Change a (.signal s) b ((sends os).map .sent)
  | rang {now : Moment} {x : Alarm} (halarm : a.alarm = some x) (hdue : x.due ≤ now) :
      Change a (.ring now) { a with alarm := .none, inbox := a.inbox ++ [.fire x.generation] } []
  | returned {id : Nat} (result : Except TransportFailure Reply) (hid : id ∈ a.outstanding) :
      Change a (.returned id result)
        { a with
          outstanding := a.outstanding.erase id
          inbox := a.inbox ++ [.reply result] }
        [.returned id (refused result)]
  | disconnected : Change a .disconnect a.disconnect []

theorem undergo_change (a : Actor) (d : Deed) : Change a d (a.undergo d) (a.marks d) := by
  cases d with
  | post c =>
    by_cases ho : a.isOpen
    · simp only [undergo, marks, if_pos ho]
      exact .posted c (beq_iff_eq.1 ho)
    · simp only [undergo, marks, if_neg ho]
      exact .none _ rfl
  | command s =>
    cases h : a.command s with
    | none =>
      simp only [undergo, marks, h, Option.elim_none]
      exact .none _ (nextSeed_of_command h)
    | some step =>
      simp only [undergo, marks, h, Option.elim_some]
      exact .commanded (command_advance h) (command_inbox h)
  | signal s =>
    cases h : a.signal s with
    | none =>
      simp only [undergo, marks, h, Option.elim_none]
      exact .none _ rfl
    | some step =>
      simp only [undergo, marks, h, Option.elim_some]
      exact .signaled (signal_advance h) (signal_mailbox h)
  | ring now =>
    cases ha : a.alarm with
    | none =>
      simp only [undergo, marks, ring, ha]
      exact .none _ rfl
    | some x =>
      by_cases hdue : x.due ≤ now
      · simp only [undergo, marks, ring, ha, Option.filter_some, hdue, decide_true, if_true]
        exact .rang ha hdue
      · simp only [undergo, marks, ring, ha, Option.filter_some, hdue, decide_false]
        exact .none _ rfl
  | returned id result =>
    by_cases hid : id ∈ a.outstanding
    · simp only [undergo, marks, Actor.returned, if_pos hid]
      exact .returned result hid
    · simp only [undergo, marks, Actor.returned, if_neg hid]
      exact .none _ rfl
  | disconnect => exact .disconnected

theorem Change.failed {d : Deed} {marks : List Mark} (h : Change a d b marks)
    (hstage : a.stage = .failed) : b.stage = .failed := by
  cases h with
  | none hseeds => exact hstage
  | posted c hrunning => exact nomatch hstage.symm.trans hrunning
  | commanded h hinbox => exact h.failed hstage
  | signaled h hmailbox => exact h.failed hstage
  | rang halarm hdue => exact hstage
  | returned result hid => exact hstage
  | disconnected => exact hstage

/-- What every deed keeps, as long as alarms ring in the past, holds of every life: the clock of
the statement can be put after all of them. -/
theorem live_induction {P : Moment → Actor → List Mark → Prop}
    (mono : ∀ {now now' a ms}, P now a ms → now ≤ now' → P now' a ms)
    (step : ∀ {now a d b ms ns}, P now a ms → Change a d b ns → (∀ t, d = .ring t → t ≤ now) →
      P now b (ms ++ ns))
    {now : Moment} {a : Actor} {ms : List Mark} (h : P now a ms) (ds : List Deed) :
    ∃ now', P now' (a.live ds) (ms ++ a.record ds) := by
  induction ds generalizing now a ms with
  | nil =>
    refine ⟨now, ?_⟩
    rw [record, List.append_nil]
    exact h
  | cons d ds ih =>
    have hstep : ∃ now', P now' (a.undergo d) (ms ++ a.marks d) := by
      cases d with
      | ring t =>
        refine ⟨max now t, step (mono h (Int.le_max_left ..)) (undergo_change a _) ?_⟩
        rintro _ ⟨⟩
        exact Int.le_max_right ..
      | _ => exact ⟨now, step h (undergo_change a _) nofun⟩
    obtain ⟨now', h'⟩ := hstep
    rw [live_cons, record, ← List.append_assoc]
    exact ih h'

/-- A deed that others do: it writes to the mailbox or cuts the actor off. -/
def Deed.Feeds : Deed → Prop
  | .post _ => True
  | .disconnect => True
  | _ => False

/-- The requests that some deeds write to the mailbox. -/
def queuedBy (ds : List Deed) : List Pending :=
  ds.flatMap fun
    | .post (.queue p) => [p]
    | _ => []

@[simp] theorem queuedBy_nil : queuedBy [] = [] := rfl

@[simp] theorem queuedBy_append (ds es : List Deed) :
    queuedBy (ds ++ es) = queuedBy ds ++ queuedBy es := List.flatMap_append

@[simp] theorem queuedIn_append (cs es : List Command) :
    queuedIn (cs ++ es) = queuedIn cs ++ queuedIn es := List.filterMap_append

theorem queuedBy_post (c : Command) (ds : List Deed) :
    queuedBy (.post c :: ds) = queuedIn [c] ++ queuedBy ds := by
  cases c <;> rfl

/-- A fed actor has more in its mailbox, and the requests that it has more are on the record. -/
theorem live_of_feeds {ds : List Deed} (h : ∀ d ∈ ds, d.Feeds) (a : Actor) :
    ∃ cs connected, a.live ds = { a with mailbox := a.mailbox ++ cs, connected } ∧
      a.record ds = (queuedIn cs).map (fun p => .entered p.id) ∧
      (queuedIn cs).Sublist (queuedBy ds) ∧ ∀ c ∈ cs, .post c ∈ ds := by
  induction ds generalizing a with
  | nil => exact ⟨[], a.connected, by simp, rfl, .slnil, List.forall_mem_nil _⟩
  | cons d ds ih =>
    obtain ⟨cs, connected, hlive, hrecord, hsub, hposted⟩ :=
      ih (fun x hx => h x (.tail _ hx)) (a.undergo d)
    have hposted' (c : Command) (hc : c ∈ cs) : Deed.post c ∈ d :: ds := .tail _ (hposted c hc)
    rw [live_cons, hlive, record, hrecord]
    have hd := h d (.head _)
    cases d with
    | post c =>
      rw [queuedBy_post]
      by_cases hopen : a.isOpen
      · refine ⟨c :: cs, connected, ?_, ?_, ?_, List.forall_mem_cons.2 ⟨.head _, hposted'⟩⟩
        · simp [undergo, hopen, post]
        · simp only [marks, hopen, if_true, ← List.map_append]
          exact congrArg _ (queuedIn_append [c] cs).symm
        · exact (queuedIn_append [c] cs) ▸ hsub.append_left _
      · refine ⟨cs, connected, ?_, ?_, hsub.trans (List.sublist_append_right _ _), hposted'⟩
        · simp [undergo, hopen]
        · simp [marks, hopen]
    | disconnect => exact ⟨cs, connected, rfl, rfl, hsub, hposted'⟩
    | command s => exact hd.elim
    | signal s => exact hd.elim
    | ring now => exact hd.elim
    | returned id result => exact hd.elim

/-- Deeds of others that feed an actor: with requests among `ps` in their order, and with no reply
of a probe but `rs`. -/
structure Feeding (ps : List Pending) (rs : Option Reply) (ds : List Deed) : Prop where
  feeds : ∀ d ∈ ds, d.Feeds
  queued : (queuedBy ds).Sublist ps
  seeded : ∀ reply, .post (.seed reply) ∈ ds → rs = some reply

theorem feeding_nil (ps : List Pending) (rs : Option Reply) : Feeding ps rs [] where
  feeds := List.forall_mem_nil _
  queued := List.nil_sublist ps
  seeded _ h := nomatch h

theorem Feeding.append {ps qs : List Pending} {rs : Option Reply} {ds es : List Deed}
    (h : Feeding ps rs ds) (h' : Feeding qs rs es) : Feeding (ps ++ qs) rs (ds ++ es) where
  feeds := List.forall_mem_append.2 ⟨h.feeds, h'.feeds⟩
  queued := by
    rw [queuedBy_append]
    exact h.queued.append h'.queued
  seeded reply hmem := (List.mem_append.1 hmem).elim (h.seeded reply) (h'.seeded reply)

/-- One command that is not a request. -/
theorem feeding_post {rs : Option Reply} {c : Command} (ps : List Pending)
    (hqueued : queuedIn [c] = []) (hseeded : ∀ reply, c = .seed reply → rs = some reply) :
    Feeding ps rs [.post c] where
  feeds := List.forall_mem_singleton.2 trivial
  queued := by
    rw [queuedBy_post, hqueued]
    exact List.nil_sublist ps
  seeded reply hmem := hseeded reply (Deed.post.inj (List.mem_singleton.1 hmem)).symm

theorem feeding_disconnect (ps : List Pending) (rs : Option Reply) :
    Feeding ps rs [.disconnect] where
  feeds := List.forall_mem_singleton.2 trivial
  queued := List.nil_sublist ps
  seeded _ h := nomatch List.mem_singleton.1 h

theorem queuedBy_queue (ps : List Pending) :
    queuedBy (ps.map fun p => .post (.queue p)) = ps := by
  induction ps with
  | nil => rfl
  | cons p ps ih => exact congrArg (p :: ·) ih

theorem feeding_queue (ps : List Pending) (rs : Option Reply) :
    Feeding ps rs (ps.map fun p => .post (.queue p)) where
  feeds d hd := by
    obtain ⟨p, -, rfl⟩ := List.mem_map.1 hd
    trivial
  queued := by simp [queuedBy_queue]
  seeded reply hmem := by
    obtain ⟨p, -, hp⟩ := List.mem_map.1 hmem
    cases hp

theorem Takes.mem_mailbox {msg : Manager.Message} {x : Command} (h : a.Takes msg b)
    (hx : x ∈ b.mailbox) : x ∈ a.mailbox := by
  cases h with
  | seed hmailbox =>
    rw [hmailbox]
    exact .tail _ hx
  | queue hmailbox =>
    rw [hmailbox]
    exact .tail _ hx
  | fire hinbox => exact hx
  | reply hinbox => exact hx

theorem Takes.mailbox_length_le {msg : Manager.Message} (h : a.Takes msg b) :
    b.mailbox.length ≤ a.mailbox.length := by
  cases h with
  | seed hmailbox => simp [hmailbox]
  | queue hmailbox => simp [hmailbox]
  | fire hinbox => exact Nat.le_refl _
  | reply hinbox => exact Nat.le_refl _

theorem Advance.mailbox_length_le {os : List Output} (h : Advance s a b os) :
    b.mailbox.length ≤ a.mailbox.length := by
  cases h with
  | handled hstage htakes h => exact htakes.mailbox_length_le
  | broke hquiet => exact Nat.zero_le _
  | stopped hstage hquiet => exact Nat.zero_le _
  | concluded hstage hinbox hquiet hactive hphase hqueue => exact Nat.le_refl _
  | ignored hstage hinbox => exact Nat.le_refl _

/-- Only others write to a mailbox. -/
theorem Change.mailbox_length_le {d : Deed} {ms : List Mark} (h : Change a d b ms)
    (hd : ¬ d.Feeds) : b.mailbox.length ≤ a.mailbox.length := by
  cases h with
  | none => exact Nat.le_refl _
  | posted c hstage => exact absurd trivial hd
  | commanded h => exact h.mailbox_length_le
  | signaled h => exact h.mailbox_length_le
  | rang halarm hdue => exact Nat.le_refl _
  | returned result hid => exact Nat.le_refl _
  | disconnected => exact absurd trivial hd

/-- A deed that handles a message does so in given surroundings, and an alarm rings at their
instant. -/
def Deed.At (s : Surroundings) : Deed → Prop
  | .command t => t = s
  | .signal t => t = s
  | .ring now => now = s.now
  | _ => True

end Actor

end Throttle
