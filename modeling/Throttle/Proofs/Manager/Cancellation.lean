import Throttle.Proofs.Manager.Omission
import Throttle.Proofs.Manager.Restriction

/-!
  Requests that are cancelled in the queue. `withheld` takes a request out of a life: the deed that
  writes it to the mailbox, and the one that handles this command. If the request is in the queue of
  a running manager when its caller stops waiting, the life without it goes on in the same way: the
  actor differs by this request alone (`Actor.without`), and everything that others notice happens
  at the same instants (`cancelled_unseen`).
-/

namespace Throttle

open Http Turn

namespace Manager

variable {s : Surroundings} {m m' : Manager} {os : List Output}

/-- Turning to the queue brings no request into it. -/
theorem Activation.queue_sublist (h : Activation s m m' os) : m'.queue.Sublist m.queue := by
  cases h with
  | busy hbusy => exact .refl _
  | drained hactive hphase hgone => exact List.nil_sublist _
  | planned gone rest p sendAt hactive hphase hqueue hgone hlive hsend =>
    rw [hqueue]
    exact (List.sublist_cons_self p rest).trans (List.sublist_append_right gone _)

/-- A request comes into the queue with its own message only. -/
theorem Handling.queue_sublist {msg : Message} (h : Handling s m msg m' os) :
    m'.queue.Sublist (m.queue ++ msg.joins) := by
  have still {m' : Manager} (hsub : m'.queue.Sublist m.queue) :
      m'.queue.Sublist (m.queue ++ msg.joins) := hsub.trans (List.sublist_append_left _ _)
  cases h with
  | seeded haccepted next => exact still next.queue_sublist
  | seedRefused hrefused hpaused hlapse next => exact still next.queue_sublist
  | joinedGone hgone => exact still (.refl _)
  | joined hlive next => exact next.queue_sublist
  | fireStale hstale => exact still (.refl _)
  | fireIdle hphase => exact still (.refl _)
  | resumed hphase next => exact still next.queue_sublist
  | fireEmpty hphase hactive next => exact still next.queue_sublist
  | skipped hphase hactive hgone next => exact still next.queue_sublist
  | unsigned hphase hactive hlive hsigned next => exact still next.queue_sublist
  | sent hphase hactive hlive hsigned => exact still (.refl _)
  | stray hphase => exact still (.refl _)
  | lost hphase next => exact still next.queue_sublist
  | passed hphase haccepted hclear next => exact still next.queue_sublist
  | suspended hphase haccepted hmalformed hresume => exact still (.refl _)
  | refused hphase hrefused hlapse next =>
    cases next with
    | empty hactive next => exact still next.queue_sublist
    | skipped hactive hgone next => exact still next.queue_sublist
    | again hactive hlive hsend => exact still (.refl _)

end Manager

namespace Actor

variable {s : Surroundings} {a b : Actor} {p q : Pending} {d : Deed}

/-! ## The requests that are still to come up -/

/-- The requests that an actor has not turned to. -/
def backlog (a : Actor) : List Pending := a.manager.queue ++ queuedIn a.mailbox

theorem Takes.backlog_eq {msg : Manager.Message} (h : a.Takes msg b) :
    a.manager.queue ++ msg.joins ++ queuedIn b.mailbox = a.backlog := by
  unfold backlog
  rw [List.append_assoc]
  cases h with
  | seed hmailbox => rw [hmailbox]; rfl
  | queue hmailbox => rw [hmailbox]; rfl
  | fire hinbox => rfl
  | reply hinbox => rfl

theorem Advance.backlog_sublist {os : List Output} (h : Advance s a b os) :
    b.backlog.Sublist a.backlog := by
  cases h with
  | handled hstage htakes hhandled =>
    rw [← htakes.backlog_eq]
    exact hhandled.queue_sublist.append (.refl _)
  | broke hquiet =>
    unfold backlog
    exact (List.Sublist.refl a.manager.queue).append (List.nil_sublist _)
  | stopped hstage hquiet => exact List.nil_sublist _
  | concluded hstage hinbox hquiet hactive hphase hqueue =>
    unfold backlog
    rw [after_manager, hqueue]
    exact .refl _
  | ignored hstage hinbox => exact .refl _

/-- A request comes into the backlog with its own command only. -/
theorem Change.backlog_sublist {ns : List Mark} (h : Change a d b ns) :
    b.backlog.Sublist (a.backlog ++ queuedBy [d]) := by
  have still (hsub : b.backlog.Sublist a.backlog) : b.backlog.Sublist (a.backlog ++ queuedBy [d]) :=
    hsub.trans (List.sublist_append_left _ _)
  cases h with
  | none hseeds => exact still (.refl _)
  | posted c hstage =>
    have hbacklog : (a.post c).backlog = a.backlog ++ queuedBy [.post c] := by
      simp only [backlog, post, queuedIn_append, queuedBy_post, queuedBy_nil, List.append_nil,
        List.append_assoc]
    exact hbacklog ▸ .refl _
  | commanded h hinbox => exact still h.backlog_sublist
  | signaled h hmailbox => exact still h.backlog_sublist
  | rang halarm hdue => exact still (.refl _)
  | returned result hid => exact still (.refl _)
  | disconnected => exact still (.refl _)

theorem live_backlog (a : Actor) (ds : List Deed) :
    (a.live ds).backlog.Sublist (a.backlog ++ queuedBy ds) := by
  induction ds generalizing a with
  | nil => exact List.sublist_append_left _ _
  | cons d ds ih =>
    refine (ih (a.undergo d)).trans ?_
    have hstep := (undergo_change a d).backlog_sublist.append (.refl (queuedBy ds))
    rwa [List.append_assoc, ← queuedBy_append] at hstep

/-! ## What an actor shows -/

theorem Advance.snapshot_eq {os : List Output} (h : Advance s a b os)
    (ha : a.snapshot = a.manager.snapshot) : b.snapshot = b.manager.snapshot := by
  cases h with
  | handled hstage htakes hhandled => rfl
  | broke hquiet => exact ha
  | stopped hstage hquiet => rfl
  | concluded hstage hinbox hquiet hactive hphase hqueue => rfl
  | ignored hstage hinbox => exact ha

theorem Change.snapshot_eq {ns : List Mark} (h : Change a d b ns)
    (ha : a.snapshot = a.manager.snapshot) : b.snapshot = b.manager.snapshot := by
  cases h with
  | commanded h hinbox => exact h.snapshot_eq ha
  | signaled h hmailbox => exact h.snapshot_eq ha
  | _ => exact ha

/-- What an actor shows is the state of its manager. -/
theorem live_snapshot (name : PolicyName) (ds : List Deed) :
    ((new name).live ds).snapshot = ((new name).live ds).manager.snapshot := by
  induction ds using List.reverseRecOn with
  | nil => rfl
  | append_singleton ds d ih =>
    rw [live_append]
    exact (undergo_change _ d).snapshot_eq ih

/-! ## Steps side by side -/

/-- An actor without a request in its queue and its mailbox. -/
@[simps]
def without (p : Pending) (a : Actor) : Actor :=
  { a with
    manager := a.manager.without p
    mailbox := a.mailbox.filter (· ≠ .queue p)
    snapshot := { a.snapshot with queued := (a.manager.without p).queue.length } }

/-- What the callers of all requests but one, the transport, the alarm and the listeners notice of a
step, and when. -/
def Step.effects (p : Pending) (now : Moment) (x : Step) : List (Moment × (Output ⊕ Pending)) :=
  ((mattering p.id x.outputs).map Sum.inl ++ (x.orphans.filter (· ≠ p)).map Sum.inr).map (now, ·)

/-- What others notice of a deed. -/
def effects (p : Pending) (a : Actor) : Deed → List (Moment × (Output ⊕ Pending))
  | .command s => (a.command s).elim [] (Step.effects p s.now)
  | .signal s => (a.signal s).elim [] (Step.effects p s.now)
  | _ => []

/-- A step is another one without a request. -/
structure Step.Shadows (p : Pending) (x y : Step) : Prop where
  actor : y.actor = x.actor.without p
  outputs : mattering p.id y.outputs = mattering p.id x.outputs
  orphans : y.orphans.filter (· ≠ p) = x.orphans.filter (· ≠ p)

/-- A request whose caller waits comes up, and so leaves the backlog, or the actor fails. -/
structure Loses (p : Pending) (s : Surroundings) (a b : Actor) : Prop where
  waits : s.gone p.id = false
  mem : p ∈ a.backlog
  lost : b.stage = .failed ∨ p ∉ b.backlog

theorem queuedIn_filter (p : Pending) (cs : List Command) :
    queuedIn (cs.filter (· ≠ .queue p)) = (queuedIn cs).filter (· ≠ p) := by
  induction cs with
  | nil => rfl
  | cons c cs ih =>
    cases c with
    | queue q =>
      by_cases hqp : q = p
      · subst hqp
        rw [List.filter_cons_of_neg (by simp), ih]
        exact (List.filter_cons_of_neg (by simp)).symm
      · rw [List.filter_cons_of_pos (by simpa using hqp)]
        refine (congrArg (q :: ·) ih).trans ?_
        exact (List.filter_cons_of_pos (by simpa using hqp)).symm
    | seed reply => exact ih
    | shutdown => exact ih

theorem held_without (p : Pending) (a : Actor) :
    (a.without p).held.filter (· ≠ p) = a.held.filter (· ≠ p) := by
  unfold held
  rw [without_mailbox, queuedIn_filter]
  simp [List.filter_append]

/-- Turns that are alike make steps that are. -/
theorem finish_shadows {t u : Turn Manager} (h : t.Alike p.id (Manager.Lacks p) u) (stage : Stage)
    (holding : List Pending) :
    (a.finish stage holding t).Shadows p ((a.without p).finish stage holding u) := by
  have halarm : alarmAfter u.outputs a.alarm = alarmAfter t.outputs a.alarm := by
    rw [← alarmAfter_mattering u.outputs, h.outputs, alarmAfter_mattering]
  have hsends : sends u.outputs = sends t.outputs := by
    rw [← sends_mattering u.outputs, h.outputs, sends_mattering]
  unfold finish
  rw [foldl_perform, foldl_perform]
  cases h with
  | ok ht hu h hos =>
    rw [ht, hu]
    cases h
    refine ⟨?_, hos, rfl⟩
    unfold publish without
    simp only [halarm, hsends]
    rfl
  | error ht hu hos =>
    rw [ht, hu]
    refine ⟨?_, hos, ?_⟩
    · unfold without
      simp only [hsends]
      rfl
    · simp only [List.filter_append, held_without]

/-- A turn that takes the request from the queue makes a step that loses it. -/
theorem finish_loses {qs : List Pending} {t : Turn Manager} {holding : List Pending}
    (h : Manager.Pops p s qs t) (hmem : p ∈ a.backlog)
    (hmailbox : p ∉ queuedIn b.mailbox) : Loses p s a (b.finish .running holding t).actor := by
  refine ⟨h.waits, hmem, ?_⟩
  unfold finish
  cases hr : t.result with
  | ok m =>
    right
    rw [foldl_perform]
    exact fun hback => (List.mem_append.1 hback).elim (h.taken m hr) hmailbox
  | error e => exact .inl rfl

/-- A step next to the same one of the actor without a request: either is possible if the other is,
and they come to the same, unless the step loses the request. -/
inductive Beside (p : Pending) (s : Surroundings) (a : Actor) :
    Option Step → Option Step → Prop where
  | neither : Beside p s a none none
  | both {x y : Step} (h : x.Shadows p y) : Beside p s a (some x) (some y)
  | loses {x : Step} {y : Option Step} (h : Loses p s a x.actor) : Beside p s a (some x) y

/-- A message that is not the request itself is handled as it would be without the request, or loses
it. -/
theorem Takes.beside {msg : Manager.Message} (h : a.Takes msg b) (hmsg : msg ≠ .queue p)
    (hcount : a.backlog.count p ≤ 1) (s : Surroundings) (holding : List Pending) :
    Beside p s a (some (b.finish .running holding (a.manager.receive s msg)))
      (some ((b.without p).finish .running holding ((a.manager.without p).receive s msg))) := by
  rw [← h.backlog_eq, List.count_append, List.count_append] at hcount
  have hqueue : a.manager.queue.count p ≤ 1 := by omega
  rcases Manager.receive_spares hqueue s hmsg with halike | hpops
  · exact .both (finish_shadows halike .running holding)
  · refine .loses (finish_loses hpops (List.mem_append_left _ hpops.mem) fun hwaits => ?_)
    -- it would be there twice
    have hone := List.count_pos_iff.2 hpops.mem
    have htwo := List.count_pos_iff.2 hwaits
    omega

theorem close_shadows (p : Pending) (a : Actor) : a.close.Shadows p (a.without p).close := by
  have halike := Manager.close_alike p (queuedIn a.mailbox) a.manager
  rw [← queuedIn_filter] at halike
  have hactor := (finish_shadows (a := a.deaf) halike
    (if a.manager.inFlight then .closing else .stopped) []).actor
  rw [finish_of_ok (Manager.close_result _ _), finish_of_ok (Manager.close_result _ _)] at hactor
  rw [close_eq, close_eq]
  exact ⟨hactor, halike.outputs, rfl⟩

/-- The next command of an actor, if it does not bring the request. -/
theorem command_beside (hcount : a.backlog.count p ≤ 1)
    (hhead : a.mailbox.head? ≠ some (.queue p)) (s : Surroundings) :
    Beside p s a (a.command s) ((a.without p).command s) := by
  by_cases hstage : a.stage = .running
  · cases hmailbox : a.mailbox with
    | nil =>
      have hmailbox' : (a.without p).mailbox = [] := by rw [without_mailbox, hmailbox]; rfl
      unfold command
      rw [hmailbox, hmailbox', without_stage, without_connected, if_neg (not_not.2 hstage),
        if_neg (not_not.2 hstage)]
      cases a.connected with
      | true => exact .neither
      | false => exact .both (close_shadows p a)
    | cons c rest =>
      have hc : c ≠ .queue p := by
        rintro rfl
        exact hhead (by rw [hmailbox]; rfl)
      have hmailbox' : (a.without p).mailbox = c :: rest.filter (· ≠ .queue p) := by
        rw [without_mailbox, hmailbox, List.filter_cons_of_pos (by simpa using hc)]
      unfold command
      rw [hmailbox, hmailbox', without_stage, if_neg (not_not.2 hstage),
        if_neg (not_not.2 hstage)]
      cases c with
      | seed reply => exact (Takes.seed hmailbox).beside nofun hcount s []
      | queue q =>
        exact (Takes.queue hmailbox).beside (fun heq => hc (by cases heq; rfl)) hcount s [q]
      | shutdown => exact .both (close_shadows p { a with mailbox := rest })
  · unfold command
    rw [without_stage, if_pos hstage, if_pos hstage]
    exact .neither

/-- A signal does not bring the request. -/
theorem signal_beside (hcount : a.backlog.count p ≤ 1) (s : Surroundings) :
    Beside p s a (a.signal s) ((a.without p).signal s) := by
  cases hinbox : a.inbox with
  | nil =>
    unfold signal
    rw [without_inbox, hinbox]
    exact .neither
  | cons x rest =>
    by_cases hrunning : a.stage = .running
    · cases x with
      | fire generation =>
        rw [signal_of_fire hrunning hinbox, signal_of_fire (a := a.without p) hrunning hinbox]
        exact (Takes.fire hinbox).beside nofun hcount s []
      | reply result =>
        rw [signal_of_reply hrunning hinbox, signal_of_reply (a := a.without p) hrunning hinbox]
        exact (Takes.reply hinbox).beside nofun hcount s []
    · by_cases hlast : a.stage = .closing ∧ ∃ result, x = .reply result
      · obtain ⟨hclosing, result, rfl⟩ := hlast
        rw [signal_of_last hclosing hinbox, signal_of_last (a := a.without p) hclosing hinbox]
        exact .both (finish_shadows (a := { a with inbox := rest })
          (Manager.conclude_alike p s result a.manager) .stopped [])
      · have hdropped (hclosing : a.stage = .closing) (result) : x ≠ .reply result :=
          fun hx => hlast ⟨hclosing, result, hx⟩
        rw [signal_of_dropped hrunning hdropped hinbox,
          signal_of_dropped (a := a.without p) hrunning hdropped hinbox]
        exact .both ⟨rfl, rfl, rfl⟩

/-! ## Deeds side by side -/

/-- A deed happens as it would without a request. -/
structure Mirrored (p : Pending) (a : Actor) (d : Deed) : Prop where
  actor : (a.without p).undergo d = (a.undergo d).without p
  effects : (a.without p).effects p d = a.effects p d

/-- A message is handled, and its request lost. -/
def Misses (p : Pending) (a : Actor) (d : Deed) : Prop :=
  ∃ s, (d = .command s ∨ d = .signal s) ∧ Loses p s a (a.undergo d)

/-- The deed writes a request to the mailbox, or handles the command that brings it. -/
def brings (p : Pending) (a : Actor) : Deed → Bool
  | .post c => c == .queue p
  | .command _ => a.mailbox.head? == some (.queue p)
  | _ => false

theorem Step.Shadows.effects_eq {x y : Step} (h : x.Shadows p y) (now : Moment) :
    y.effects p now = x.effects p now := by
  unfold Step.effects
  rw [h.outputs, h.orphans]

/-- Steps side by side, as deeds. -/
theorem Beside.elim {x y : Option Step} (h : Beside p s a x y) :
    (y.elim (a.without p) Step.actor = (x.elim a Step.actor).without p ∧
        y.elim [] (Step.effects p s.now) = x.elim [] (Step.effects p s.now)) ∨
      Loses p s a (x.elim a Step.actor) := by
  cases h with
  | neither => exact .inl ⟨rfl, rfl⟩
  | both h => exact .inl ⟨h.actor, h.effects_eq s.now⟩
  | loses h => exact .inr h

/-- A deed that does not bring the request happens as it would without it, or loses it. -/
theorem mirrored_or_misses (hcount : a.backlog.count p ≤ 1) (hd : brings p a d = false) :
    Mirrored p a d ∨ Misses p a d := by
  cases d with
  | post c =>
    refine .inl ⟨?_, rfl⟩
    have hc : c ≠ .queue p := by simpa [brings] using hd
    by_cases hopen : a.isOpen
    · have hopen' : (a.without p).isOpen := hopen
      simp only [undergo, if_pos hopen, if_pos hopen']
      unfold post without
      rw [List.filter_append, List.filter_cons_of_pos (by simpa using hc), List.filter_nil]
    · have hopen' : ¬ (a.without p).isOpen := hopen
      simp only [undergo, if_neg hopen, if_neg hopen']
  | command s =>
    have hhead : a.mailbox.head? ≠ some (.queue p) := by simpa [brings] using hd
    refine (command_beside hcount hhead s).elim.imp ?_ fun h => ⟨s, .inl rfl, h⟩
    rintro ⟨hactor, heffects⟩
    exact ⟨hactor, heffects⟩
  | signal s =>
    refine (signal_beside hcount s).elim.imp ?_ fun h => ⟨s, .inr rfl, h⟩
    rintro ⟨hactor, heffects⟩
    exact ⟨hactor, heffects⟩
  | ring now =>
    refine .inl ⟨?_, rfl⟩
    simp only [undergo, ring, without_alarm]
    cases a.alarm.filter fun x => decide (x.due ≤ now) <;> rfl
  | returned id result =>
    refine .inl ⟨?_, rfl⟩
    simp only [undergo, returned, without_outstanding]
    split <;> rfl
  | disconnect => exact .inl ⟨rfl, rfl⟩

/-- A request that only changes the queue when it comes is not noticed. -/
theorem finish_unseen {rest : List Command} {m : Manager} {os : List Output}
    (hmailbox : a.mailbox = .queue p :: rest) (hstage : a.stage = .running)
    (hshown : a.snapshot = a.manager.snapshot) (hm : m.without p = a.manager.without p)
    (hquiet : AllQuiet os) :
    ({ a with mailbox := rest }.after .running m os).without p = a.without p := by
  have hsnapshot : { m.snapshot with queued := (m.without p).queue.length } =
      { a.snapshot with queued := (a.manager.without p).queue.length } := by
    rw [hshown]
    exact congrArg Manager.snapshot hm
  rw [hm] at hsnapshot
  dsimp only at hsnapshot
  unfold without after
  rw [hquiet.alarmAfter_eq, hquiet.sends_eq, List.append_nil, hmailbox,
    List.filter_cons_of_neg (by simp), hstage]
  simp only [hm, hsnapshot]

/-- A deed that brings the request to a sound actor is not noticed, or the request is lost at
once. -/
theorem unseen_or_misses {now : Moment} (hs : Sound now a)
    (hshown : a.snapshot = a.manager.snapshot) (hcount : a.backlog.count p ≤ 1)
    (hd : brings p a d = true) :
    ((a.undergo d).without p = a.without p ∧ a.effects p d = []) ∨ Misses p a d := by
  cases d with
  | post c =>
    obtain rfl : c = .queue p := by simpa [brings] using hd
    refine .inl ⟨?_, rfl⟩
    simp only [undergo]
    split
    · unfold post without
      rw [List.filter_append, List.filter_cons_of_neg (by simp), List.filter_nil, List.append_nil]
    · rfl
  | command s =>
    have hhead : a.mailbox.head? = some (.queue p) := by simpa [brings] using hd
    obtain ⟨rest, hmailbox⟩ := List.head?_eq_some_iff.1 hhead
    by_cases hstage : a.stage = .running
    · have hcommand := command_of_queue (s := s) hstage hmailbox
      have hunseen {m : Manager} {os : List Output} (hm : m.without p = a.manager.without p)
          (h : a.manager.receive s (.queue p) = ⟨os, .ok m⟩) (hquiet : AllQuiet os)
          (hos : mattering p.id os = []) :
          (a.undergo (.command s)).without p = a.without p ∧ a.effects p (.command s) = [] := by
        rw [h, finish_of_ok rfl] at hcommand
        simp only [undergo, effects, hcommand, Option.elim_some]
        refine ⟨finish_unseen hmailbox hstage hshown hm hquiet, ?_⟩
        unfold Step.effects
        rw [hos]
        rfl
      cases hgone : s.gone p.id with
      | true =>
        left
        exact hunseen rfl (Manager.receive_queue_of_gone hgone) (a.manager.abandon_quiet p)
          (a.manager.abandon_unseen p)
      | false =>
        rcases a.manager.idle_or_busy with ⟨hactive, hphase⟩ | hbusy
        · -- it comes up at once
          refine .inr ⟨s, .inl rfl, hgone, ?_, ?_⟩
          · exact List.mem_append_right _ (by rw [hmailbox]; exact .head _)
          · simp only [undergo, hcommand, Option.elim_some]
            cases hr : (a.manager.receive s (.queue p)).result with
            | error e =>
              left
              unfold finish
              rw [hr]
            | ok m =>
              right
              have hrest : p ∉ queuedIn rest := by
                have hbacklog := (Takes.queue hmailbox).backlog_eq
                rw [← hbacklog, List.count_append, List.count_append] at hcount
                have hone : [p].count p = 1 := List.count_singleton_self
                rw [← List.count_eq_zero]
                change _ + [p].count p + (queuedIn rest).count p ≤ 1 at hcount
                omega
              rw [finish_of_ok hr]
              unfold backlog
              rw [after_manager, Manager.receive_queue_of_idle hgone hactive hphase
                (hs.settled hstage hphase) hr]
              exact hrest
        · left
          refine hunseen ?_ (Manager.receive_queue_of_busy hgone hbusy)
            (allQuiet_cons trivial (allQuiet_cons trivial allQuiet_nil)) rfl
          unfold Manager.without
          rw [List.filter_append, List.filter_cons_of_neg (by simp), List.filter_nil,
            List.append_nil]
    · have hnone : a.command s = none := if_pos hstage
      simp only [undergo, effects, hnone, Option.elim_none]
      exact .inl ⟨trivial, trivial⟩
  | signal s => cases hd
  | ring now => cases hd
  | returned id result => cases hd
  | disconnect => cases hd

/-! ## Lives side by side -/

/-- A life without the deeds that bring a request. -/
def withheld (p : Pending) (a : Actor) : List Deed → List Deed
  | [] => []
  | d :: ds =>
    if brings p a d then withheld p (a.undergo d) ds else d :: withheld p (a.undergo d) ds

/-- What others notice of a life. -/
def effectsOver (p : Pending) (a : Actor) : List Deed → List (Moment × (Output ⊕ Pending))
  | [] => []
  | d :: ds => a.effects p d ++ effectsOver p (a.undergo d) ds

theorem withheld_snoc (p : Pending) (a : Actor) (ds : List Deed) (d : Deed) :
    withheld p a (ds ++ [d]) = withheld p a ds ++ if brings p (a.live ds) d then [] else [d] := by
  induction ds generalizing a with
  | nil => rfl
  | cons e ds ih =>
    rw [List.cons_append, withheld, withheld, ih]
    split <;> rfl

theorem effectsOver_append (p : Pending) (a : Actor) (ds es : List Deed) :
    effectsOver p a (ds ++ es) = effectsOver p a ds ++ effectsOver p (a.live ds) es := by
  induction ds generalizing a with
  | nil => rfl
  | cons d ds ih => simp only [List.cons_append, effectsOver, ih, live_cons, List.append_assoc]

theorem effectsOver_singleton (p : Pending) (a : Actor) (d : Deed) :
    effectsOver p a [d] = a.effects p d := List.append_nil _

/-- What waits in the mailbox or the queue was written to the mailbox before. -/
theorem mem_queuedBy_of_backlog (name : PolicyName) {ds : List Deed}
    (h : p ∈ ((new name).live ds).backlog) : p ∈ queuedBy ds :=
  (live_backlog (new name) ds).subset h

/-- The request that is in the queue after a life has not been lost in it. -/
theorem not_misses_before (name : PolicyName) {ds rest : List Deed}
    (hposted : (queuedBy (ds ++ d :: rest)).count p ≤ 1)
    (hrunning : ((new name).live (ds ++ d :: rest)).stage = .running)
    (hqueued : p ∈ ((new name).live (ds ++ d :: rest)).manager.queue) :
    ¬ Misses p ((new name).live ds) d := by
  rintro ⟨s, -, hwaits, hmem, hfailed | hlost⟩
  · rw [live_append, live_cons, (live_of_over (.inl hfailed) rest).1, hfailed] at hrunning
    cases hrunning
  · -- it would have been written to the mailbox again
    rw [live_append, live_cons] at hqueued
    have hback := (live_backlog _ rest).subset (List.mem_append_left _ hqueued)
    have hagain := List.count_pos_iff.2 ((List.mem_append.1 hback).resolve_left hlost)
    have hbefore := List.count_pos_iff.2 (mem_queuedBy_of_backlog name hmem)
    rw [List.append_cons, queuedBy_append, queuedBy_append, List.count_append,
      List.count_append] at hposted
    omega

/-- A request whose caller stops waiting while it is in the queue of a running manager changes
nothing: without its command, and with all else at the same instants, the actor goes through the
same states but for this request, and others notice the same. -/
theorem cancelled_unseen (name : PolicyName) (front back : List Deed) (p : Pending)
    (hposted : (queuedBy (front ++ back)).count p ≤ 1)
    (hrunning : ((new name).live front).stage = .running)
    (hqueued : p ∈ ((new name).live front).manager.queue)
    (hdropped : ∀ d ∈ back, ∀ s, d = .command s ∨ d = .signal s → s.gone p.id = true) :
    ∀ ds, ds <+: front ++ back →
      (new name).live (withheld p (new name) ds) = ((new name).live ds).without p ∧
        effectsOver p (new name) (withheld p (new name) ds) = effectsOver p (new name) ds := by
  intro ds hds
  induction ds using List.reverseRecOn with
  | nil => exact ⟨rfl, rfl⟩
  | append_singleton ds d ih =>
    obtain ⟨es, hes⟩ := hds
    have hall : ds ++ d :: es = front ++ back := (List.append_cons ds d es).trans hes
    obtain ⟨hactor, heffects⟩ := ih ⟨d :: es, hall⟩
    have hcount : ((new name).live ds).backlog.count p ≤ 1 := by
      have hsub := (live_backlog (new name) ds).count_le p
      rw [← hall, queuedBy_append, List.count_append] at hposted
      exact Nat.le_trans hsub (Nat.le_trans (Nat.le_add_right ..) hposted)
    have hkept : ¬ Misses p ((new name).live ds) d := by
      have hlate : d ∈ back → ¬ Misses p ((new name).live ds) d := by
        rintro hback ⟨s, hs, hloses⟩
        exact nomatch (hdropped d hback s hs).symm.trans hloses.waits
      rcases List.append_eq_append_iff.1 hall with ⟨fs, hfront, hback⟩ | ⟨bs, hds, hback⟩
      · cases fs with
        | nil =>
          obtain rfl : d :: es = back := hback
          exact hlate (.head _)
        | cons f fs =>
          obtain ⟨rfl, rfl⟩ := List.cons.inj hback
          subst hfront
          rw [queuedBy_append, List.count_append] at hposted
          exact not_misses_before name (Nat.le_trans (Nat.le_add_right ..) hposted) hrunning hqueued
      · rw [hback] at hlate
        exact hlate (List.mem_append_right bs (.head _))
    rw [withheld_snoc, live_append, live_append, effectsOver_append, effectsOver_append,
      effectsOver_singleton, hactor, heffects, live_cons, live_nil]
    cases hd : brings p ((new name).live ds) d with
    | true =>
      obtain ⟨now, hsound⟩ := sound_live name ds
      obtain ⟨hsame, hsilent⟩ :=
        (unseen_or_misses hsound (live_snapshot name ds) hcount hd).resolve_right hkept
      rw [if_pos rfl, live_nil, hsame, hsilent]
      exact ⟨rfl, rfl⟩
    | false =>
      obtain ⟨hnext, hnoticed⟩ := (mirrored_or_misses hcount hd).resolve_right hkept
      rw [if_neg Bool.false_ne_true, live_cons, live_nil, hnext, effectsOver_singleton, hnoticed]
      exact ⟨rfl, rfl⟩

/-- A plain request with a number. -/
def plainPending (id : Nat) : Pending := ⟨id, plainEndpoint, plainRequest⟩

/-- Three requests come, and the first of them leaves when its alarm goes off. -/
def threeRequests : List Deed :=
  [.post (.queue (plainPending 1)), .post (.queue (plainPending 2)),
    .post (.queue (plainPending 3)), .command (plainSurroundings 0),
    .command (plainSurroundings 0), .command (plainSurroundings 0), .ring 250000000,
    .signal (plainSurroundings 250000000)]

/-- The reply to it comes when the caller of the second one has stopped waiting. -/
def secondDropped : List Deed :=
  [.returned 1 (.ok { status := 200, headers := .empty, body := [], date := 0 }),
    .signal { plainSurroundings 1000000000 with gone := (· == 2) }]

/-- The third request follows the first one in both lives, for the same instant. -/
theorem cancelled_unseen_threeRequests :
    plainPending 2 ∈ ((new ⟨"p", rfl⟩).live threeRequests).manager.queue ∧
      ((new ⟨"p", rfl⟩).live (threeRequests ++ secondDropped)).manager.active =
        some (plainPending 3) ∧
      ((new ⟨"p", rfl⟩).live (threeRequests ++ secondDropped)).manager.phase =
        .activating 1250000000 ∧
      (withheld (plainPending 2) (new ⟨"p", rfl⟩) (threeRequests ++ secondDropped)).length = 8 ∧
      (new ⟨"p", rfl⟩).live
          (withheld (plainPending 2) (new ⟨"p", rfl⟩) (threeRequests ++ secondDropped)) =
        ((new ⟨"p", rfl⟩).live (threeRequests ++ secondDropped)).without (plainPending 2) ∧
      effectsOver (plainPending 2) (new ⟨"p", rfl⟩)
          (withheld (plainPending 2) (new ⟨"p", rfl⟩) (threeRequests ++ secondDropped)) =
        effectsOver (plainPending 2) (new ⟨"p", rfl⟩) (threeRequests ++ secondDropped) := by
  have hqueued : plainPending 2 ∈ ((new ⟨"p", rfl⟩).live threeRequests).manager.queue := by
    decide +kernel
  refine ⟨hqueued, by decide +kernel, by decide +kernel, by decide +kernel, ?_⟩
  refine cancelled_unseen ⟨"p", rfl⟩ threeRequests secondDropped (plainPending 2)
    (by decide +kernel) (by decide +kernel) hqueued ?_ _ (List.prefix_refl _)
  unfold secondDropped
  rintro d hd s (rfl | rfl)
  · simp at hd
  · simp only [List.mem_cons, List.not_mem_nil, or_false, reduceCtorEq, false_or,
      Deed.signal.injEq] at hd
    subst hd
    rfl

end Actor

end Throttle
