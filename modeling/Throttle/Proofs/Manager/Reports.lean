import Throttle.Proofs.Manager.Stopping

/-!
  What listeners are told of the violations and of the queue. A turn that handles a message tells one
  total for each refusal that it counts, whether it leaves the calendar or not, and ends with the
  length of the queue that it told last, or with as many as before if it told none
  (`receive_reports`, `conclude_reports`). A manager that stops is the exception: it empties its
  queue and tells nobody (`tells_close`).
-/

namespace Throttle

open Http Turn

/-! ## Figures in events -/

namespace Event

/-- The total of violations that an event reports. -/
def total? : Event → Option Nat
  | .violation _ total => some total
  | _ => none

/-- The length of the queue that was last reported, after an event. -/
def queued (n : Nat) : Event → Nat
  | .queueUpdated _ k => k
  | _ => n

/-- An event that reports neither a total nor the length of a queue. -/
def Plain : Event → Prop
  | .violation _ _ => False
  | .queueUpdated _ _ => False
  | _ => True

end Event

/-- The totals of violations in some events, in order. -/
def totals (es : List Event) : List Nat := es.filterMap Event.total?

/-- The length of a queue that was last reported, after some events. -/
def queuedAfter (es : List Event) (n : Nat) : Nat := es.foldl Event.queued n

@[simp] theorem totals_append (es fs : List Event) : totals (es ++ fs) = totals es ++ totals fs :=
  List.filterMap_append

@[simp] theorem queuedAfter_append (es fs : List Event) (n : Nat) :
    queuedAfter (es ++ fs) n = queuedAfter fs (queuedAfter es n) := List.foldl_append

theorem totals_of_plain {es : List Event} (h : ∀ e ∈ es, e.Plain) : totals es = [] := by
  unfold totals
  rw [List.filterMap_eq_nil_iff]
  intro e he
  have hplain := h e he
  cases e <;> first | rfl | exact hplain.elim

theorem queuedAfter_of_plain {es : List Event} (h : ∀ e ∈ es, e.Plain) (n : Nat) :
    queuedAfter es n = n := by
  induction es with
  | nil => rfl
  | cons e es ih =>
    have he : e.queued n = n := by
      have hplain := h e (.head _)
      cases e <;> first | rfl | exact hplain.elim
    unfold queuedAfter
    rw [List.foldl_cons, he]
    exact ih fun f hf => h f (.tail _ hf)

/-- The event in an output. -/
def Output.event? : Output → Option Event
  | .event e => some e
  | _ => none

/-- What some outputs tell the listeners, in order. -/
def tells (os : List Output) : List Event := os.filterMap Output.event?

@[simp] theorem tells_append (os ps : List Output) : tells (os ++ ps) = tells os ++ tells ps :=
  List.filterMap_append

theorem tells_eq_nil {os : List Output} (h : ∀ o ∈ os, o.event? = none) : tells os = [] :=
  List.filterMap_eq_nil_iff.2 h

/-! ## Turns -/

/-- A turn of a manager that tells the totals `ts`, whether it leaves the calendar or not. If it
succeeds, it has counted them, and what it told of the queue is true. -/
structure Turn.Reports (t : Turn Manager) (m : Manager) (ts : List Nat) : Prop where
  told : totals (tells t.outputs) = ts
  counted : ∀ m', t.result = .ok m' → m'.violations = m.violations + ts.length
  queued : ∀ m', t.result = .ok m' →
    queuedAfter (tells t.outputs) m.queue.length = m'.queue.length

namespace Turn.Reports

variable {s : Surroundings} {m n m' : Manager} {t : Turn α} {u : Turn Manager} {ts : List Nat}
  {os : List Output}

theorem pure (hcounted : m'.violations = m.violations) (hqueued : m'.queue.length = m.queue.length) :
    (Pure.pure m' : Turn Manager).Reports m [] where
  told := rfl
  counted _ h := by
    cases h
    exact hcounted
  queued _ h := by
    cases h
    exact hqueued.symm

/-- The count and the length of the queue before a turn are all that matters. -/
theorem of_same (h : u.Reports n ts) (hcounted : n.violations = m.violations)
    (hqueued : n.queue.length = m.queue.length) : u.Reports m ts where
  told := h.told
  counted m' hm' := hcounted ▸ h.counted m' hm'
  queued m' hm' := hqueued ▸ h.queued m' hm'

/-- A turn that succeeds and tells nothing of the kind comes before another. -/
theorem after {a : α} {f : α → Turn Manager} (ht : t.result = .ok a)
    (hplain : ∀ e ∈ tells t.outputs, e.Plain) (h : (f a).Reports m ts) :
    (t >>= f).Reports m ts := by
  rw [bind_of_ok ht]
  constructor
  · rw [tells_append, totals_append, totals_of_plain hplain]
    exact h.told
  · exact h.counted
  · intro m' hm'
    rw [tells_append, queuedAfter_append, queuedAfter_of_plain hplain]
    exact h.queued m' hm'

theorem tell {f : Unit → Turn Manager} (hplain : ∀ e ∈ tells os, e.Plain)
    (h : (f ()).Reports m ts) : (Turn.tell os >>= f).Reports m ts := after rfl hplain h

/-- A turn that may leave the calendar here tells nothing of the kind from here on. -/
theorem lift {r : Except Overflow α} {f : α → Turn Manager}
    (h : ∀ a, r = .ok a → (f a).Reports m []) : (Turn.lift r >>= f).Reports m [] := by
  cases r with
  | ok a => exact after (t := Turn.lift (.ok a)) rfl (List.forall_mem_nil _) (h a rfl)
  | error e =>
    rw [bind_of_error (t := Turn.lift (.error e)) rfl]
    refine ⟨rfl, fun m' hm' => ?_, fun m' hm' => ?_⟩ <;> cases hm'

/-- After a turn of the manager, nothing more is counted. -/
theorem bind {f : Manager → Turn Manager} (h : u.Reports m ts)
    (hf : ∀ n, u.result = .ok n → (f n).Reports n []) : (u >>= f).Reports m ts := by
  cases hu : u.result with
  | error e =>
    rw [bind_of_error hu]
    refine ⟨h.told, fun m' hm' => ?_, fun m' hm' => ?_⟩ <;> cases hm'
  | ok n =>
    have hn := hf n hu
    rw [bind_of_ok hu]
    constructor
    · rw [tells_append, totals_append, h.told, hn.told, List.append_nil]
    · intro m' hm'
      rw [hn.counted m' hm', h.counted n hu]
      rfl
    · intro m' hm'
      rw [tells_append, queuedAfter_append, h.queued n hu]
      exact hn.queued m' hm'

/-- The length of a new queue is told. -/
theorem queue {p : PolicyName} {f : Unit → Turn Manager}
    (hqueue : tells os = [.queueUpdated p n.queue.length]) (h : (f ()).Reports n ts)
    (hcounted : n.violations = m.violations) : (Turn.tell os >>= f).Reports m ts := by
  rw [tell_bind]
  constructor
  · rw [tells_append, hqueue]
    exact h.told
  · intro m' hm'
    rw [← hcounted]
    exact h.counted m' hm'
  · intro m' hm'
    rw [tells_append, hqueue]
    exact h.queued m' hm'

/-- A refusal is counted, and its total told. -/
theorem count {id : Option Nat} {f : Manager → Turn Manager} (h : (f m.counted).Reports m.counted []) :
    (m.countViolation s id >>= f).Reports m [s.violations + 1] := by
  rw [bind_of_ok (Manager.countViolation_result s id m)]
  constructor
  · show _ :: totals (tells (f m.counted).outputs) = _
    rw [h.told]
  · exact h.counted
  · exact fun m' hm' => h.queued m' hm'

end Turn.Reports

namespace Manager

variable {s : Surroundings} {m : Manager}

/-! ## Parts of a turn -/

theorem tells_abandon (m : Manager) (p : Pending) : tells (m.abandon p) = [] := rfl

theorem tells_flatMap_abandon (m : Manager) (ps : List Pending) :
    tells (ps.flatMap m.abandon) = [] := by
  refine tells_eq_nil fun o ho => ?_
  obtain ⟨p, -, hp⟩ := List.mem_flatMap.1 ho
  exact List.filterMap_eq_nil_iff.1 (m.tells_abandon p) o hp

theorem tells_finish (m : Manager) (result : Except Failure Reply) :
    tells (m.finish result).outputs = [] := by
  unfold finish
  cases m.active with
  | none => rfl
  | some p => cases result <;> rfl

theorem tells_outcome (m : Manager) (reply : Reply) (absorbed : Absorbed) :
    tells (m.outcome reply absorbed).outputs = [] := by
  unfold outcome
  split
  · rfl
  · split <;> rfl

theorem plain_schedule (s : Surroundings) (due : Moment) (m : Manager) :
    ∀ e ∈ tells (schedule s due m).outputs, e.Plain := by
  rw [schedule_outputs]
  split
  · exact List.forall_mem_singleton.2 trivial
  · exact List.forall_mem_nil _

theorem plain_adopt (policy : Policy) (m : Manager) :
    ∀ e ∈ tells (m.adopt policy).outputs, e.Plain := by
  rw [adopt_outputs, tells_append, tells_append]
  refine List.forall_mem_append.2 ⟨?_, List.forall_mem_append.2 ⟨?_, ?_⟩⟩
  · split
    · rw [tells_eq_nil]
      · exact List.forall_mem_nil _
      · intro o ho
        obtain ⟨d, -, rfl⟩ := List.mem_map.1 ho
        rfl
    · exact List.forall_mem_nil _
  · split <;> exact List.forall_mem_nil _
  · exact List.forall_mem_singleton.2 trivial

theorem plain_absorb (reply : Reply) (m : Manager) :
    ∀ e ∈ tells (m.absorb reply).outputs, e.Plain := by
  have hread : ∀ e ∈ tells (m.readHeaders reply).outputs, e.Plain := by
    unfold readHeaders
    split
    · exact List.forall_mem_nil _
    · split
      · rename_i policy _
        rw [bind_of_ok (adopt_result policy m), tells_append]
        exact List.forall_mem_append.2 ⟨plain_adopt policy m, List.forall_mem_nil _⟩
      · exact List.forall_mem_singleton.2 trivial
  unfold absorb
  rw [bind_of_ok (readHeaders_result reply m), tells_append]
  exact List.forall_mem_append.2 ⟨hread, List.forall_mem_nil _⟩

/-! ## Handling a message -/

theorem schedule_reports (s : Surroundings) (due : Moment) (m : Manager) :
    (schedule s due m).Reports m [] where
  told := totals_of_plain (plain_schedule s due m)
  counted m' h := by
    rw [schedule_result] at h
    cases h
    rfl
  queued m' h := by
    rw [schedule_result] at h
    cases h
    exact queuedAfter_of_plain (plain_schedule s due m) _

theorem plan_reports (s : Surroundings) (p : Pending) (m : Manager) : (plan s p m).Reports m [] := by
  unfold plan
  refine .lift fun sendAt _ => .tell (List.forall_mem_nil _) ?_
  exact (schedule_reports s sendAt _).of_same rfl rfl

theorem activate_reports (s : Surroundings) (m : Manager) : (activate s m).Reports m [] := by
  rcases m.idle_or_busy with ⟨hactive, hphase⟩ | hbusy
  · have hgone (ps : List Pending) : ∀ e ∈ tells (ps.flatMap m.abandon), e.Plain := by
      rw [tells_flatMap_abandon]
      exact List.forall_mem_nil _
    rcases queue_split s m.queue with hall | ⟨gone, p, rest, hqueue, hgone', hlive⟩
    · rw [activate_of_drained hactive hphase hall]
      constructor
      · rw [tells_append, tells_flatMap_abandon]
        split <;> rfl
      · intro m' hm'
        cases hm'
        rfl
      · intro m' hm'
        cases hm'
        rw [tells_append, tells_flatMap_abandon]
        cases m.queue <;> rfl
    · rw [activate_of_live hactive hphase hqueue hgone' hlive]
      exact .tell (hgone gone) (.queue rfl (plan_reports s p _) rfl)
  · rw [activate_of_busy hbusy]
    exact .pure rfl rfl

theorem skipActive_reports (s : Surroundings) (p : Pending) (m : Manager) :
    (m.skipActive s p).Reports m [] := by
  unfold skipActive
  exact .tell (List.forall_mem_nil _) ((activate_reports s _).of_same rfl rfl)

/-- A reply that was refused is counted, and its total told. -/
def told (s : Surroundings) (refused : Bool) : List Nat := if refused then [s.violations + 1] else []

theorem onSeed_reports (s : Surroundings) (reply : Reply) (m : Manager) :
    (m.onSeed s reply).Reports m (told s reply.isViolation) := by
  unfold onSeed
  refine .after (absorb_result reply m) (plain_absorb reply m) ?_
  dsimp only
  cases reply.isViolation with
  | false => exact (activate_reports s _).of_same rfl rfl
  | true =>
    refine .tell (List.forall_mem_nil _) ?_
    refine Turn.Reports.of_same (n := m.heard reply) (.count ?_) rfl rfl
    exact .lift fun lapse _ => (activate_reports s _).of_same rfl rfl

theorem onQueue_reports (s : Surroundings) (p : Pending) (m : Manager) :
    (m.onQueue s p).Reports m [] := by
  unfold onQueue
  split
  · exact .tell (List.forall_mem_nil _) (.pure rfl rfl)
  · exact .queue rfl (activate_reports s { m with queue := m.queue ++ [p] }) rfl

theorem send_reports (s : Surroundings) (m : Manager) : (m.send s).Reports m [] := by
  unfold send
  split
  · exact (activate_reports s _).of_same rfl rfl
  · rename_i p hactive
    split
    · exact skipActive_reports s p m
    · split
      · rename_i refusal hrefused
        refine .tell (List.forall_mem_nil _) (.after (finish_result _ _) ?_ ?_)
        · rw [tells_finish]
          exact List.forall_mem_nil _
        · exact (activate_reports s _).of_same rfl rfl
      · exact .tell (List.forall_mem_nil _) (.pure rfl rfl)

theorem onFire_reports (s : Surroundings) (generation : Nat) (m : Manager) :
    (m.onFire s generation).Reports m [] := by
  unfold onFire
  split
  · exact .pure rfl rfl
  · split
    · exact send_reports s m
    · exact send_reports s m
    · exact .tell (List.forall_mem_nil _) ((activate_reports s _).of_same rfl rfl)
    · exact .pure rfl rfl
    · exact .pure rfl rfl

theorem retry_reports (s : Surroundings) (wait : Delay) (lapse : Moment) (m : Manager) :
    (m.retry s wait lapse).Reports m [] := by
  unfold retry
  split
  · exact activate_reports s m
  · rename_i p hactive
    split
    · exact skipActive_reports s p m
    · refine .lift fun sendAt _ => .tell (List.forall_mem_nil _) ?_
      exact (schedule_reports s sendAt _).of_same rfl rfl

theorem onViolation_reports (s : Surroundings) (reply : Reply) (before : Status) (m : Manager) :
    (m.onViolation s reply before).Reports m [s.violations + 1] := by
  rw [onViolation_eq]
  refine .tell ?_ (.count (.lift fun lapse _ => (retry_reports s _ lapse _).of_same rfl rfl))
  split <;> exact List.forall_mem_nil _

theorem suspend_reports (s : Surroundings) (error : PolicyError) (m : Manager) :
    (m.suspend s error).Reports m [] := by
  unfold suspend
  refine .lift fun resume _ => .tell (List.forall_mem_singleton.2 trivial) ?_
  exact (schedule_reports s resume _).of_same rfl rfl

theorem onAccepted_reports (s : Surroundings) (reply : Reply) (m : Manager) :
    (m.onAccepted s reply (verdict reply)).Reports m [] := by
  rw [onAccepted_eq]
  refine .tell ?_ (.after (outcome_result m reply) ?_ (.after (finish_result m _) ?_ ?_))
  · split <;> exact List.forall_mem_nil _
  · rw [tells_outcome]
    exact List.forall_mem_nil _
  · rw [tells_finish]
    exact List.forall_mem_nil _
  · split
    · rename_i error _
      exact ((suspend_reports s error _).bind fun n _ => activate_reports s n).of_same rfl rfl
    · exact (activate_reports s _).of_same rfl rfl

theorem onReply_reports (s : Surroundings) (result : Except TransportFailure Reply) (m : Manager) :
    (m.onReply s result).Reports m (told s (m.phase = .sending && Actor.refused result)) := by
  unfold onReply
  split
  · rename_i hphase
    rw [decide_eq_false hphase]
    exact .tell (List.forall_mem_nil _) (.pure rfl rfl)
  · rename_i hphase
    rw [decide_eq_true (not_not.1 hphase)]
    dsimp only
    split
    · refine .tell (List.forall_mem_nil _) (.after (finish_result _ _) ?_ ?_)
      · rw [tells_finish]
        exact List.forall_mem_nil _
      · exact (activate_reports s _).of_same rfl rfl
    · rename_i reply
      refine .after (absorb_result reply m.back) (plain_absorb reply m.back) ?_
      dsimp only [Actor.refused, Bool.true_and]
      cases reply.isViolation with
      | true => exact (onViolation_reports s reply _ _).of_same rfl rfl
      | false => exact (onAccepted_reports s reply _).of_same rfl rfl

/-- The refusal in a message that a manager takes in. -/
def Message.refuses (m : Manager) : Message → Bool
  | .seed r => r.isViolation
  | .queue _ => false
  | .fire _ => false
  | .reply result => m.phase = .sending && Actor.refused result

/-- Handling a message counts a refusal and tells its total, and tells the length of the queue where
it changes. -/
theorem receive_reports (s : Surroundings) (m : Manager) (msg : Message) :
    (m.receive s msg).Reports m (told s (msg.refuses m)) := by
  cases msg with
  | seed reply => exact onSeed_reports s reply m
  | queue p => exact onQueue_reports s p m
  | fire generation => exact onFire_reports s generation m
  | reply result => exact onReply_reports s result m

theorem conclude_reports (s : Surroundings) (result : Except TransportFailure Reply) (m : Manager) :
    (m.conclude s result).Reports m (told s (Actor.refused result)) := by
  -- the request that was waited for gets its result
  have last (k : Manager) (r : Except Failure Reply) :
      (k.finish r >>= fun k => pure { k with phase := .idle }).Reports k [] := by
    refine .after (finish_result k r) ?_ (.pure rfl rfl)
    rw [tells_finish]
    exact List.forall_mem_nil _
  unfold conclude
  cases result with
  | error e => exact last m _
  | ok reply =>
    refine .after (absorb_result reply m) (plain_absorb reply m) ?_
    dsimp only [Actor.refused]
    cases reply.isViolation with
    | true => exact Turn.Reports.of_same (n := m.heard reply) (.count (last _ _)) rfl rfl
    | false =>
      refine .after (outcome_result _ reply) ?_ ((last _ _).of_same rfl rfl)
      rw [tells_outcome]
      exact List.forall_mem_nil _

/-- A manager that stops tells the listeners nothing. -/
theorem tells_close (late : List Pending) (m : Manager) : tells (m.close late).outputs = [] := by
  have hanswers : tells ((m.unsent ++ late).map fun p => .answer p.id (.error .shutdown)) = [] := by
    refine tells_eq_nil fun o ho => ?_
    obtain ⟨p, -, rfl⟩ := List.mem_map.1 ho
    rfl
  rw [close_outputs_eq]
  show tells (_ ++ (_ ++ _)) = []
  rw [tells_append, tells_append, hanswers]
  split <;> split <;> rfl

theorem concluded_queue (m : Manager) (result : Except TransportFailure Reply) :
    (m.concluded result).queue = m.queue := by
  cases result with
  | error e => rfl
  | ok reply =>
    simp only [concluded]
    split <;> rfl

/-- A manager that ends the request it waited for tells nothing of its queue. -/
theorem queuedAfter_conclude (s : Surroundings) (result : Except TransportFailure Reply) (m : Manager)
    (n : Nat) : queuedAfter (tells (m.conclude s result).outputs) n = n := by
  have last (k : Manager) (r : Except Failure Reply) :
      tells (k.finish r >>= fun k => pure { k with phase := .idle }).outputs = [] := by
    rw [bind_of_ok (finish_result k r), tells_append, tells_finish]
    rfl
  unfold conclude
  cases result with
  | error e =>
    show queuedAfter (tells (m.finish _ >>= _).outputs) n = n
    rw [last]
    rfl
  | ok reply =>
    dsimp only
    rw [bind_of_ok (absorb_result reply m), tells_append, queuedAfter_append,
      queuedAfter_of_plain (plain_absorb reply m)]
    dsimp only
    split
    · rw [bind_of_ok (countViolation_result s _ _), tells_append, queuedAfter_append, last]
      rfl
    · rw [bind_of_ok (outcome_result _ reply), tells_append, queuedAfter_append, tells_outcome, last]
      rfl

end Manager

end Throttle
