import Throttle.Proofs.Manager.Breakdown
import Throttle.Proofs.Manager.Coupling

/-!
  Two turns side by side: one of a manager, and one of the same manager without a request in its
  queue. They come to the same, with the same effects on everybody else, unless the first one takes
  that request out of the queue while its caller waits (`receive_spares`). The two are compared part
  by part (`Turn.Alike`): all parts but the last one do not look at the queue, and the last one is
  `activate`, which looks for the first request whose caller waits.
-/

namespace Throttle

open Http Turn

/-! ## Outputs that matter to others -/

/-- An output other than a line of the log, the length of the queue, the count of an abandoned
request, and the answer to one request. -/
def Output.matters (x : Nat) : Output → Bool
  | .event (.queueUpdated _ _) => false
  | .event _ => true
  | .notice _ => false
  | .count _ transition => transition != .abandoned
  | .answer id _ => id != x
  | .arm _ _ => true
  | .disarm => true
  | .transmit _ _ => true

/-- The outputs that matter to all but one request. -/
def mattering (x : Nat) (os : List Output) : List Output := os.filter (Output.matters x)

variable {x : Nat}

@[simp] theorem mattering_nil : mattering x [] = [] := rfl

@[simp] theorem mattering_append (os ps : List Output) :
    mattering x (os ++ ps) = mattering x os ++ mattering x ps := List.filter_append ..

@[simp] theorem mattering_notice (n : Notice) (os : List Output) :
    mattering x (.notice n :: os) = mattering x os := rfl

@[simp] theorem mattering_queueUpdated (p : PolicyName) (n : Nat) (os : List Output) :
    mattering x (.event (.queueUpdated p n) :: os) = mattering x os := rfl

@[simp] theorem mattering_abandoned (p : PolicyName) (os : List Output) :
    mattering x (.count p .abandoned :: os) = mattering x os := rfl

@[simp] theorem mattering_disarm (os : List Output) :
    mattering x (.disarm :: os) = .disarm :: mattering x os := rfl

/-- What does not matter leaves the alarm and the transmissions alone. -/
theorem Output.quiet_of_not_matters {o : Output} (h : o.matters x = false) : o.Quiet := by
  cases o with
  | arm generation due => cases h
  | disarm => cases h
  | transmit id request => cases h
  | _ => trivial

theorem alarmAfter_mattering (os : List Output) (y : Option Alarm) :
    alarmAfter (mattering x os) y = alarmAfter os y := by
  induction os generalizing y with
  | nil => rfl
  | cons o os ih =>
    unfold mattering
    rw [List.filter_cons]
    split
    · exact ih (Output.alarm y o)
    · rename_i hhidden
      have hquiet := Output.quiet_of_not_matters (Bool.eq_false_iff.2 hhidden)
      have hsame : alarmAfter [o] y = y :=
        AllQuiet.alarmAfter_eq (allQuiet_cons hquiet allQuiet_nil) y
      exact (ih y).trans (congrArg (alarmAfter os) hsame.symm)

theorem sends_mattering (os : List Output) : sends (mattering x os) = sends os := by
  induction os with
  | nil => rfl
  | cons o os ih =>
    unfold mattering
    rw [List.filter_cons]
    split
    · show sends ([o] ++ mattering x os) = sends ([o] ++ os)
      rw [sends_append, sends_append, ih]
    · rename_i hhidden
      have hquiet := Output.quiet_of_not_matters (Bool.eq_false_iff.2 hhidden)
      have hnone : sends [o] = [] := AllQuiet.sends_eq (allQuiet_cons hquiet allQuiet_nil)
      show sends (mattering x os) = sends ([o] ++ os)
      rw [ih, sends_append, hnone]
      rfl

/-! ## Turns that come to the same -/

/-- Two turns come to related results, or leave the calendar alike, with the same outputs as far as
they matter. -/
inductive Turn.Alike (x : Nat) (R : α → β → Prop) (t : Turn α) (u : Turn β) : Prop where
  | ok {a : α} {b : β} (ht : t.result = .ok a) (hu : u.result = .ok b) (h : R a b)
      (hos : mattering x u.outputs = mattering x t.outputs)
  | error {e : Overflow} (ht : t.result = .error e) (hu : u.result = .error e)
      (hos : mattering x u.outputs = mattering x t.outputs)

namespace Turn.Alike

variable {R : α → β → Prop} {t : Turn α} {u : Turn β}

theorem outputs (h : t.Alike x R u) : mattering x u.outputs = mattering x t.outputs := by
  cases h with
  | ok ht hu h hos => exact hos
  | error ht hu hos => exact hos

theorem pure {a : α} {b : β} (h : R a b) : (Pure.pure a : Turn α).Alike x R (Pure.pure b) :=
  .ok rfl rfl h rfl

theorem refl (t : Turn α) : t.Alike x Eq t := by
  cases h : t.result with
  | ok a => exact .ok h h rfl rfl
  | error e => exact .error h h rfl

theorem bind {Q : γ → δ → Prop} {f : α → Turn γ} {g : β → Turn δ} (h : t.Alike x R u)
    (hf : ∀ a b, R a b → (f a).Alike x Q (g b)) : (t >>= f).Alike x Q (u >>= g) := by
  cases h with
  | ok ht hu h hos =>
    rw [bind_of_ok ht, bind_of_ok hu]
    cases hf _ _ h with
    | ok ht' hu' h' hos' => exact .ok ht' hu' h' (by simp only [mattering_append, hos, hos'])
    | error ht' hu' hos' => exact .error ht' hu' (by simp only [mattering_append, hos, hos'])
  | error ht hu hos =>
    rw [bind_of_error ht, bind_of_error hu]
    exact .error rfl rfl hos

end Turn.Alike

namespace Manager

/-! ## A manager without a request -/

/-- A manager without a request in its queue. -/
@[simps]
def without (p : Pending) (m : Manager) : Manager := { m with queue := m.queue.filter (· ≠ p) }

/-- One manager is another without a request in its queue. -/
def Lacks (p : Pending) (m n : Manager) : Prop := n = m.without p

variable {s : Surroundings} {p q : Pending} {m m' : Manager}

theorem abandon_unseen (m : Manager) (q : Pending) : mattering x (m.abandon q) = [] := rfl

theorem flatMap_abandon_unseen (m : Manager) (qs : List Pending) :
    mattering x (qs.flatMap m.abandon) = [] := by
  induction qs with
  | nil => rfl
  | cons q qs ih => rw [List.flatMap_cons, mattering_append, ih]; rfl

/-- A turn that takes a request from the queue `q` while its caller waits. -/
structure Pops (p : Pending) (s : Surroundings) (q : List Pending) (t : Turn Manager) : Prop where
  waits : s.gone p.id = false
  mem : p ∈ q
  taken : ∀ m, t.result = .ok m → p ∉ m.queue

/-- A turn comes to the same without a request in the queue `q`, unless it takes it from there while
its caller waits. -/
def Spares (p : Pending) (s : Surroundings) (q : List Pending) (t u : Turn Manager) : Prop :=
  t.Alike p.id (Lacks p) u ∨ Pops p s q t

namespace Spares

variable {qs : List Pending} {R : α → β → Prop} {t : Turn α} {u : Turn β}

/-- The parts before the last one do not look at the queue. -/
theorem bind {f : α → Turn Manager} {g : β → Turn Manager} (h : t.Alike p.id R u)
    (hf : ∀ a b, R a b → Spares p s qs (f a) (g b)) : Spares p s qs (t >>= f) (u >>= g) := by
  cases h with
  | ok ht hu h hos =>
    rcases hf _ _ h with hsame | hpops
    · left
      rw [bind_of_ok ht, bind_of_ok hu]
      cases hsame with
      | ok ht' hu' h' hos' => exact .ok ht' hu' h' (by simp only [mattering_append, hos, hos'])
      | error ht' hu' hos' => exact .error ht' hu' (by simp only [mattering_append, hos, hos'])
    · right
      rw [bind_of_ok ht]
      exact ⟨hpops.waits, hpops.mem, hpops.taken⟩
  | error ht hu hos =>
    left
    rw [bind_of_error ht, bind_of_error hu]
    exact .error rfl rfl hos

theorem tell {os ps : List Output} {f g : Unit → Turn Manager}
    (hos : mattering p.id ps = mattering p.id os) (hf : Spares p s qs (f ()) (g ())) :
    Spares p s qs (Turn.tell os >>= f) (Turn.tell ps >>= g) :=
  bind (R := fun _ _ => True) (.ok rfl rfl trivial hos) fun _ _ _ => hf

theorem lift {r : Except Overflow α} {f g : α → Turn Manager}
    (hf : ∀ a, r = .ok a → Spares p s qs (f a) (g a)) :
    Spares p s qs (Turn.lift r >>= f) (Turn.lift r >>= g) := by
  cases r with
  | error e => exact .inl (.error rfl rfl rfl)
  | ok a =>
    refine bind (R := fun b c => b = a ∧ c = a) (.ok rfl rfl ⟨rfl, rfl⟩ rfl) fun b c hbc => ?_
    rw [hbc.1, hbc.2]
    exact hf a rfl

theorem pure (h : Lacks p m m') : Spares p s qs (Pure.pure m) (Pure.pure m') := .inl (.pure h)

end Spares

/-! ## Parts of a turn -/

section parts

variable (p : Pending) (m : Manager) (s : Surroundings) (reply : Reply)

theorem absorb_outputs_without :
    ((m.without p).absorb reply).outputs = (m.absorb reply).outputs := by
  have hread : ((m.without p).readHeaders reply).outputs = (m.readHeaders reply).outputs := by
    unfold readHeaders
    split
    · rfl
    · split
      · rw [bind_of_ok (adopt_result _ _), bind_of_ok (adopt_result _ _)]
        rw [adopt_outputs, adopt_outputs]
        rfl
      · rfl
  unfold absorb
  rw [bind_of_ok (readHeaders_result reply _), bind_of_ok (readHeaders_result reply _), hread]
  rfl

theorem absorb_alike :
    (m.absorb reply).Alike p.id
      (fun a b => a = (m.heard reply, verdict reply) ∧
        b = ((m.heard reply).without p, verdict reply))
      ((m.without p).absorb reply) :=
  .ok (absorb_result reply m) (absorb_result reply _) ⟨rfl, rfl⟩
    (congrArg _ (absorb_outputs_without p m reply))

theorem countViolation_alike (id : Option Nat) :
    (m.countViolation s id).Alike p.id
      (fun a b => a = m.counted ∧ b = m.counted.without p) ((m.without p).countViolation s id) :=
  .ok rfl rfl ⟨rfl, rfl⟩ rfl

theorem finish_alike (result : Except Failure Reply) :
    (m.finish result).Alike p.id
      (fun a b => a = { m with active := none } ∧ b = { m with active := none : Manager }.without p)
      ((m.without p).finish result) := by
  refine .ok (finish_result m result) (finish_result _ result) ⟨rfl, rfl⟩ ?_
  unfold finish
  rw [without_active]
  cases m.active <;> rfl

theorem schedule_alike (due : Moment) :
    (schedule s due m).Alike p.id (Lacks p) (schedule s due (m.without p)) := by
  refine .ok (schedule_result s due m) (schedule_result s due _) rfl ?_
  rw [schedule_outputs, schedule_outputs]
  rfl

theorem suspend_alike (error : PolicyError) :
    (m.suspend s error).Alike p.id (fun a b => a.queue = m.queue ∧ Lacks p a b)
      ((m.without p).suspend s error) := by
  unfold suspend
  cases Moment.after s.now s.config.invalidPolicyBackoff with
  | error e => exact .error rfl rfl rfl
  | ok resume =>
    refine .bind (.refl _) ?_
    rintro t _ rfl
    refine .bind (R := fun _ _ => True) (.ok rfl rfl trivial rfl) fun _ _ _ => ?_
    have hsame := schedule_alike p { m with phase := .suspended t } s t
    refine .ok (schedule_result s t _) (schedule_result s t _) ⟨rfl, rfl⟩ hsame.outputs

theorem plan_alike (q : Pending) : (plan s q m).Alike p.id (Lacks p) (plan s q (m.without p)) := by
  cases hsend : m.sendTime s with
  | error e =>
    have hsend' : (m.without p).sendTime s = .error e := hsend
    rw [plan_eq_of_error hsend, plan_eq_of_error hsend']
    exact .error rfl rfl rfl
  | ok t =>
    have hsend' : (m.without p).sendTime s = .ok t := hsend
    rw [plan_eq_of_ok hsend, plan_eq_of_ok hsend']
    refine .ok rfl rfl rfl ?_
    unfold planOutputs
    rw [schedule_outputs, schedule_outputs]
    rfl

end parts

/-! ## Turning to the queue -/

theorem filter_split {gone rest : List Pending} (hpq : q ≠ p) :
    (gone ++ q :: rest).filter (· ≠ p) = gone.filter (· ≠ p) ++ q :: rest.filter (· ≠ p) := by
  rw [List.filter_append, List.filter_cons_of_pos (by simpa using hpq)]

/-- A manager that finds a request whose caller waits takes it from the queue, with all before
it. -/
theorem activate_takes {gone rest : List Pending} (hactive : m.active = none)
    (hphase : m.phase = .idle) (hqueue : m.queue = gone ++ q :: rest)
    (hgone : ∀ r ∈ gone, s.gone r.id = true) (hlive : s.gone q.id = false)
    (h : (activate s m).result = .ok m') : m'.queue = rest := by
  rw [activate_of_live hactive hphase hqueue hgone hlive, tell_bind, tell_bind] at h
  cases hsend : m.sendTime s with
  | error e =>
    rw [plan_eq_of_error (m := { m with queue := rest, active := some q }) hsend] at h
    cases h
  | ok t =>
    rw [plan_eq_of_ok (m := { m with queue := rest, active := some q }) hsend] at h
    cases h
    rfl

/-- Whether a manager turns to its queue does not depend on one request there, and the request that
it takes is another one, unless that one's caller waits and it comes first. -/
theorem activate_spares (hcount : m.queue.count p ≤ 1) (s : Surroundings) :
    Spares p s m.queue (activate s m) (activate s (m.without p)) := by
  rcases m.idle_or_busy with ⟨hactive, hphase⟩ | hbusy
  · rcases queue_split s m.queue with hgone | ⟨gone, q, rest, hqueue, hgone, hlive⟩
    · have hgone' : ∀ q ∈ (m.without p).queue, s.gone q.id = true :=
        fun q hq => hgone q ((List.mem_filter.1 hq).1)
      left
      rw [activate_of_drained hactive hphase hgone,
        activate_of_drained (m := m.without p) hactive hphase hgone']
      refine .ok rfl rfl rfl ?_
      simp only [mattering_append, flatMap_abandon_unseen]
      split <;> split <;> rfl
    · by_cases hqp : q = p
      · subst hqp
        refine .inr ⟨hlive, by rw [hqueue]; simp, fun m' hm' => ?_⟩
        have hrest : q ∉ rest := by
          rw [hqueue, List.count_append, List.count_cons_self] at hcount
          rw [← List.count_eq_zero]
          omega
        rwa [activate_takes hactive hphase hqueue hgone hlive hm']
      · left
        have hqueue' : (m.without p).queue = gone.filter (· ≠ p) ++ q :: rest.filter (· ≠ p) := by
          show m.queue.filter (· ≠ p) = _
          rw [hqueue, filter_split hqp]
        have hgone' : ∀ r ∈ gone.filter (· ≠ p), s.gone r.id = true :=
          fun r hr => hgone r ((List.mem_filter.1 hr).1)
        rw [activate_of_live hactive hphase hqueue hgone hlive,
          activate_of_live (m := m.without p) hactive hphase hqueue' hgone' hlive]
        refine .bind (R := fun _ _ => True) (.ok rfl rfl trivial ?_) fun _ _ _ => ?_
        · show mattering _ (List.flatMap _ _) = mattering _ (List.flatMap _ _)
          rw [flatMap_abandon_unseen, flatMap_abandon_unseen]
        · exact .bind (R := fun _ _ => True) (.ok rfl rfl trivial rfl) fun _ _ _ =>
            plan_alike p { m with queue := rest, active := some q } s q
  · left
    have hbusy' : (m.without p).active ≠ none ∨ (m.without p).phase ≠ .idle := hbusy
    rw [activate_of_busy hbusy, activate_of_busy hbusy']
    exact .pure rfl

/-! ## Handling a message -/

theorem onSeed_spares (hcount : m.queue.count p ≤ 1) (s : Surroundings) (reply : Reply) :
    Spares p s m.queue (m.onSeed s reply) ((m.without p).onSeed s reply) := by
  unfold onSeed
  refine .bind (absorb_alike p m reply) ?_
  rintro _ _ ⟨rfl, rfl⟩
  dsimp only
  split
  · refine .tell rfl (.bind (countViolation_alike p (m.heard reply) s none) ?_)
    rintro _ _ ⟨rfl, rfl⟩
    refine .lift fun lapse _ => ?_
    exact activate_spares (m := (m.heard reply).counted.restrictUntil lapse) hcount s
  · exact activate_spares (m := m.heard reply) hcount s

/-- Another request joins the queue. -/
theorem onQueue_spares (hcount : m.queue.count p ≤ 1) (s : Surroundings) (hqp : q ≠ p) :
    Spares p s m.queue (m.onQueue s q) ((m.without p).onQueue s q) := by
  unfold onQueue
  split
  · exact .tell rfl (.pure rfl)
  · have hqueue : { m.without p with queue := (m.without p).queue ++ [q] } =
        { m with queue := m.queue ++ [q] : Manager }.without p := by
      unfold without
      rw [List.filter_append, List.filter_cons_of_pos (by simpa using hqp)]
      rfl
    refine .tell rfl ?_
    rw [hqueue]
    have hcount' : (m.queue ++ [q]).count p ≤ 1 := by
      rwa [List.count_append, List.count_singleton, if_neg (by simpa using hqp), Nat.add_zero]
    refine (activate_spares (m := { m with queue := m.queue ++ [q] }) hcount' s).imp_right ?_
    rintro ⟨hwaits, hmem, htaken⟩
    refine ⟨hwaits, (List.mem_append.1 hmem).resolve_right fun hlast => ?_, htaken⟩
    exact hqp (List.mem_singleton.1 hlast).symm

theorem skipActive_spares (hcount : m.queue.count p ≤ 1) (s : Surroundings) (q : Pending) :
    Spares p s m.queue (m.skipActive s q) ((m.without p).skipActive s q) :=
  .tell rfl (activate_spares (m := m.vacated) hcount s)

theorem send_spares (hcount : m.queue.count p ≤ 1) (s : Surroundings) :
    Spares p s m.queue (m.send s) ((m.without p).send s) := by
  cases hactive : m.active with
  | none =>
    rw [send_of_none hactive, send_of_none (m := m.without p) hactive]
    exact activate_spares (m := m.back) hcount s
  | some q =>
    cases hg : s.gone q.id with
    | true =>
      rw [send_of_gone hactive hg, send_of_gone (m := m.without p) hactive hg]
      exact skipActive_spares hcount s q
    | false =>
      cases ha : s.authorizer q.request with
      | error refusal =>
        rw [send_of_unsigned hactive hg ha, send_of_unsigned (m := m.without p) hactive hg ha]
        refine .tell rfl (.bind (finish_alike p m.back _) ?_)
        rintro _ _ ⟨rfl, rfl⟩
        exact activate_spares (m := m.vacated) hcount s
      | ok signed =>
        rw [send_of_signed hactive hg ha, send_of_signed (m := m.without p) hactive hg ha]
        exact .inl (.ok rfl rfl rfl rfl)

theorem onFire_spares (hcount : m.queue.count p ≤ 1) (s : Surroundings) (generation : Nat) :
    Spares p s m.queue (m.onFire s generation) ((m.without p).onFire s generation) := by
  unfold onFire
  rw [without_generation, without_phase]
  split
  · exact .pure rfl
  · cases m.phase with
    | activating t => exact send_spares hcount s
    | violationWait t => exact send_spares hcount s
    | suspended t => exact .tell rfl (activate_spares (m := m.back) hcount s)
    | idle => exact .pure rfl
    | sending => exact .pure rfl

theorem onViolation_spares (hcount : m.queue.count p ≤ 1) (s : Surroundings) (reply : Reply)
    (before : Status) :
    Spares p s m.queue (m.onViolation s reply before)
      ((m.without p).onViolation s reply before) := by
  rw [onViolation_eq, onViolation_eq]
  refine .tell rfl (.bind (countViolation_alike p m s _) ?_)
  rintro _ _ ⟨rfl, rfl⟩
  refine .lift fun lapse _ => ?_
  have hactive : (m.counted.restrictUntil lapse).active = m.active := rfl
  have hactive' : ((m.counted.without p).restrictUntil lapse).active = m.active := rfl
  unfold retry
  rw [hactive, hactive']
  cases m.active with
  | none => exact activate_spares (m := m.counted.restrictUntil lapse) hcount s
  | some q =>
    dsimp only
    split
    · exact skipActive_spares (m := m.counted.restrictUntil lapse) hcount s q
    · refine .lift fun sendAt _ => .tell rfl (.inl ?_)
      exact schedule_alike p ((m.counted.restrictUntil lapse).holding sendAt) s sendAt

theorem onAccepted_spares (hcount : m.queue.count p ≤ 1) (s : Surroundings) (reply : Reply)
    (absorbed : Absorbed) :
    Spares p s m.queue (m.onAccepted s reply absorbed)
      ((m.without p).onAccepted s reply absorbed) := by
  rw [onAccepted_eq, onAccepted_eq]
  refine .tell rfl ?_
  refine .bind (R := Eq) (.refl (m.outcome reply absorbed)) ?_
  rintro result _ rfl
  refine .bind (finish_alike p m result) ?_
  rintro _ _ ⟨rfl, rfl⟩
  cases absorbed with
  | malformed e =>
    refine .bind (suspend_alike p { m with active := none } s e) ?_
    rintro a _ ⟨hqueue, rfl⟩
    rw [← show a.queue = m.queue from hqueue] at hcount ⊢
    exact activate_spares hcount s
  | parsed => exact activate_spares (m := { m with active := none }) hcount s
  | missing => exact activate_spares (m := { m with active := none }) hcount s

theorem onReply_spares (hcount : m.queue.count p ≤ 1) (s : Surroundings)
    (result : Except TransportFailure Reply) :
    Spares p s m.queue (m.onReply s result) ((m.without p).onReply s result) := by
  unfold onReply
  show Spares p s m.queue _ (if m.phase ≠ .sending then _ else _)
  split
  · exact .tell rfl (.pure rfl)
  · dsimp only
    cases result with
    | error e =>
      refine .tell rfl (.bind (finish_alike p m.back _) ?_)
      rintro _ _ ⟨rfl, rfl⟩
      exact activate_spares (m := m.vacated) hcount s
    | ok reply =>
      refine .bind (absorb_alike p m.back reply) ?_
      rintro _ _ ⟨rfl, rfl⟩
      dsimp only
      split
      · exact onViolation_spares (m := m.back.heard reply) hcount s reply _
      · exact onAccepted_spares (m := m.back.heard reply) hcount s reply _

/-- A message comes to the same without a request in the queue, unless the manager takes that
request from the queue while its caller waits. -/
theorem receive_spares (hcount : m.queue.count p ≤ 1) (s : Surroundings) {msg : Message}
    (hmsg : msg ≠ .queue p) :
    Spares p s m.queue (m.receive s msg) ((m.without p).receive s msg) := by
  cases msg with
  | seed reply => exact onSeed_spares hcount s reply
  | queue q => exact onQueue_spares hcount s fun heq => hmsg (heq ▸ rfl)
  | fire generation => exact onFire_spares hcount s generation
  | reply result => exact onReply_spares hcount s result

/-- The request itself is dropped at once if its caller has stopped waiting. -/
theorem receive_queue_of_gone (hgone : s.gone p.id = true) :
    m.receive s (.queue p) = ⟨m.abandon p, .ok m⟩ := by
  show m.onQueue s p = _
  unfold onQueue
  rw [if_pos hgone, tell_bind, pure_def, List.append_nil]

/-- It waits behind the active request, or until the manager is not suspended any more. -/
theorem receive_queue_of_busy (hlive : s.gone p.id = false)
    (hbusy : m.active ≠ none ∨ m.phase ≠ .idle) :
    m.receive s (.queue p) =
      ⟨[.notice (.queued p.id p.endpoint),
          { m with queue := m.queue ++ [p] : Manager }.queueUpdated],
        .ok { m with queue := m.queue ++ [p] }⟩ := by
  show m.onQueue s p = _
  unfold onQueue
  rw [if_neg (by rw [hlive]; decide), tell_bind,
    activate_of_busy (m := { m with queue := m.queue ++ [p] }) hbusy, pure_def, List.append_nil]

/-- It does not stay in the queue of a manager that has nothing else to do. -/
theorem receive_queue_of_idle (hlive : s.gone p.id = false) (hactive : m.active = none)
    (hphase : m.phase = .idle) (hqueue : m.queue = [])
    (h : (m.receive s (.queue p)).result = .ok m') : m'.queue = [] := by
  change (m.onQueue s p).result = .ok m' at h
  unfold onQueue at h
  rw [if_neg (by rw [hlive]; decide), tell_bind] at h
  have hfirst : m.queue ++ [p] = [] ++ p :: [] := by rw [hqueue]
  exact activate_takes (m := { m with queue := m.queue ++ [p] }) hactive hphase hfirst
    (List.forall_mem_nil _) hlive h

/-! ## The end of a manager -/

theorem mattering_answers (result : Except Failure Reply) (ps : List Pending) :
    mattering p.id ((ps.filter (· ≠ p)).map fun q => .answer q.id result) =
      mattering p.id (ps.map fun q => .answer q.id result) := by
  induction ps with
  | nil => rfl
  | cons q ps ih =>
    by_cases hqp : q = p
    · subst hqp
      rw [List.filter_cons_of_neg (by simp), ih]
      simp [mattering, Output.matters]
    · rw [List.filter_cons_of_pos (by simpa using hqp), List.map_cons, List.map_cons]
      exact (mattering_append [_] _).trans ((congrArg _ ih).trans (mattering_append [_] _).symm)

/-- A manager that stops answers all requests but one as it would without that one. -/
theorem close_alike (p : Pending) (late : List Pending) (m : Manager) :
    (m.close late).Alike p.id (Lacks p) ((m.without p).close (late.filter (· ≠ p))) := by
  have houtputs (n : Manager) (late : List Pending) :
      mattering p.id (n.close late).outputs = .disarm :: mattering p.id
        ((n.unsent ++ late).map fun q => .answer q.id (.error .shutdown)) := by
    unfold close
    dsimp only
    split <;> split <;> simp [tell_bind, pure_def]
  refine .ok (close_result late m) (close_result _ _) rfl ?_
  rw [houtputs, houtputs]
  have hunsent : (m.without p).unsent = (if m.inFlight then [] else m.active.toList) ++
      m.queue.filter (· ≠ p) := rfl
  rw [hunsent]
  unfold unsent
  simp only [List.map_append, mattering_append, mattering_answers]

/-- A manager that waited for its last reply takes it in as it would without a request in its
queue. -/
theorem conclude_alike (p : Pending) (s : Surroundings) (r : Except TransportFailure Reply)
    (m : Manager) : (m.conclude s r).Alike p.id (Lacks p) ((m.without p).conclude s r) := by
  unfold conclude
  have last (k : Manager) (result : Except Failure Reply) :
      (k.finish result >>= fun k => pure { k with phase := .idle }).Alike p.id (Lacks p)
        ((k.without p).finish result >>= fun k => pure { k with phase := .idle }) := by
    refine .bind (finish_alike p k result) ?_
    rintro _ _ ⟨rfl, rfl⟩
    exact .pure rfl
  cases r with
  | error e => exact last m _
  | ok reply =>
    refine .bind (absorb_alike p m reply) ?_
    rintro _ _ ⟨rfl, rfl⟩
    dsimp only
    split
    · refine .bind (countViolation_alike p (m.heard reply) s _) ?_
      rintro _ _ ⟨rfl, rfl⟩
      exact last (m.heard reply).counted _
    · refine .bind (R := Eq) (.refl ((m.heard reply).outcome reply (verdict reply))) ?_
      rintro result _ rfl
      exact last (m.heard reply) result

end Manager

end Throttle
