import Throttle.Proofs.Limiter.Failing

/-!
  How often the probes of an endpoint are tried again. Each failure uses up a submission:
  `allowance` bounds the failures that are still to come, no move raises it but a submission
  (`allowance_step`), and a failure lowers it (`allowance_failed`). Once submissions stop, every
  move of a probe brings the search closer to its end: `remaining` goes down (`remaining_step`), and
  so the search ends if every probe does (`Calm.reaches_end`).
-/

namespace Throttle

open Http Actor

namespace Probe

/-- How many moves it is from its end. -/
def rank : Probe → Nat
  | starting _ => 2
  | awaiting _ => 1
  | ended _ => 0

@[simp] theorem rank_starting (request : Request) : (starting request).rank = 2 := rfl

@[simp] theorem rank_ended (outcome : Except Failure Nat) : (ended outcome).rank = 0 := rfl

theorem rank_pos {p : Probe} (h : p.isOver = false) : 0 < p.rank := by
  cases p with
  | starting request => exact Nat.zero_lt_succ 1
  | awaiting signed => exact Nat.zero_lt_one
  | ended outcome => cases h

end Probe

namespace Limiter

variable {w v : Limiter} {m : Move} {e f : Endpoint} {failure : Failure}

/-! ## What a move makes of a search -/

theorem submits?_eq_some (h : w.submits? m = some e) : ∃ r, m = .submit e r := by
  cases m with
  | submit f r =>
    simp only [submits?] at h
    split at h
    · cases h
    · exact ⟨r, congrArg (Move.submit · r) (Option.some.inj h)⟩
  | _ => cases h

/-- Only a submission joins those who wait. -/
theorem length_waitingFor_step (hclosed : w.closed = true → w.Shut) (m : Move) (e : Endpoint) :
    ((w.step m).1.waitingFor e).length ≤
      (w.waitingFor e).length + if w.submits? m = some e then 1 else 0 := by
  cases step_reroutes hclosed m e with
  | same hroute =>
    rw [waitingFor_of_same hroute]
    exact Nat.le_add_right _ _
  | shut hshut =>
    rw [waitingFor_of_none (hshut.route? e)]
    exact Nat.zero_le _
  | began hm hnone hroute =>
    have hsubmits := submits?_of_change hm (by rw [hroute, hnone]; nofun)
    rw [waitingFor_of_discovering hroute, waitingFor_of_none hnone, if_pos hsubmits]
    exact Nat.le_refl 1
  | joined hm hbefore hroute =>
    have hsubmits := submits?_of_change hm (by rw [hroute, hbefore]; simp)
    rw [waitingFor_of_discovering hroute, waitingFor_of_discovering hbefore, if_pos hsubmits,
      List.length_append]
    exact Nat.le_refl _
  | found hm hbefore hended hroute =>
    rw [waitingFor_of_ready hroute]
    exact Nat.zero_le _
  | failed hm hbefore hhanded hended hrest hroute =>
    refine Nat.le_trans ?_ (Nat.le_add_right _ _)
    rw [waitingFor_of_discovering hbefore]
    rcases hroute with hroute | hroute
    · rw [waitingFor_of_discovering hroute]
      exact hrest.length_le
    · rw [waitingFor_of_none hroute]
      exact Nat.zero_le _

/-- What a move makes of the search for an endpoint. -/
inductive Headway (w : Limiter) (m : Move) (e : Endpoint) (v : Limiter) : Prop where
  /-- It takes no probe further. -/
  | idle (hidle : ∀ d, w.discovery? e = some d → m.advances e d.probe = false)
      (hd : v.discovery? e = w.discovery? e)
  | began (hsubmits : w.submits? m = some e) (hbefore : w.discovery? e = none)
      (hnone : w.waitingFor e = []) (request : Request)
      (hd : v.discovery? e = some ⟨e, .starting request⟩)
  /-- The probe is sent, or comes to an end. -/
  | advanced {d : Discovery} {p : Probe} (hbefore : w.discovery? e = some d)
      (hd : v.discovery? e = some ⟨e, p⟩) (hrank : p.rank < d.probe.rank)
  | left {d : Discovery} (hbefore : w.discovery? e = some d) (hover : d.probe.rank = 0)
      (hd : v.discovery? e = none)
  /-- A submission leaves, and the next one gives another probe. -/
  | retried {d : Discovery} (hbefore : w.discovery? e = some d) (hover : d.probe.rank = 0)
      {request : Request} (hd : v.discovery? e = some ⟨e, .starting request⟩)
      (hsome : 0 < (v.waitingFor e).length)
      (hfewer : (v.waitingFor e).length < (w.waitingFor e).length)

theorem discovery?_leave (w : Limiter) (e : Endpoint) : (w.leave e).discovery? e = none := by
  rw [discovery?_eq, searches_of_discoveries (discoveries_leave w e), searches_endDiscovery,
    if_pos rfl]
  rfl

/-- Passing on what a probe came to ends the search, or one submission fewer waits for the next
probe. -/
theorem settle_headway {g : Endpoint} {outcome : Except Failure Nat}
    (hd : w.discovery? e = some ⟨g, .ended outcome⟩) : Headway w (.settle e) e (w.settle e).1 := by
  have hleft {u : Limiter} : Headway w (.settle e) e (u.leave e) :=
    .left hd rfl (discovery?_leave u e)
  unfold settle
  simp only [hd]
  split
  · exact hleft
  · exact hleft
  · rename_i waiting hroute
    split
    · exact hleft
    · cases outcome with
      | ok k => exact hleft
      | error failure =>
        have hanswered : (w.answerAll (.error failure) (waiting.take 1)).1.discoveries =
            w.discoveries := discoveries_of_core (core_answerAll w _ _)
        dsimp only [settleFailed]
        split
        · exact hleft
        · rename_i q rest hrest
          have hfewer : (q :: rest).length ≤ waiting.length - 1 := by
            rw [← hrest, ← List.length_drop]
            exact List.length_filter_le _ _
          have hafter : (setDiscovery (setRoute _ e (.discovering (q :: rest))) e
              (.starting q.request.probe)).waitingFor e = q :: rest :=
            waitingFor_of_discovering ((route?_setRoute
              (w.answerAll (.error failure) (waiting.take 1)).1 e e _).trans (if_pos rfl))
          refine .retried hd rfl
            (discovery?_setDiscovery hd _ (congrArg (List.map _) hanswered)) ?_ ?_
          · rw [hafter]
            exact Nat.zero_lt_succ _
          · rw [hafter, waitingFor_of_discovering hroute]
            rw [List.length_cons] at hfewer ⊢
            omega

theorem startProbe_headway {g : Endpoint} {request : Request}
    (hd : w.discovery? e = some ⟨g, .starting request⟩) :
    Headway w (.startProbe e) e (w.startProbe e).1 := by
  unfold startProbe
  simp only [hd]
  split
  · exact .advanced hd (discovery?_setDiscovery hd _ rfl) (Nat.zero_lt_succ 1)
  · exact .advanced hd (discovery?_setDiscovery hd _ rfl) (Nat.lt_succ_self 1)

theorem endProbe_headway {g : Endpoint} {signed : Request}
    (hd : w.discovery? e = some ⟨g, .awaiting signed⟩) (result : Except TransportFailure Reply) :
    Headway w (.endProbe e result) e (w.endProbe e result).1 := by
  rcases endProbe_discoveries w e result with ⟨-, hnone⟩ | ⟨-, outcome, hset⟩
  · simp [probeMark?, hd] at hnone
  · exact .advanced hd (discovery?_setDiscovery hd _ hset) Nat.zero_lt_one

/-- Every move leaves a search alone, begins one, brings its probe closer to its end, or ends it. -/
theorem headway_step (w : Limiter) (m : Move) (e : Endpoint) : Headway w m e (w.step m).1 := by
  rcases advances_or_idle w m e with ⟨⟨g, probe⟩, hd, hadvances⟩ | hidle
  · rcases Move.advances_cases hadvances with ⟨request, rfl, rfl⟩ | ⟨signed, result, rfl, rfl⟩ |
      ⟨outcome, rfl, rfl⟩
    · exact startProbe_headway hd
    · exact endProbe_headway hd result
    · exact settle_headway hd
  · rcases discovery?_idle hidle with hsame | ⟨hsubmits, hnone, hbefore, request, hd⟩
    · exact .idle hidle hsame
    · exact .began hsubmits hbefore (waitingFor_of_none hnone) request hd

/-! ## How often probes fail -/

/-- How many more probes of an endpoint can fail without another submission. -/
def allowance (w : Limiter) (e : Endpoint) : Nat :=
  (w.discovery? e).elim 0 (min 1 ·.probe.rank) + ((w.waitingFor e).length - 1)

/-- The failures of the probes of an endpoint in a run, in order. -/
def probeFailures (w : Limiter) (e : Endpoint) : List Move → List Failure
  | [] => []
  | m :: ms => (w.failure? e m).toList ++ (w.step m).1.probeFailures e ms

theorem probeFailures_snoc (w : Limiter) (e : Endpoint) (ms : List Move) (m : Move) :
    w.probeFailures e (ms ++ [m]) = w.probeFailures e ms ++ ((w.after ms).failure? e m).toList := by
  induction ms generalizing w with
  | nil => exact List.append_nil _
  | cons n ms ih => rw [List.cons_append, probeFailures, ih, probeFailures, List.append_assoc]; rfl

/-- A failure uses up a submission. -/
theorem allowance_failed (h : Fails w e m failure) :
    (w.step m).1.allowance e + 1 ≤ w.allowance e := by
  obtain ⟨d, hd, -, hlive⟩ := h.advances
  have hstep := (failing_step h).1
  have hafter := discovery?_setDiscovery hd _ (congrArg discoveries hstep)
  have hwaiting : (w.step m).1.waitingFor e = w.waitingFor e :=
    waitingFor_of_same (by rw [hstep]; rfl)
  have hrank := Probe.rank_pos hlive
  unfold allowance
  rw [hafter, hd, hwaiting]
  simp only [Option.elim_some, Probe.rank_ended]
  omega

/-- Only a submission allows another failure. -/
theorem allowance_step (hclosed : w.closed = true → w.Shut) (m : Move) (e : Endpoint) :
    (w.step m).1.allowance e ≤ w.allowance e + if w.submits? m = some e then 1 else 0 := by
  have hlength := length_waitingFor_step hclosed m e
  unfold allowance
  cases headway_step w m e with
  | idle hidle hd =>
    rw [hd]
    omega
  | began hsubmits hbefore hnone request hd =>
    rw [hnone, if_pos hsubmits, List.length_nil] at hlength
    rw [hd, hbefore, if_pos hsubmits]
    simp only [Option.elim_some, Option.elim_none, Probe.rank_starting]
    omega
  | advanced hbefore hd hrank =>
    rw [hd, hbefore, Option.elim_some, Option.elim_some]
    omega
  | left hbefore hover hd =>
    rw [hd, hbefore, Option.elim_some, Option.elim_none]
    omega
  | retried hbefore hover hd hsome hfewer =>
    rw [hd, hbefore, Option.elim_some, Option.elim_some]
    simp only [Probe.rank_starting]
    omega

/-- In every run, the probes of an endpoint fail at most as often as it gets submissions. -/
theorem probeFailures_run (config : Config) (authorizer : Authorizer) (now : Moment)
    (e : Endpoint) (ms : List Move) :
    ((new config authorizer now).probeFailures e ms).length +
        ((new config authorizer now).after ms).allowance e ≤
      (submittedTo e ((new config authorizer now).log ms)).length := by
  induction ms using List.reverseRecOn with
  | nil => exact Nat.le_refl 0
  | append_singleton ms m ih =>
    have hclosed := (lined_run (w := new config authorizer now) rfl rfl ms).closed
    rw [probeFailures_snoc, log_snoc, submittedTo_append, submittedTo_entry, after_append,
      List.length_append, List.length_append, apply_ite List.length]
    generalize (new config authorizer now).after ms = w at ih hclosed ⊢
    show _ + (w.step m).1.allowance e ≤ _
    have hstep := allowance_step hclosed m e
    cases hfailure : w.failure? e m with
    | none =>
      rw [Option.toList_none]
      simp only [List.length_nil, List.length_singleton]
      omega
    | some failure =>
      have hfailed := allowance_failed (failure?_eq_some_iff.1 hfailure)
      rw [Option.toList_some]
      simp only [List.length_nil, List.length_singleton]
      omega

/-! ## How a search ends -/

/-- How far a search is from its end, if nothing more is submitted: three moves for each submission
that waits. -/
def remaining (w : Limiter) (e : Endpoint) : Nat :=
  (w.discovery? e).elim 0 fun d => 3 * (w.waitingFor e).length + d.probe.rank + 1

/-- Without a submission, a search stays as it is or comes closer to its end. -/
theorem remaining_step (hclosed : w.closed = true → w.Shut) (hm : w.submits? m ≠ some e) :
    ((∀ d, w.discovery? e = some d → m.advances e d.probe = false) ∧
        (w.step m).1.discovery? e = w.discovery? e ∧
        (w.step m).1.remaining e ≤ w.remaining e) ∨
      (w.step m).1.remaining e < w.remaining e := by
  have hlength := length_waitingFor_step hclosed m e
  rw [if_neg hm] at hlength
  unfold remaining
  cases headway_step w m e with
  | idle hidle hd =>
    refine .inl ⟨hidle, hd, ?_⟩
    rw [hd]
    cases w.discovery? e with
    | none => exact Nat.le_refl 0
    | some d =>
      rw [Option.elim_some, Option.elim_some]
      omega
  | began hsubmits => exact absurd hsubmits hm
  | advanced hbefore hd hrank =>
    right
    rw [hd, hbefore]
    simp only [Option.elim_some]
    omega
  | left hbefore hover hd =>
    right
    rw [hd, hbefore, Option.elim_some, Option.elim_none]
    omega
  | retried hbefore hover hd hsome hfewer =>
    right
    rw [hd, hbefore, Option.elim_some, Option.elim_some]
    simp only [Probe.rank_starting]
    omega

/-- A limiter after the first moves of an endless course. -/
def course (w : Limiter) (σ : Nat → Move) (n : Nat) : Limiter := w.after ((List.range n).map σ)

theorem course_succ (w : Limiter) (σ : Nat → Move) (n : Nat) :
    w.course σ (n + 1) = ((w.course σ n).step (σ n)).1 := by
  unfold course
  rw [List.range_succ, List.map_append, after_append]
  rfl

/-- Every probe of an endpoint is sent, comes to an end, and has its end passed on, sooner or
later. -/
def ProbesEnd (w : Limiter) (e : Endpoint) (σ : Nat → Move) : Prop :=
  ∀ n d, (w.course σ n).discovery? e = some d → ∃ k, n ≤ k ∧ (σ k).advances e d.probe = true

section

variable {σ : Nat → Move} {N : Nat}

/-- A course in which nothing more is submitted to an endpoint from a point on. -/
structure Calm (w : Limiter) (e : Endpoint) (σ : Nat → Move) (N : Nat) : Prop where
  closed : ∀ n, (w.course σ n).closed = true → (w.course σ n).Shut
  unsubmitted : ∀ n, N ≤ n → (w.course σ n).submits? (σ n) ≠ some e

theorem Calm.step (h : Calm w e σ N) {n : Nat} (hn : N ≤ n) :
    ((∀ d, (w.course σ n).discovery? e = some d → (σ n).advances e d.probe = false) ∧
        (w.course σ (n + 1)).discovery? e = (w.course σ n).discovery? e ∧
        (w.course σ (n + 1)).remaining e ≤ (w.course σ n).remaining e) ∨
      (w.course σ (n + 1)).remaining e < (w.course σ n).remaining e := by
  rw [course_succ]
  exact remaining_step (h.closed n) (h.unsubmitted n hn)

/-- A search is as it was, or has come closer to its end. -/
theorem Calm.later (h : Calm w e σ N) {n : Nat} (hn : N ≤ n) (i : Nat) :
    ((w.course σ (n + i)).discovery? e = (w.course σ n).discovery? e ∧
        (w.course σ (n + i)).remaining e ≤ (w.course σ n).remaining e) ∨
      (w.course σ (n + i)).remaining e < (w.course σ n).remaining e := by
  induction i with
  | zero => exact .inl ⟨rfl, Nat.le_refl _⟩
  | succ i ih =>
    have hstep := h.step (n := n + i) (by omega)
    rw [Nat.add_assoc] at hstep
    rcases hstep with ⟨-, hsame, hle⟩ | hlt
    · rcases ih with ⟨hbefore, hle'⟩ | hlt'
      · exact .inl ⟨hsame.trans hbefore, hle.trans hle'⟩
      · exact .inr (hle.trans_lt hlt')
    · rcases ih with ⟨-, hle'⟩ | hlt'
      · exact .inr (hlt.trans_le hle')
      · exact .inr (hlt.trans hlt')

/-- A search that goes on comes closer to its end. -/
theorem Calm.closer (h : Calm w e σ N) (hends : w.ProbesEnd e σ) {n : Nat} (hn : N ≤ n)
    {d : Discovery} (hd : (w.course σ n).discovery? e = some d) :
    ∃ k, n ≤ k ∧ (w.course σ k).remaining e < (w.course σ n).remaining e := by
  obtain ⟨k, hk, hadvances⟩ := hends n d hd
  obtain ⟨i, rfl⟩ := Nat.exists_eq_add_of_le hk
  rcases h.later hn i with ⟨hsame, hle⟩ | hlt
  · rcases h.step (n := n + i) (by omega) with ⟨hidle, -⟩ | hlt
    · rw [hidle d (hsame.trans hd)] at hadvances
      cases hadvances
    · exact ⟨n + i + 1, by omega, hlt.trans_le hle⟩
  · exact ⟨n + i, hk, hlt⟩

theorem Calm.reaches_end (h : Calm w e σ N) (hends : w.ProbesEnd e σ) {n : Nat} (hn : N ≤ n) :
    ∃ k, n ≤ k ∧ (w.course σ k).discovery? e = none := by
  induction hr : (w.course σ n).remaining e using Nat.strongRecOn generalizing n with
  | _ r ih =>
    subst hr
    cases hd : (w.course σ n).discovery? e with
    | none => exact ⟨n, Nat.le_refl n, hd⟩
    | some d =>
      obtain ⟨k, hk, hlt⟩ := h.closer hends hn hd
      obtain ⟨j, hj, hnone⟩ := ih _ hlt (hn.trans hk) rfl
      exact ⟨j, hk.trans hj, hnone⟩

/-- A search that has ended does not begin again. -/
theorem Calm.stays_ended (h : Calm w e σ N) {n : Nat} (hn : N ≤ n)
    (hnone : (w.course σ n).discovery? e = none) (i : Nat) :
    (w.course σ (n + i)).discovery? e = none := by
  rcases h.later hn i with ⟨hsame, -⟩ | hlt
  · exact hsame.trans hnone
  · have hzero : (w.course σ n).remaining e = 0 := by
      unfold remaining
      rw [hnone]
      rfl
    rw [hzero] at hlt
    exact absurd hlt (Nat.not_lt_zero _)

/-- A course is calm where none of its moves submits to the endpoint. -/
theorem calm_new (config : Config) (authorizer : Authorizer) (now : Moment)
    (hσ : ∀ n, N ≤ n → ∀ r, σ n ≠ .submit e r) : Calm (new config authorizer now) e σ N where
  closed n := (lined_run (w := new config authorizer now) rfl rfl ((List.range n).map σ)).closed
  unsubmitted n hn hsubmits := by
    obtain ⟨r, hm⟩ := submits?_eq_some hsubmits
    exact hσ n hn r hm

end

/-! ## What failures cost -/

/-- What the failed probes of an endpoint cost, in every run of a limiter. -/
structure OneEach (w : Limiter) (e : Endpoint) : Prop where
  /-- A probe that fails does nothing but end. -/
  ends : ∀ ms m failure, Fails (w.after ms) e m failure →
    w.after (ms ++ [m]) = (w.after ms).setDiscovery e (.ended (.error failure)) ∧
      delivered ((w.after ms).step m).2 = [] ∧ senders ((w.after ms).step m).2 = []
  /-- No probe is over with a failure in another way. -/
  causes : ∀ ms d failure, (w.after ms).discovery? e = some d → d.probe = .ended (.error failure) →
    ∃ front m back, ms = front ++ m :: back ∧ Fails (w.after front) e m failure ∧
      .settle e ∉ back
  /-- As long as the limiter takes submissions, its failure costs the oldest of those who wait,
  however many join or stop waiting before it is passed on. -/
  costs : ∀ ms m failure ns, Fails (w.after ms) e m failure → .settle e ∉ ns →
    (w.after (ms ++ m :: ns)).closed = false →
      ∃ p others joined, (w.after ms).route? e = some (.discovering (p :: others)) ∧
        (w.after (ms ++ m :: ns)).route? e = some (.discovering (p :: (others ++ joined))) ∧
        Cost (w.after (ms ++ m :: ns)) e failure p (others ++ joined)
          ((w.after (ms ++ m :: ns)).step (.settle e)).1
          ((w.after (ms ++ m :: ns)).step (.settle e)).2
  /-- There are no more failed probes than submissions. -/
  bounded : ∀ ms, (w.probeFailures e ms).length ≤ (submittedTo e (w.log ms)).length
  /-- Once submissions stop, the search ends for good if every probe comes to an end. -/
  stops : ∀ σ N, (∀ n, N ≤ n → ∀ r, σ n ≠ .submit e r) → w.ProbesEnd e σ →
    ∃ M, ∀ n, M ≤ n → (w.course σ n).discovery? e = none

/-- A failed probe costs one submission, in every state of a limiter and in whichever way it
fails. -/
theorem failures_cost_one (config : Config) (authorizer : Authorizer) (now : Moment)
    (e : Endpoint) : OneEach (new config authorizer now) e := by
  have hsnoc (ms : List Move) (m : Move) : (new config authorizer now).after (ms ++ [m]) =
      (((new config authorizer now).after ms).step m).1 := after_append _ ms [m]
  constructor
  · intro ms m failure hfails
    rw [hsnoc]
    exact failing_step hfails
  · exact fun ms _ _ => failed_run rfl ms
  · intro ms m failure ns hfails hns hopen
    obtain ⟨s, hknown⟩ := known_run config authorizer now ms (open_front hopen) e
    obtain ⟨d, hd, -⟩ := hfails.advances
    obtain ⟨p, others, rfl⟩ := hknown.stands.of_discovery? hd
    have hended : ((new config authorizer now).after (ms ++ [m])).Stands e
        (.sought p others (.ended (.error failure))) := by
      rw [hsnoc, (failing_step hfails).1]
      exact hknown.stands.setDiscovery _
    have hafter : (new config authorizer now).after (ms ++ m :: ns) =
        ((new config authorizer now).after (ms ++ [m])).after ns := by
      rw [← after_append, List.append_assoc]
      rfl
    rw [hafter] at hopen ⊢
    obtain ⟨joined, hpending⟩ := pending_run hended hns hopen
    exact ⟨p, others, joined, hknown.stands.route, hpending.route, settle_cost hpending hopen⟩
  · intro ms
    exact (Nat.le_add_right _ _).trans (probeFailures_run config authorizer now e ms)
  · intro σ N hσ hends
    have hcalm := calm_new config authorizer now hσ
    obtain ⟨M, hM, hnone⟩ := hcalm.reaches_end hends (Nat.le_refl N)
    refine ⟨M, fun n hn => ?_⟩
    obtain ⟨i, rfl⟩ := Nat.exists_eq_add_of_le hn
    exact hcalm.stays_ended hM hnone i

/-- Three requests wait for a probe that is under way, and the caller of the second one gives up. -/
def waitersRun : List Move :=
  [.submit plainEndpoint plainRequest, .submit plainEndpoint plainRequest,
    .submit plainEndpoint plainRequest, .startProbe plainEndpoint, .cancel 2]

/-- The probe is answered with an error. -/
def rejection : Move := .endProbe plainEndpoint (.ok { sharedReply 1 with status := 503 })

/-- Another request comes before the failure is passed on. The next probe finds a policy. -/
def waitersCourse (n : Nat) : Move :=
  (waitersRun ++ [rejection, .submit plainEndpoint plainRequest, .settle plainEndpoint,
    .startProbe plainEndpoint, .endProbe plainEndpoint (.ok (sharedReply 1)),
    .settle plainEndpoint]).getD n (.elapse 0)

theorem waitersCourse_calm (n : Nat) (hn : 7 ≤ n) (r : Request) :
    waitersCourse n ≠ .submit plainEndpoint r := by
  obtain ⟨i, rfl⟩ := Nat.exists_eq_add_of_le' hn
  intro hsubmit
  rcases i with _ | _ | _ | _ | i <;> cases hsubmit

theorem waitersCourse_ends : (new .default .none 0).ProbesEnd plainEndpoint waitersCourse := by
  have hfirst : ∀ n < 11, (((new .default .none 0).course waitersCourse n).discovery?
      plainEndpoint).all (fun d => (List.range 11).any fun k =>
        n ≤ k && (waitersCourse k).advances plainEndpoint d.probe) = true := by decide +kernel
  intro n d hd
  by_cases hn : n < 11
  · have hany := hfirst n hn
    rw [hd, Option.all_some, List.any_eq_true] at hany
    obtain ⟨k, -, hk⟩ := hany
    rw [Bool.and_eq_true, decide_eq_true_eq] at hk
    exact ⟨k, hk⟩
  · have hover : ((new .default .none 0).course waitersCourse 11).discovery? plainEndpoint = none :=
      Option.isNone_iff_eq_none.1 (by decide +kernel)
    obtain ⟨i, rfl⟩ := Nat.exists_eq_add_of_le (Nat.le_of_not_lt hn)
    have hcalm := calm_new .default .none 0 waitersCourse_calm
    rw [hcalm.stays_ended (by decide) hover i] at hd
    cases hd

/-- The first submission gets the failure, the second one leaves, and the others wait for a new
probe. The search is over after it. -/
theorem failures_cost_one_waitersRun :
    Fails ((new .default .none 0).after waitersRun) plainEndpoint rejection
        (.probeStatus plainEndpoint 503) ∧
      ((new .default .none 0).after (waitersRun ++ [rejection, .submit plainEndpoint
        plainRequest])).closed = false ∧
      (∃ p others joined, Cost ((new .default .none 0).after (waitersRun ++ [rejection,
          .submit plainEndpoint plainRequest])) plainEndpoint (.probeStatus plainEndpoint 503) p
          (others ++ joined)
          (((new .default .none 0).after (waitersRun ++ [rejection, .submit plainEndpoint
            plainRequest])).step (.settle plainEndpoint)).1
          (((new .default .none 0).after (waitersRun ++ [rejection, .submit plainEndpoint
            plainRequest])).step (.settle plainEndpoint)).2) ∧
      (((new .default .none 0).course waitersCourse 8).waitingFor plainEndpoint).map (·.id) =
        [3, 4] ∧
      ∃ M, ∀ n, M ≤ n → ((new .default .none 0).course waitersCourse n).discovery?
        plainEndpoint = none := by
  have hfails : Fails ((new .default .none 0).after waitersRun) plainEndpoint rejection
      (.probeStatus plainEndpoint 503) := failure?_eq_some_iff.1 (by decide +kernel)
  have hopen : ((new .default .none 0).after (waitersRun ++ [rejection, .submit plainEndpoint
      plainRequest])).closed = false := by decide +kernel
  obtain ⟨p, others, joined, -, -, hcost⟩ :=
    (failures_cost_one .default .none 0 plainEndpoint).costs waitersRun rejection _
      [.submit plainEndpoint plainRequest] hfails (by simp) hopen
  exact ⟨hfails, hopen, ⟨p, others, joined, hcost⟩, by decide +kernel,
    (failures_cost_one .default .none 0 plainEndpoint).stops waitersCourse 7 waitersCourse_calm
      waitersCourse_ends⟩

end Limiter

end Throttle
