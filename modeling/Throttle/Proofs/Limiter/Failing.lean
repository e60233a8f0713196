import Throttle.Proofs.Limiter.Aftermath
import Throttle.Proofs.Policy.Consistency

/-!
  Probes that fail. `Fails` lists the ways: the authorizer refuses the probe, its transmission
  breaks, or its reply is of no use (`Unfit`). A probe that fails only ends (`failing_step`); those
  who wait for it stay until its failure is passed on, whatever happens meanwhile
  (`pending_run`). Then the failure costs the oldest submission and nothing else: `Cost`.
-/

namespace Throttle

open Http

/-- It takes a probe of an endpoint further: it sends the probe, ends it, or passes on what it came
to. -/
def Move.advances (e : Endpoint) : Move → Probe → Bool
  | .startProbe f, .starting _ => f = e
  | .endProbe f _, .awaiting _ => f = e
  | .settle f, .ended _ => f = e
  | _, _ => false

theorem Move.advances_cases {m : Move} {e : Endpoint} {p : Probe} (h : m.advances e p = true) :
    (∃ request, p = .starting request ∧ m = .startProbe e) ∨
      (∃ signed result, p = .awaiting signed ∧ m = .endProbe e result) ∨
        ∃ outcome, p = .ended outcome ∧ m = .settle e := by
  unfold Move.advances at h
  split at h
  · obtain rfl := of_decide_eq_true h
    exact .inl ⟨_, rfl, rfl⟩
  · obtain rfl := of_decide_eq_true h
    exact .inr (.inl ⟨_, _, rfl, rfl⟩)
  · obtain rfl := of_decide_eq_true h
    exact .inr (.inr ⟨_, rfl, rfl⟩)
  · cases h

namespace Limiter

variable {w v : Limiter} {m : Move} {e f : Endpoint} {failure : Failure}

/-! ## How probes fail -/

/-- A probe's reply is of no use, and why. -/
inductive Unfit (e : Endpoint) (reply : Reply) : Failure → Prop where
  /-- It reports neither a success nor a violation. -/
  | rejected (hsuccess : reply.isSuccess = false) (hviolation : reply.isViolation = false) :
      Unfit e reply (.probeStatus e reply.status)
  | unnamed (hstatus : reply.isSuccess ∨ reply.isViolation)
      (hnamed : namesPolicy reply.headers = false) : Unfit e reply (.unnamedPolicy e)
  /-- Its headers cannot be read. -/
  | malformed (hstatus : reply.isSuccess ∨ reply.isViolation)
      (hnamed : namesPolicy reply.headers = true) {cause : PolicyError}
      (h : Policy.ofHeaders? reply.headers = .error cause) : Unfit e reply (.malformedPolicy cause)
  /-- Its headers contradict each other. -/
  | inconsistent (hstatus : reply.isSuccess ∨ reply.isViolation)
      (hnamed : namesPolicy reply.headers = true) {policy : Policy} {cause : PolicyError}
      (h : Policy.ofHeaders? reply.headers = .ok policy)
      (hmismatch : policy.mismatch? = some cause) : Unfit e reply (.malformedPolicy cause)

/-- A probe of an endpoint fails in a move. -/
inductive Fails (w : Limiter) (e : Endpoint) : Move → Failure → Prop where
  /-- The authorizer refuses it. -/
  | refused {g : Endpoint} {request : Request} {refusal : Refusal}
      (hd : w.discovery? e = some ⟨g, .starting request⟩)
      (h : w.authorizer request = .error refusal) :
      Fails w e (.startProbe e) (.authorization refusal)
  /-- Its transmission fails, or the watchdog ends it. -/
  | broke {g : Endpoint} {signed : Request} (hd : w.discovery? e = some ⟨g, .awaiting signed⟩)
      (cause : TransportFailure) : Fails w e (.endProbe e (.error cause)) (.transport cause)
  | unfit {g : Endpoint} {signed : Request} {reply : Reply} {failure : Failure}
      (hd : w.discovery? e = some ⟨g, .awaiting signed⟩) (h : Unfit e reply failure) :
      Fails w e (.endProbe e (.ok reply)) failure

/-- Why a probe that has come to an end failed, if it did. -/
def probeFailure? (e : Endpoint) (signed : Request) :
    Except TransportFailure Reply → Option Failure
  | .error cause => some (.transport cause)
  | .ok reply =>
    match probePolicy e signed reply with
    | .error (failure, _) => some failure
    | .ok _ => none

/-- The failure of a probe of an endpoint in a move. -/
def failure? (w : Limiter) (e : Endpoint) : Move → Option Failure
  | .startProbe f =>
    if f = e then
      match w.discovery? e with
      | some ⟨_, .starting request⟩ =>
        match w.authorizer request with
        | .error refusal => some (.authorization refusal)
        | .ok _ => none
      | _ => none
    else none
  | .endProbe f result =>
    if f = e then
      match w.discovery? e with
      | some ⟨_, .awaiting signed⟩ => probeFailure? e signed result
      | _ => none
    else none
  | _ => none

/-- Headers declare no consistent policy if they cannot be read, or contradict each other. -/
theorem ofHeaders?_consistent_error_iff {headers : Headers} {cause : PolicyError} :
    Policy.ofHeaders? headers >>= Policy.ensureConsistent = .error cause ↔
      Policy.ofHeaders? headers = .error cause ∨
        ∃ policy, Policy.ofHeaders? headers = .ok policy ∧ policy.mismatch? = some cause := by
  cases hread : Policy.ofHeaders? headers with
  | error other =>
    constructor
    · exact fun h => .inl h
    · rintro (h | ⟨policy, hpolicy, -⟩)
      · exact h
      · cases hpolicy
  | ok policy =>
    show policy.ensureConsistent = .error cause ↔ _
    simp [Policy.ensureConsistent_eq_error_iff]

section

variable (signed : Request) {reply : Reply}

theorem probePolicy_of_rejected (hsuccess : reply.isSuccess = false)
    (hviolation : reply.isViolation = false) : probePolicy e signed reply =
      .error (.probeStatus e reply.status, .probeRejected reply.status signed.headers) := by
  unfold probePolicy
  rw [hsuccess, hviolation]
  rfl

variable (hstatus : reply.isSuccess ∨ reply.isViolation)

include hstatus

theorem probePolicy_of_unnamed (hnamed : namesPolicy reply.headers = false) :
    probePolicy e signed reply =
      .error (.unnamedPolicy e, .probeUnnamed reply.status signed.headers) := by
  unfold probePolicy
  rw [if_neg (by rcases hstatus with h | h <;> simp [h]), hnamed]
  rfl

theorem probePolicy_of_named (hnamed : namesPolicy reply.headers = true) :
    probePolicy e signed reply =
      match Policy.ofHeaders? reply.headers >>= Policy.ensureConsistent with
      | .error cause => .error (.malformedPolicy cause, .probeMalformed cause)
      | .ok policy => .ok policy := by
  unfold probePolicy
  rw [if_neg (by rcases hstatus with h | h <;> simp [h]), hnamed]
  rfl

end

/-- The reply of a probe declares a policy, or it is unfit. -/
theorem probePolicy_eq_error_iff (signed : Request) {reply : Reply} :
    (∃ notice, probePolicy e signed reply = .error (failure, notice)) ↔ Unfit e reply failure := by
  constructor
  · rintro ⟨notice, h⟩
    by_cases hstatus : reply.isSuccess ∨ reply.isViolation
    · cases hnamed : namesPolicy reply.headers with
      | false =>
        rw [probePolicy_of_unnamed signed hstatus hnamed] at h
        cases h
        exact .unnamed hstatus hnamed
      | true =>
        rw [probePolicy_of_named signed hstatus hnamed] at h
        split at h
        · rename_i cause hread
          cases h
          rcases ofHeaders?_consistent_error_iff.1 hread with hread | ⟨policy, hread, hmismatch⟩
          · exact .malformed hstatus hnamed hread
          · exact .inconsistent hstatus hnamed hread hmismatch
        · cases h
    · rw [not_or, Bool.not_eq_true, Bool.not_eq_true] at hstatus
      rw [probePolicy_of_rejected signed hstatus.1 hstatus.2] at h
      cases h
      exact .rejected hstatus.1 hstatus.2
  · intro h
    cases h with
    | rejected hsuccess hviolation => exact ⟨_, probePolicy_of_rejected signed hsuccess hviolation⟩
    | unnamed hstatus hnamed => exact ⟨_, probePolicy_of_unnamed signed hstatus hnamed⟩
    | malformed hstatus hnamed hread =>
      rw [probePolicy_of_named signed hstatus hnamed,
        ofHeaders?_consistent_error_iff.2 (.inl hread)]
      exact ⟨_, rfl⟩
    | inconsistent hstatus hnamed hread hmismatch =>
      rw [probePolicy_of_named signed hstatus hnamed,
        ofHeaders?_consistent_error_iff.2 (.inr ⟨_, hread, hmismatch⟩)]
      exact ⟨_, rfl⟩

/-- These are all the ways in which a probe fails. -/
theorem failure?_eq_some_iff : w.failure? e m = some failure ↔ Fails w e m failure := by
  constructor
  · intro h
    cases m with
    | startProbe f =>
      simp only [failure?] at h
      split at h
      · rename_i hfe
        subst hfe
        split at h
        · rename_i hd
          split at h
          · rename_i hrefused
            obtain rfl := Option.some.inj h
            exact .refused hd hrefused
          · cases h
        · cases h
      · cases h
    | endProbe f result =>
      simp only [failure?] at h
      split at h
      · rename_i hfe
        subst hfe
        split at h
        · rename_i hd
          cases result with
          | error cause =>
            obtain rfl := Option.some.inj h
            exact .broke hd cause
          | ok reply =>
            simp only [probeFailure?] at h
            split at h
            · rename_i notice hpolicy
              obtain rfl := Option.some.inj h
              exact .unfit hd ((probePolicy_eq_error_iff _).1 ⟨notice, hpolicy⟩)
            · cases h
        · cases h
      · cases h
    | _ => cases h
  · intro h
    cases h with
    | refused hd hrefused => simp only [failure?, if_true, hd, hrefused]
    | broke hd cause => simp only [failure?, if_true, hd, probeFailure?]
    | @unfit g signed reply failure hd hunfit =>
      obtain ⟨notice, hpolicy⟩ := (probePolicy_eq_error_iff signed).2 hunfit
      simp only [failure?, if_true, hd, probeFailure?, hpolicy]

/-! ## The end of a probe -/

/-- A probe that fails does nothing but end. -/
theorem failing_step (h : Fails w e m failure) :
    (w.step m).1 = w.setDiscovery e (.ended (.error failure)) ∧ delivered (w.step m).2 = [] ∧
      senders (w.step m).2 = [] := by
  have hreport (reply : Reply) : delivered (probeReport e reply) = [] := by
    refine List.filterMap_eq_nil_iff.2 fun x hx => ?_
    rcases List.mem_cons.1 hx with rfl | hx
    · rfl
    · obtain ⟨header, -, rfl⟩ := List.mem_map.1 hx
      rfl
  cases h with
  | @refused g request refusal hd hrefused =>
    have hstep : w.step (.startProbe e) =
        (w.setDiscovery e (.ended (.error (.authorization refusal))), []) := by
      show w.startProbe e = _
      simp only [startProbe, hd, hrefused]
    rw [hstep]
    exact ⟨rfl, rfl, rfl⟩
  | broke hd cause =>
    have hstep : w.step (.endProbe e (.error cause)) =
        (w.setDiscovery e (.ended (.error (.transport cause))), []) := by
      show w.endProbe e (.error cause) = _
      simp only [endProbe, hd]
    rw [hstep]
    exact ⟨rfl, rfl, rfl⟩
  | @unfit g signed reply failure hd hunfit =>
    obtain ⟨notice, hpolicy⟩ := (probePolicy_eq_error_iff signed).2 hunfit
    have hstep : w.step (.endProbe e (.ok reply)) =
        (w.setDiscovery e (.ended (.error failure)),
          probeReport e reply ++ [.notice (some (discoverySpan e)) notice]) := by
      show w.endProbe e (.ok reply) = _
      simp only [endProbe, hd, hpolicy]
    rw [hstep]
    refine ⟨rfl, ?_, ?_⟩
    · rw [delivered_append, hreport]
      rfl
    · rw [senders_append, senders_probeReport]
      rfl

/-- Only a probe that is not over fails. -/
theorem Fails.advances (h : Fails w e m failure) :
    ∃ d, w.discovery? e = some d ∧ m.advances e d.probe = true ∧ d.probe.isOver = false := by
  cases h with
  | refused hd hrefused => exact ⟨_, hd, decide_eq_true rfl, rfl⟩
  | broke hd cause => exact ⟨_, hd, decide_eq_true rfl, rfl⟩
  | unfit hd hunfit => exact ⟨_, hd, decide_eq_true rfl, rfl⟩

/-! ## Between the moves of a search -/

theorem discovery?_setDiscovery {d : Discovery} (hd : w.discovery? e = some d) (p : Probe)
    (hset : v.discoveries = (w.setDiscovery e p).discoveries) : v.discovery? e = some ⟨e, p⟩ := by
  rw [discovery?_eq] at hd
  rw [discovery?_eq, searches_of_discoveries hset, searches_setDiscovery, if_pos rfl,
    List.head?_map, hd]
  rfl

theorem eq_of_setDiscovery {u : Limiter} {d : Discovery} {p : Probe}
    (hset : v.discoveries = (u.setDiscovery e p).discoveries) (hd : v.discovery? e = some d) :
    d = ⟨e, p⟩ := by
  rw [discovery?_eq, searches_of_discoveries hset, searches_setDiscovery, if_pos rfl,
    List.head?_map] at hd
  obtain ⟨-, -, rfl⟩ := Option.map_eq_some_iff.1 hd
  rfl

theorem searches_of_set {p : Probe} (hset : v.discoveries = (w.setDiscovery f p).discoveries)
    (hef : e ≠ f) : v.searches e = w.searches e :=
  (searches_of_discoveries hset e).trans ((searches_setDiscovery w f e p).trans (if_neg hef))

/-- A move that takes no probe of an endpoint further leaves its search alone, unless a submission
begins one. -/
theorem searches_idle (hidle : ∀ d, w.discovery? e = some d → m.advances e d.probe = false) :
    (w.step m).1.searches e = w.searches e ∨
      w.submits? m = some e ∧ w.route? e = none ∧
        ∃ request, (w.step m).1.searches e = w.searches e ++ [⟨e, .starting request⟩] := by
  -- a move that takes the probe of `f` further is about another endpoint
  have other {f : Endpoint} {d : Discovery} (hd : w.discovery? f = some d)
      (hadvances : m.advances f d.probe = true) : e ≠ f := by
    rintro rfl
    rw [hidle d hd] at hadvances
    cases hadvances
  cases step_searches w m with
  | same hsame => exact .inl (searches_of_discoveries hsame e)
  | @began f r hm hopen howners hnone hroute hadded =>
    have hsearches : (w.step m).1.searches e =
        w.searches e ++ [⟨f, .starting (w.submission f r).request.probe⟩].filter
          (·.endpoint = e) := by
      unfold searches
      rw [hadded]
      exact List.filter_append ..
    by_cases hef : e = f
    · subst hef
      refine .inr ⟨?_, hnone, (w.submission e r).request.probe, ?_⟩
      · rw [hm]
        exact if_neg howners
      · simpa using hsearches
    · left
      simpa [Ne.symm hef] using hsearches
  | refused hm hd hprobe hset hsent =>
    exact .inl (searches_of_set hset (other hd (by simp [hm, hprobe, Move.advances])))
  | sent hm hd hprobe hset hsent =>
    exact .inl (searches_of_set hset (other hd (by simp [hm, hprobe, Move.advances])))
  | @ended f result hm =>
    subst hm
    left
    rcases w.awaiting_or_same f result with ⟨g, signed, hd⟩ | ⟨hsame, -⟩
    · have hef : e ≠ f := other hd (decide_eq_true rfl)
      rcases endProbe_discoveries w f result with ⟨hsame, -⟩ | ⟨-, outcome, hset⟩
      · exact congrArg (searches · e) hsame
      · exact searches_of_set hset hef
    · exact congrArg (searches ·.1 e) hsame
  | left hm hd hprobe hleft =>
    left
    refine (searches_of_discoveries hleft e).trans
      ((searches_endDiscovery w _ e).trans (if_neg (other hd ?_)))
    simp [hm, hprobe, Move.advances]
  | retried hm hd hprobe hroute hset =>
    exact .inl (searches_of_set hset (other hd (by simp [hm, hprobe, Move.advances])))

/-- Either a move takes the probe of an endpoint further, or it takes none further. -/
theorem advances_or_idle (w : Limiter) (m : Move) (e : Endpoint) :
    (∃ d, w.discovery? e = some d ∧ m.advances e d.probe = true) ∨
      ∀ d, w.discovery? e = some d → m.advances e d.probe = false := by
  by_cases h : ∃ d, w.discovery? e = some d ∧ m.advances e d.probe = true
  · exact .inl h
  · exact .inr fun d hd => Bool.eq_false_iff.2 fun hadvances => h ⟨d, hd, hadvances⟩

theorem discovery?_idle (hidle : ∀ d, w.discovery? e = some d → m.advances e d.probe = false) :
    (w.step m).1.discovery? e = w.discovery? e ∨
      w.submits? m = some e ∧ w.route? e = none ∧ w.discovery? e = none ∧
        ∃ request, (w.step m).1.discovery? e = some ⟨e, .starting request⟩ := by
  rw [discovery?_eq, discovery?_eq]
  rcases searches_idle hidle with hsame | ⟨hsubmits, hnone, request, hadded⟩
  · exact .inl (congrArg List.head? hsame)
  · rw [hadded, List.head?_append]
    cases hd : (w.searches e).head? with
    | some d => exact .inl rfl
    | none => exact .inr ⟨hsubmits, hnone, rfl, request, rfl⟩

/-- A move that takes a probe further leaves it over with a failure only if it fails. -/
theorem fails_of_advances {d d' : Discovery} (hbefore : w.discovery? e = some d')
    (hadvances : m.advances e d'.probe = true) (hd : (w.step m).1.discovery? e = some d)
    (hprobe : d.probe = .ended (.error failure)) : Fails w e m failure := by
  obtain ⟨g, probe⟩ := d'
  rcases Move.advances_cases hadvances with ⟨request, rfl, rfl⟩ | ⟨signed, result, rfl, rfl⟩ |
    ⟨outcome, rfl, rfl⟩
  · change (w.startProbe e).1.discovery? e = some d at hd
    simp only [startProbe, hbefore] at hd
    split at hd
    · rename_i hrefused
      obtain rfl := eq_of_setDiscovery rfl hd
      cases hprobe
      exact .refused hbefore hrefused
    · obtain rfl := eq_of_setDiscovery rfl hd
      cases hprobe
  · change (w.endProbe e result).1.discovery? e = some d at hd
    simp only [endProbe, hbefore] at hd
    cases result with
    | error cause =>
      obtain rfl := eq_of_setDiscovery rfl hd
      cases hprobe
      exact .broke hbefore cause
    | ok reply =>
      dsimp only at hd
      split at hd
      · rename_i notice hpolicy
        obtain rfl := eq_of_setDiscovery rfl hd
        cases hprobe
        exact .unfit hbefore ((probePolicy_eq_error_iff signed).1 ⟨notice, hpolicy⟩)
      · obtain rfl := eq_of_setDiscovery rfl hd
        cases hprobe
  · cases step_searches w (.settle e) with
    | same hsame hsent hopen => exact absurd rfl (hopen e rfl _ outcome hbefore)
    | began hm => cases hm
    | refused hm => cases hm
    | sent hm => cases hm
    | ended hm => cases hm
    | left hm hd' hprobe' hleft =>
      cases hm
      rw [discovery?_eq, searches_of_discoveries hleft, searches_endDiscovery, if_pos rfl] at hd
      cases hd
    | retried hm hd' hprobe' hroute hset =>
      cases hm
      obtain rfl := eq_of_setDiscovery hset hd
      cases hprobe

/-- A probe that is over with a failure was so before, or it fails in the move. -/
theorem failed_step {d : Discovery} (hd : (w.step m).1.discovery? e = some d)
    (hprobe : d.probe = .ended (.error failure)) :
    (m ≠ .settle e ∧ ∃ d, w.discovery? e = some d ∧ d.probe = .ended (.error failure)) ∨
      Fails w e m failure := by
  rcases advances_or_idle w m e with ⟨d', hbefore, hadvances⟩ | hidle
  · exact .inr (fails_of_advances hbefore hadvances hd hprobe)
  · have hbefore : w.discovery? e = some d := by
      rcases discovery?_idle hidle with hsame | ⟨-, -, -, request, hbegan⟩
      · exact hsame.symm.trans hd
      · obtain rfl := Option.some.inj (hbegan.symm.trans hd)
        cases hprobe
    refine .inl ⟨?_, d, hbefore, hprobe⟩
    rintro rfl
    have hsettles := hidle d hbefore
    rw [hprobe] at hsettles
    exact absurd hsettles (by simp [Move.advances])

/-- A probe that is over with a failure has failed before, and its failure was not passed on. -/
theorem failed_run (hw : w.discoveries = []) (ms : List Move) {d : Discovery}
    (hd : (w.after ms).discovery? e = some d) (hprobe : d.probe = .ended (.error failure)) :
    ∃ front m back, ms = front ++ m :: back ∧ Fails (w.after front) e m failure ∧
      .settle e ∉ back := by
  induction ms using List.reverseRecOn generalizing d with
  | nil =>
    unfold discovery? at hd
    rw [after_nil, hw] at hd
    cases hd
  | append_singleton ms m ih =>
    rw [after_append] at hd
    rcases failed_step (w := w.after ms) hd hprobe with ⟨hm, d', hd', hprobe'⟩ | hfails
    · obtain ⟨front, n, back, rfl, hfails, hback⟩ := ih hd' hprobe'
      refine ⟨front, n, back ++ [m], by simp, hfails, fun hmem => ?_⟩
      rcases List.mem_append.1 hmem with hmem | hmem
      · exact hback hmem
      · exact hm (List.mem_singleton.1 hmem).symm
    · exact ⟨ms, m, [], rfl, hfails, List.not_mem_nil⟩

/-- Those who wait for a probe that failed stay until its failure is passed on; others join them. -/
theorem pending_run {p : Pending} {others : List Pending}
    (h : w.Stands e (.sought p others (.ended (.error failure)))) {ns : List Move}
    (hns : .settle e ∉ ns) (hopen : (w.after ns).closed = false) :
    ∃ joined, (w.after ns).Stands e (.sought p (others ++ joined) (.ended (.error failure))) := by
  induction ns generalizing w others with
  | nil => exact ⟨[], (List.append_nil others).symm ▸ h⟩
  | cons n ns ih =>
    have hns' : .settle e ∉ ns := fun hmem => hns (List.mem_cons_of_mem n hmem)
    have hafter : ((w.step n).1.after ([] ++ ns)).closed = false := hopen
    obtain ⟨t, hstands, hturned⟩ := step_turns (m := n) h (open_front hafter)
    -- the search goes on as it was
    have hprobe : t.probe? = some (.ended (.error failure)) := by
      have hsame : (w.step n).1.searches e = w.searches e := by
        refine (searches_idle fun d hd => ?_).resolve_right fun ⟨_, hnone, _⟩ => ?_
        · rw [h.discovery?] at hd
          cases hd
          cases n with
          | settle f => exact decide_eq_false fun hfe => hns (hfe ▸ .head ns)
          | _ => rfl
        · exact absurd (h.route.symm.trans hnone) nofun
      rw [hstands.searches, h.searches] at hsame
      cases hprobe : t.probe? with
      | none => rw [hprobe] at hsame; cases hsame
      | some probe => rw [hprobe] at hsame; cases hsame; rfl
    generalize w.probeMark? e n = mark at hturned
    cases hturned with
    | same => exact ih hstands hns' hopen
    | joined _ _ _ q =>
      obtain ⟨joined, hjoined⟩ := ih hstands hns' hopen
      rw [List.append_assoc] at hjoined
      exact ⟨q :: joined, hjoined⟩
    | gone => cases hprobe
    | dropped => cases hprobe
    | retried => cases hprobe

/-! ## The cost of a failure -/

/-- The submissions among some whose callers did not stop waiting. -/
def attended (w : Limiter) (ps : List Pending) : List Pending :=
  ps.filter fun p => !w.dropped.contains p.id

/-- A limiter `w` becomes `v` as the search for an endpoint goes on with the requests `waiting`. -/
structure Resumed (w : Limiter) (e : Endpoint) (waiting : List Pending) (v : Limiter) : Prop where
  /-- They keep their order, behind one new probe that is made from the oldest of them. -/
  probed : ∀ q rest, waiting = q :: rest →
    v.route? e = some (.discovering (q :: rest)) ∧ v.searches e = [⟨e, .starting q.request.probe⟩]
  /-- If nobody is left, the endpoint is unknown again. -/
  forgotten : waiting = [] → v.route? e = none ∧ v.searches e = []
  /-- No manager is made or written to, and none changes. -/
  managers : v.actors.map Actor.disconnect = w.actors.map Actor.disconnect
  elsewhere : ∀ f, f ≠ e → v.searches f = w.searches f
  /-- The register and the other routes stay, and the managers stay connected, unless nobody holds
  the limiter any more. -/
  registry : v.Abandoned ∨
    v.actors = w.actors ∧ v.registered = w.registered ∧ ∀ f, f ≠ e → v.route? f = w.route? f

/-- What passing on the failure of a probe costs, where `p :: others` wait: a limiter `w` becomes
`v`, and `hs` are seen. -/
structure Cost (w : Limiter) (e : Endpoint) (failure : Failure) (p : Pending)
    (others : List Pending) (v : Limiter) (hs : List Happening) : Prop where
  /-- The oldest submission gets the failure, if its caller still waits, and no other one gets
  anything. -/
  resolved : delivered hs = if p.id ∈ w.dropped then [] else [(p.id, .error failure)]
  silent : senders hs = []
  /-- The others go on without those whose callers stopped waiting. -/
  resumed : Resumed w e (w.attended others) v

theorem map_disconnect_hangUpIfFree (w : Limiter) :
    w.hangUpIfFree.actors.map Actor.disconnect = w.actors.map Actor.disconnect := by
  unfold hangUpIfFree
  split
  · exact map_mapRegistered (f := Actor.disconnect) (fun _ => rfl) w
  · rfl

theorem searches_leave (w : Limiter) (e f : Endpoint) :
    (w.leave e).searches f = if f = e then [] else w.searches f :=
  (searches_of_discoveries (discoveries_leave w e) f).trans (searches_endDiscovery w e f)

/-- Without anybody who waits, the search ends. -/
theorem resumed_nil (w : Limiter) (e : Endpoint) : Resumed w e [] ((w.removeRoute e).leave e) where
  probed _ _ h := nomatch h
  forgotten _ := by
    refine ⟨?_, (searches_leave _ e e).trans (if_pos rfl)⟩
    rcases leave_route? (w.removeRoute e) e e with hsame | hshut
    · exact hsame.trans ((route?_removeRoute w e e).trans (if_pos rfl))
    · exact hshut.route? e
  managers := map_disconnect_hangUpIfFree ((w.removeRoute e).endDiscovery e)
  elsewhere f hfe := (searches_leave _ e f).trans (if_neg hfe)
  registry := by
    have hcases : (w.removeRoute e).leave e = (w.removeRoute e).endDiscovery e ∨
        ((w.removeRoute e).leave e).Abandoned :=
      (hangUpIfFree_cases ((w.removeRoute e).endDiscovery e)).imp_right And.left
    rcases hcases with hsame | habandoned
    · rw [hsame]
      exact .inr ⟨rfl, rfl, fun f hfe => (route?_removeRoute w e f).trans (if_neg hfe)⟩
    · exact .inl habandoned

/-- The oldest of those who wait gives the next probe. -/
theorem resumed_cons {d : Discovery} (h : w.searches e = [d]) (q : Pending) (rest : List Pending) :
    Resumed w e (q :: rest) ((w.setRoute e (.discovering (q :: rest))).setDiscovery e
      (.starting q.request.probe)) where
  probed _ _ heq := by
    obtain ⟨rfl, rfl⟩ := List.cons.inj heq
    refine ⟨(route?_setRoute w e e _).trans (if_pos rfl), ?_⟩
    rw [searches_setDiscovery, if_pos rfl]
    exact congrArg (List.map _) h
  forgotten heq := nomatch heq
  managers := rfl
  elsewhere f hfe := (searches_setDiscovery (w.setRoute e _) e f _).trans (if_neg hfe)
  registry := .inr ⟨rfl, rfl, fun f hfe => (route?_setRoute w e f _).trans (if_neg hfe)⟩

/-- Results and log lines do not matter to a search. -/
theorem Resumed.of_core {u : Limiter} {waiting : List Pending} (h : Resumed u e waiting v)
    (hcore : u.core = w.core) : Resumed w e waiting v where
  probed := h.probed
  forgotten := h.forgotten
  managers := h.managers.trans (congrArg (List.map Actor.disconnect) (actors_of_core hcore))
  elsewhere f hfe := (h.elsewhere f hfe).trans
    (searches_of_discoveries (discoveries_of_core hcore) f)
  registry := by
    refine h.registry.imp_right fun ⟨hactors, hregistered, hroutes⟩ => ⟨?_, ?_, fun f hfe => ?_⟩
    · exact hactors.trans (actors_of_core hcore)
    · exact hregistered.trans (congrArg registered hcore :)
    · exact (hroutes f hfe).trans (route?_of_desk (desk_of_core hcore) f)

theorem settleFailed_cost {d : Discovery} (h : w.searches e = [d]) (failure : Failure) (p : Pending)
    (others : List Pending) :
    Cost w e failure p others (w.settleFailed e failure (p :: others)).1
      (w.settleFailed e failure (p :: others)).2 := by
  have hcore : (w.answerAll (.error failure) [p]).1.core = w.core := core_answerAll w _ _
  have hsearches := searches_of_discoveries (discoveries_of_core hcore) e
  have hattended : (others.filter fun q =>
      !(w.answerAll (.error failure) [p]).1.dropped.contains q.id) = w.attended others := by
    have hdropped : (w.answerAll (.error failure) [p]).1.dropped = w.dropped :=
      (congrArg dropped hcore :)
    rw [hdropped]
    rfl
  have hreport : delivered (.notice none (.discoveryFailed e failure) ::
      (w.answerAll (.error failure) [p]).2) =
        if p.id ∈ w.dropped then [] else [(p.id, .error failure)] := by
    show delivered ((w.answer p.id (.error failure)).2 ++ []) = _
    rw [List.append_nil]
    exact delivered_answer w p.id _
  have hsilent := senders_answerAll w (.error failure) [p]
  dsimp only [settleFailed, List.take, List.drop]
  rw [hattended]
  cases hrest : w.attended others with
  | nil =>
    refine ⟨hreport, hsilent, ?_⟩
    rw [hrest]
    exact (resumed_nil _ e).of_core hcore
  | cons q rest =>
    refine ⟨hreport, hsilent, ?_⟩
    rw [hrest]
    exact (resumed_cons (hsearches.trans h) q rest).of_core hcore

/-- As long as the limiter takes submissions, passing on a failure costs one of them. -/
theorem settle_cost {p : Pending} {others : List Pending}
    (h : w.Stands e (.sought p others (.ended (.error failure)))) (hopen : w.closed = false) :
    Cost w e failure p others (w.step (.settle e)).1 (w.step (.settle e)).2 := by
  have hroute : w.route? e = some (.discovering (p :: others)) := h.route
  have hd : w.discovery? e = some ⟨e, .ended (.error failure)⟩ := h.discovery?
  have hstep : w.step (.settle e) = w.settleFailed e failure (p :: others) := by
    show w.settle e = _
    unfold settle
    simp only [hd, hroute, hopen, Bool.false_eq_true, if_false]
  rw [hstep]
  exact settleFailed_cost h.searches failure p others

end Limiter

end Throttle
