import Throttle.Proofs.Limiter.Housing
import Throttle.Proofs.Limiter.Register

/-!
  Where an endpoint stands with a limiter: it is unknown, searched for or ready. As long as the
  limiter takes submissions, every endpoint goes through one small machine, `Turned`, whatever
  happens to the others (`step_turns`). The marks that its probes leave are when they were sent and
  when they ended, with the name of the policy that they advertised.
-/

namespace Throttle

open Http

namespace Probe

/-- The request from which it is about to be made. -/
def starts? : Probe → Option Request
  | starting request => some request
  | _ => none

/-- How many requests it has under way. -/
def underWay : Probe → Nat
  | awaiting _ => 1
  | _ => 0

theorem underWay_le (p : Probe) : p.underWay ≤ 1 := by
  cases p with
  | awaiting signed => exact Nat.le_refl 1
  | starting request => exact Nat.zero_le 1
  | ended outcome => exact Nat.zero_le 1

/-- The manager that it found. -/
def manager? : Probe → Option Nat
  | ended (.ok k) => some k
  | _ => none

end Probe

namespace Limiter

variable {w v : Limiter} {m : Move} {e f : Endpoint}

/-! ## Standings -/

/-- How a limiter stands with an endpoint. -/
inductive Standing where
  | unknown
  /-- It is searched for, and requests wait, the oldest first. -/
  | sought (oldest : Pending) (others : List Pending) (probe : Probe)
  | ready (manager : Nat)

namespace Standing

def route? : Standing → Option Route
  | unknown => none
  | sought p others _ => some (.discovering (p :: others))
  | ready k => some (.ready k)

def probe? : Standing → Option Probe
  | sought _ _ probe => some probe
  | _ => none

/-- The manager that is found. -/
def manager? : Standing → Option Nat
  | unknown => none
  | sought _ _ probe => probe.manager?
  | ready k => some k

def starts? (s : Standing) : Option Request := s.probe?.bind Probe.starts?

def underWay (s : Standing) : Nat := s.probe?.elim 0 Probe.underWay

theorem underWay_le (s : Standing) : s.underWay ≤ 1 := by
  cases s with
  | sought p others probe => exact probe.underWay_le
  | unknown => exact Nat.zero_le 1
  | ready k => exact Nat.zero_le 1

end Standing

/-- The searches for the policy of one endpoint. -/
def searches (w : Limiter) (e : Endpoint) : List Discovery :=
  w.discoveries.filter (·.endpoint = e)

/-- The tables show a standing: its route, and one search if it has a probe, else none. -/
structure Stands (w : Limiter) (e : Endpoint) (s : Standing) : Prop where
  route : w.route? e = s.route?
  searches : w.searches e = s.probe?.toList.map (Discovery.mk e)

variable {s t : Standing}

theorem discovery?_eq (w : Limiter) (e : Endpoint) : w.discovery? e = (w.searches e).head? :=
  List.head?_filter.symm

theorem Stands.discovery? (h : w.Stands e s) : w.discovery? e = s.probe?.map (Discovery.mk e) := by
  rw [discovery?_eq, h.searches]
  cases s.probe? <;> rfl

/-- Who is searched for has requests that wait. -/
theorem Stands.of_discovery? (h : w.Stands e s) {d : Discovery} (hd : w.discovery? e = some d) :
    ∃ p others, s = .sought p others d.probe := by
  rw [h.discovery?] at hd
  cases s with
  | sought p others probe =>
    cases hd
    exact ⟨p, others, rfl⟩
  | unknown => cases hd
  | ready k => cases hd

theorem Stands.of_waiting (h : w.Stands e s) {waiting : List Pending}
    (hroute : w.route? e = some (.discovering waiting)) :
    ∃ p others probe, waiting = p :: others ∧ s = .sought p others probe := by
  rw [h.route] at hroute
  cases s with
  | sought p others probe =>
    cases hroute
    exact ⟨p, others, probe, rfl, rfl⟩
  | unknown => cases hroute
  | ready k => cases hroute

theorem Stands.of_ready (h : w.Stands e s) {k : Nat} (hroute : w.route? e = some (.ready k)) :
    s = .ready k := by
  rw [h.route] at hroute
  cases s with
  | ready j =>
    cases hroute
    rfl
  | unknown => cases hroute
  | sought p others probe => cases hroute

theorem Stands.of_none (h : w.Stands e s) (hroute : w.route? e = none) : s = .unknown := by
  rw [h.route] at hroute
  cases s with
  | unknown => rfl
  | ready k => cases hroute
  | sought p others probe => cases hroute

/-- A standing does not depend on what other endpoints do. -/
theorem Stands.frame (h : w.Stands e s) (hroute : v.route? e = w.route? e)
    (hsearches : v.searches e = w.searches e) : v.Stands e s :=
  ⟨hroute.trans h.route, hsearches.trans h.searches⟩

theorem searches_of_discoveries (h : v.discoveries = w.discoveries) (e : Endpoint) :
    v.searches e = w.searches e := congrArg (List.filter _) h

theorem Stands.of_core (h : w.Stands e s) (hcore : v.core = w.core) : v.Stands e s :=
  h.frame (route?_of_desk (desk_of_core hcore) e)
    (searches_of_discoveries (discoveries_of_core hcore) e)

theorem Abandoned.stands (h : w.Abandoned) (e : Endpoint) : w.Stands e .unknown := by
  refine ⟨h.shut.route? e, ?_⟩
  unfold Limiter.searches
  rw [h.discoveries]
  rfl

/-- A limiter that looks for somebody is not abandoned. -/
theorem Stands.held (h : w.Stands e s) (hs : s ≠ .unknown) : ¬ w.Abandoned := by
  intro habandoned
  exact hs (h.of_none (habandoned.shut.route? e))

theorem searches_setDiscovery (w : Limiter) (f e : Endpoint) (p : Probe) :
    (w.setDiscovery f p).searches e =
      if e = f then (w.searches e).map fun _ => ⟨e, p⟩ else w.searches e := by
  unfold searches setDiscovery
  dsimp only
  induction w.discoveries with
  | nil => exact (ite_self _).symm
  | cons d ds ih =>
    obtain ⟨g, q⟩ := d
    rw [List.map_cons, List.filter_cons, List.filter_cons, ih]
    by_cases hgf : g = f
    · subst hgf
      by_cases hge : g = e
      · subst hge
        simp
      · simp [hge, Ne.symm hge]
    · by_cases hge : g = e
      · subst hge
        simp [hgf]
      · simp [hgf, hge]

theorem searches_endDiscovery (w : Limiter) (f e : Endpoint) :
    (w.endDiscovery f).searches e = if e = f then [] else w.searches e := by
  unfold searches endDiscovery
  dsimp only
  rw [List.filter_filter]
  by_cases hef : e = f
  · subst hef
    rw [if_pos rfl]
    refine List.filter_eq_nil_iff.2 fun d hd => ?_
    simp
  · rw [if_neg hef]
    refine List.filter_congr fun d hd => ?_
    by_cases hde : d.endpoint = e
    · subst hde
      simp [hef]
    · simp [hde]

/-- A search goes on with another probe. -/
theorem Stands.setDiscovery {p : Pending} {others : List Pending} {probe : Probe}
    (h : w.Stands e (.sought p others probe)) (probe' : Probe) :
    (w.setDiscovery e probe').Stands e (.sought p others probe') := by
  refine ⟨h.route, ?_⟩
  rw [searches_setDiscovery, if_pos rfl, h.searches]
  rfl

theorem Stands.setDiscovery_other (h : w.Stands e s) (hef : e ≠ f) (probe : Probe) :
    (w.setDiscovery f probe).Stands e s :=
  h.frame rfl ((searches_setDiscovery w f e probe).trans (if_neg hef))

theorem Stands.endDiscovery_other (h : w.Stands e s) (hef : e ≠ f) :
    (w.endDiscovery f).Stands e s :=
  h.frame rfl ((searches_endDiscovery w f e).trans (if_neg hef))

theorem Stands.setRoute_other (h : w.Stands e s) (hef : e ≠ f) (r : Route) :
    (w.setRoute f r).Stands e s :=
  h.frame ((route?_setRoute w f e r).trans (if_neg hef)) rfl

theorem Stands.removeRoute_other (h : w.Stands e s) (hef : e ≠ f) :
    (w.removeRoute f).Stands e s :=
  h.frame ((route?_removeRoute w f e).trans (if_neg hef)) rfl

theorem Stands.letGo (h : w.Stands e s) (id : Nat) : (w.letGo id).Stands e s := by
  unfold Limiter.letGo
  split
  · exact h.frame rfl rfl
  · exact h

/-! ## How a standing changes -/

/-- What is remembered of a probe. -/
inductive ProbeMark where
  /-- It was handed to the transport. -/
  | sent
  /-- It came to an end, and may have named a policy. -/
  | ended (name : Option PolicyName)
  deriving DecidableEq

/-- The name that a mark shows. -/
def ProbeMark.name? : ProbeMark → Option PolicyName
  | sent => none
  | ended name => name

/-- The name that the end of a probe advertises, if it names a policy. -/
def advertises? (e : Endpoint) (signed : Request) :
    Except TransportFailure Reply → Option PolicyName
  | .error _ => none
  | .ok reply => (probePolicy e signed reply).toOption.map Policy.name

/-- What becomes of the probe of an endpoint in a move. -/
def probeMark? (w : Limiter) (e : Endpoint) : Move → Option ProbeMark
  | .startProbe f =>
    if f = e then
      match w.discovery? e with
      | some ⟨_, .starting request⟩ => (w.authorizer request).toOption.map fun _ => .sent
      | _ => none
    else none
  | .endProbe f result =>
    if f = e then
      match w.discovery? e with
      | some ⟨_, .awaiting signed⟩ => some (.ended (advertises? e signed result))
      | _ => none
    else none
  | _ => none

/-- What a move makes of the standing of an endpoint, with the mark of its probe. -/
inductive Turned (w v : Limiter) : Standing → Standing → Option ProbeMark → Prop where
  | same (s : Standing) : Turned w v s s none
  | gone (s : Standing) (h : v.Abandoned) (hidle : s.underWay = 0) : Turned w v s .unknown none
  | began (p : Pending) : Turned w v .unknown (.sought p [] (.starting p.request.probe)) none
  | joined (p : Pending) (others : List Pending) (probe : Probe) (q : Pending) :
      Turned w v (.sought p others probe) (.sought p (others ++ [q]) probe) none
  | refused (p : Pending) (others : List Pending) (request : Request) (failure : Failure) :
      Turned w v (.sought p others (.starting request)) (.sought p others (.ended (.error failure)))
        none
  | sent (p : Pending) (others : List Pending) {request signed : Request}
      (hsigned : w.authorizer request = .ok signed) :
      Turned w v (.sought p others (.starting request)) (.sought p others (.awaiting signed))
        (some .sent)
  | failed (p : Pending) (others : List Pending) (signed : Request) (failure : Failure) :
      Turned w v (.sought p others (.awaiting signed)) (.sought p others (.ended (.error failure)))
        (some (.ended none))
  | found (p : Pending) (others : List Pending) (signed : Request) {name : PolicyName} {k : Nat}
      (h : v.registered.lookup name = some k) :
      Turned w v (.sought p others (.awaiting signed)) (.sought p others (.ended (.ok k)))
        (some (.ended (some name)))
  | settled (p : Pending) (others : List Pending) (k : Nat) :
      Turned w v (.sought p others (.ended (.ok k))) (.ready k) none
  | dropped (p : Pending) (others : List Pending) (failure : Failure) :
      Turned w v (.sought p others (.ended (.error failure))) .unknown none
  | retried (p q : Pending) (others rest : List Pending) (failure : Failure) :
      Turned w v (.sought p others (.ended (.error failure)))
        (.sought q rest (.starting q.request.probe)) none

/-- The tables show a standing afterwards that comes from the one before. -/
def Turns (w v : Limiter) (e : Endpoint) (s : Standing) (mark : Option ProbeMark) : Prop :=
  ∃ t, v.Stands e t ∧ Turned w v s t mark

theorem Stands.still (h : w.Stands e s) (hroute : v.route? e = w.route? e)
    (hsearches : v.searches e = w.searches e) : Turns w v e s none :=
  ⟨s, h.frame hroute hsearches, .same s⟩

/-- A probe that is under way does not vanish. -/
theorem Turned.idle (h : Turned w v s t none) (ht : t.probe? = none) : s.underWay = 0 := by
  cases h with
  | same =>
    cases s with
    | sought p others probe => cases ht
    | unknown => rfl
    | ready k => rfl
  | gone _ habandoned hidle => exact hidle
  | began p => cases ht
  | joined p others probe q => cases ht
  | refused p others request failure => cases ht
  | settled p others k => rfl
  | dropped p others failure => rfl
  | retried p q others rest failure => cases ht

theorem Turns.hangUp {u : Limiter} (h : Turns w v e s none) (hu : u = v.hangUpIfFree) :
    Turns w u e s none := by
  subst hu
  rcases hangUpIfFree_cases v with hstill | ⟨habandoned, -⟩
  · rw [hstill]
    exact h
  · obtain ⟨t, hv, hturned⟩ := h
    have hnone : t.probe? = none := by
      have hsearches := hv.searches
      unfold Limiter.searches at hsearches
      rw [(discoveries_hangUpIfFree v).symm.trans habandoned.discoveries] at hsearches
      cases hprobe : t.probe? with
      | none => rfl
      | some probe =>
        rw [hprobe] at hsearches
        cases hsearches
    exact ⟨.unknown, habandoned.stands e, .gone s habandoned (hturned.idle hnone)⟩

theorem submit_turns (h : w.Stands e s) (hopen : w.closed = false) (f : Endpoint) (r : Request) :
    Turns w (w.submit f r).1 e s none := by
  have hcounted : { w with nextId := w.nextId + 1 }.Stands e s := h.frame rfl rfl
  have hstart : w.numbered.Stands e s := hcounted.of_core (core_numbered w)
  have hroute : w.numbered.route? f = w.route? f :=
    (route?_of_desk (desk_of_core (core_numbered w)) f :)
  have hname : { w with nextId := w.nextId + 1 }.startTicker = w.numbered := rfl
  unfold submit
  dsimp only
  rw [if_neg (fun hclosed => Bool.false_ne_true (hopen.symm.trans hclosed)), hname, hroute]
  split
  · rename_i k hready
    refine ⟨s, ?_, .same s⟩
    exact hstart.frame (route?_of_desk (desk_enqueue _ _ _) e)
      (searches_of_discoveries (discoveries_of_core (core_enqueue _ _ _)) e)
  · rename_i waiting hwaiting
    by_cases hef : e = f
    · subst hef
      obtain ⟨p, others, probe, rfl, rfl⟩ := h.of_waiting hwaiting
      refine ⟨.sought p (others ++ [w.submission e r]) probe, ⟨?_, hstart.searches⟩,
        .joined p others probe (w.submission e r)⟩
      exact (route?_setRoute _ _ _ _).trans (if_pos rfl)
    · exact ⟨s, hstart.setRoute_other hef _, .same s⟩
  · rename_i hnone
    by_cases hef : e = f
    · subst hef
      obtain rfl := h.of_none hnone
      refine ⟨.sought (w.submission e r) [] (.starting (w.submission e r).request.probe), ⟨?_, ?_⟩,
        .began (w.submission e r)⟩
      · exact (route?_setRoute _ _ _ _).trans (if_pos rfl)
      · show (w.numbered.discoveries ++ [_]).filter _ = _
        rw [List.filter_append]
        have hfilter : w.numbered.discoveries.filter (·.endpoint = e) = [] := hstart.searches
        rw [hfilter]
        simp [Standing.probe?, submission]
    · refine ⟨s, ?_, .same s⟩
      have hothers := hstart.setRoute_other hef (.discovering [w.submission f r])
      refine hothers.frame rfl ?_
      show (w.numbered.discoveries ++ [_]).filter _ = w.numbered.discoveries.filter _
      rw [List.filter_append]
      simp [Ne.symm hef]

theorem startProbe_turns (h : w.Stands e s) (f : Endpoint) :
    Turns w (w.startProbe f).1 e s (w.probeMark? e (.startProbe f)) := by
  unfold startProbe
  by_cases hef : f = e
  · subst hef
    split
    · rename_i g request hd
      obtain ⟨p, others, rfl⟩ := h.of_discovery? hd
      simp only [probeMark?, if_true, hd]
      split
      · rename_i refusal hrefused
        rw [hrefused]
        exact ⟨_, h.setDiscovery _, .refused p others request _⟩
      · rename_i signed hsigned
        rw [hsigned]
        exact ⟨_, h.setDiscovery _, .sent p others hsigned⟩
    · simp only [probeMark?, if_true]
      exact h.still rfl rfl
  · have hnone : w.probeMark? e (.startProbe f) = none := if_neg hef
    rw [hnone]
    split
    · split
      · exact ⟨s, h.setDiscovery_other (Ne.symm hef) _, .same s⟩
      · exact ⟨s, h.setDiscovery_other (Ne.symm hef) _, .same s⟩
    · exact h.still rfl rfl

/-- The manager that a name gets is in the register under it. -/
theorem lookup_managerFor (w : Limiter) (span : Span) (name : PolicyName) :
    (w.managerFor span name).1.registered.lookup name = some (w.managerFor span name).2.2 := by
  unfold managerFor
  split
  · assumption
  · rename_i hnone
    rw [List.lookup_append, hnone]
    simp

theorem endProbe_turns (h : w.Stands e s) (f : Endpoint) (result : Except TransportFailure Reply) :
    Turns w (w.endProbe f result).1 e s (w.probeMark? e (.endProbe f result)) := by
  have hseed (u : Limiter) (i : Nat) (reply : Reply) (hu : u.Stands e s) :
      (u.seed (discoverySpan f) i reply).1.Stands e s :=
    hu.frame (route?_of_desk (desk_of_core (core_seed _ _ _ _)) e)
      (searches_of_discoveries (discoveries_of_core (core_seed _ _ _ _)) e)
  have hmade (span : Span) (name : PolicyName) : (w.managerFor span name).1.Stands e s := by
    unfold managerFor
    split
    · exact h
    · exact h.frame rfl rfl
  unfold endProbe
  by_cases hef : f = e
  · subst hef
    split
    · rename_i g signed hd
      obtain ⟨p, others, rfl⟩ := h.of_discovery? hd
      simp only [probeMark?, if_true, hd]
      split
      · exact ⟨_, h.setDiscovery _, .failed p others signed _⟩
      · rename_i reply
        dsimp only [advertises?]
        split
        · rename_i failure notice hpolicy
          rw [hpolicy]
          exact ⟨_, h.setDiscovery _, .failed p others signed failure⟩
        · rename_i policy hpolicy
          rw [hpolicy]
          refine ⟨_, (hseed _ _ reply (hmade _ policy.name)).setDiscovery _, ?_⟩
          refine .found p others signed ?_
          refine (congrArg (List.lookup policy.name) ?_).trans (lookup_managerFor w _ policy.name)
          exact (congrArg Prod.snd ((roster_of_core (core_seed _ _ _ _)).trans
            (roster_live _ _ _)) :)
    · simp only [probeMark?, if_true]
      exact h.still rfl rfl
  · have hnone : w.probeMark? e (.endProbe f result) = none := if_neg hef
    rw [hnone]
    refine ⟨s, ?_, .same s⟩
    split
    · split
      · exact h.setDiscovery_other (Ne.symm hef) _
      · dsimp only
        split
        · exact h.setDiscovery_other (Ne.symm hef) _
        · exact (hseed _ _ _ (hmade _ _)).setDiscovery_other (Ne.symm hef) _
    · exact h

/-- Passing on what the probe of another endpoint came to. -/
theorem settle_turns_other (h : w.Stands e s) (hef : e ≠ f) : Turns w (w.settle f).1 e s none := by
  have hleave {v : Limiter} (hv : v.Stands e s) : Turns w (v.leave f) e s none :=
    Turns.hangUp (v := v.endDiscovery f) ⟨s, hv.endDiscovery_other hef, .same s⟩ rfl
  unfold settle
  split
  · split
    · exact hleave h
    · exact hleave h
    · split
      · exact hleave ((h.removeRoute_other hef).of_core (core_answerAll _ _ _))
      · split
        · rename_i k _
          refine hleave ((h.setRoute_other hef (.ready k)).frame ?_ ?_)
          · exact route?_of_desk (desk_enqueueAll _ _ _) e
          · exact searches_of_discoveries (discoveries_of_core (core_enqueueAll _ _ _)) e
        · rename_i failure _
          have hanswered (ps : List Pending) : (w.answerAll (.error failure) ps).1.Stands e s :=
            h.of_core (core_answerAll w (.error failure) ps)
          unfold settleFailed
          dsimp only
          split
          · exact hleave ((hanswered _).removeRoute_other hef)
          · refine ⟨s, ?_, .same s⟩
            exact ((hanswered _).setRoute_other hef _).setDiscovery_other hef _
  · exact ⟨s, h, .same s⟩

theorem settle_turns (h : w.Stands e s) (hopen : w.closed = false) (f : Endpoint) :
    Turns w (w.settle f).1 e s none := by
  by_cases hef : e = f
  · subst hef
    have closing {v : Limiter} {t : Standing} (hroute : v.route? e = t.route?) (ht : t.probe? = none)
        (hturned : Turned w (v.endDiscovery e) s t none) : Turns w (v.leave e) e s none := by
      refine Turns.hangUp (v := v.endDiscovery e) ⟨t, ⟨hroute, ?_⟩, hturned⟩ rfl
      rw [searches_endDiscovery, if_pos rfl, ht]
      rfl
    unfold settle
    split
    · rename_i g outcome hd
      obtain ⟨p, others, rfl⟩ := h.of_discovery? hd
      rw [h.route, hopen]
      dsimp only [Standing.route?]
      rw [if_neg Bool.false_ne_true]
      split
      · rename_i k
        refine closing (t := .ready k) ?_ rfl (.settled p others k)
        have hqueued := desk_enqueueAll (w.setRoute e (.ready k)) k (p :: others)
        exact (route?_of_desk hqueued e).trans ((route?_setRoute _ _ _ _).trans (if_pos rfl))
      · rename_i failure
        have hanswered := h.of_core (core_answerAll w (.error failure) ((p :: others).take 1))
        unfold settleFailed
        dsimp only
        split
        · refine closing (v := removeRoute _ e) (t := .unknown) ?_ rfl (.dropped p others failure)
          exact (route?_removeRoute _ _ _).trans (if_pos rfl)
        · rename_i q rest _
          refine ⟨_, ⟨?_, ?_⟩, .retried p q others rest failure⟩
          · exact (route?_setRoute _ _ _ _).trans (if_pos rfl)
          · exact (hanswered.setDiscovery (.starting q.request.probe)).searches
    · exact h.still rfl rfl
  · exact settle_turns_other h hef

/-- Every endpoint goes through one machine, whatever happens to the others. -/
theorem step_turns (h : w.Stands e s) (hopen : (w.step m).1.closed = false) :
    Turns w (w.step m).1 e s (w.probeMark? e m) := by
  cases hm : m.actor? with
  | some k =>
    obtain ⟨d, -, hcore, -⟩ := acting_step hm w
    have hstill : Turns w (w.step m).1 e s none :=
      h.still (route?_of_desk (desk_acting hm w) e)
        (searches_of_discoveries ((discoveries_of_core hcore).trans rfl) e)
    cases m <;> first | exact hstill | cases hm
  | none =>
    have hbefore := open_before hopen
    unfold step at hopen ⊢
    split
    · rename_i hblocked
      have hstill : Turns w w e s none := h.still rfl rfl
      cases m <;> first | exact hstill | cases hblocked
    · rename_i hfree
      rw [if_neg hfree] at hopen
      cases m with
      | submit f r => exact submit_turns h hbefore f r
      | settle f => exact settle_turns h hbefore f
      | startProbe f => exact startProbe_turns h f
      | endProbe f result => exact endProbe_turns h f result
      | shutdown => exact absurd ((closed_shutdown w).symm.trans hopen) nofun
      | release =>
        exact Turns.hangUp (v := { w with owners := w.owners - 1 }) (h.still rfl rfl) rfl
      | retain => exact h.still rfl rfl
      | renew f => exact h.still rfl rfl
      | elapse d => exact h.still rfl rfl
      | refresh => exact h.still rfl rfl
      | cancel id => exact ⟨s, h.letGo id, .same s⟩
      | letGo id => exact ⟨s, h.letGo id, .same s⟩
      | call i => exact ⟨s, h.of_core (core_call w i), .same s⟩
      | awaitPause => exact ⟨s, h.of_core (core_awaitPause w), .same s⟩
      | tick => exact ⟨s, h.of_core (core_tick w), .same s⟩
      | command k => cases hm
      | signal k => cases hm
      | ring k => cases hm
      | returned k id result => cases hm

end Limiter

end Throttle
