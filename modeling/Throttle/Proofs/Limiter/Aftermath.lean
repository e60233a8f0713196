import Throttle.Proofs.Limiter.Registry
import Throttle.Proofs.Limiter.Room

/-!
  The register after the limiter was told to stop. The stop clears it, and no search begins any
  more; but a probe that is outstanding goes on, and the one that finds a policy gets a manager for
  it, as if nothing had happened (`endProbe_roster`). So the register fills again with one manager
  for each policy that such a probe finds, and with nothing else (`register_after_stop`).
-/

namespace Throttle

open Http Actor

/-- It has come to an end. -/
def Probe.isOver : Probe → Bool
  | ended _ => true
  | _ => false

namespace Limiter

variable {w v : Limiter} {m : Move} {e f : Endpoint} {name : PolicyName}

/-! ## What probes find -/

/-- The policy that a probe finds in a move. -/
def finds? (w : Limiter) : Move → Option PolicyName
  | .endProbe f result => (w.probeMark? f (.endProbe f result)).bind ProbeMark.name?
  | _ => none

/-- The policies that probes find in a run, in order. -/
def findings (w : Limiter) : List Move → List PolicyName
  | [] => []
  | m :: ms => (w.finds? m).toList ++ (w.step m).1.findings ms

theorem findings_snoc (w : Limiter) (ms : List Move) (m : Move) :
    w.findings (ms ++ [m]) = w.findings ms ++ ((w.after ms).finds? m).toList := by
  induction ms generalizing w with
  | nil => exact List.append_nil _
  | cons n ms ih => rw [List.cons_append, findings, ih, findings, List.append_assoc]; rfl

/-- What is found is found for an endpoint. -/
theorem finds?_eq_some (h : w.finds? m = some name) :
    ∃ e, (w.probeMark? e m).bind ProbeMark.name? = some name := by
  cases m with
  | endProbe f result => exact ⟨f, h⟩
  | _ => cases h

theorem mem_findings {ms : List Move} (h : name ∈ w.findings ms) :
    ∃ e, name ∈ w.advertised e ms := by
  induction ms using List.reverseRecOn with
  | nil => cases h
  | append_singleton ms m ih =>
    rw [findings_snoc, List.mem_append, Option.mem_toList] at h
    rcases h with h | h
    · obtain ⟨e, he⟩ := ih h
      refine ⟨e, ?_⟩
      rw [advertised_snoc]
      exact List.mem_append_left _ he
    · obtain ⟨e, he⟩ := finds?_eq_some h
      obtain ⟨mark, hmark, hname⟩ := Option.bind_eq_some_iff.1 he
      refine ⟨e, ?_⟩
      rw [advertised_snoc, hmark]
      exact List.mem_append_right _ (List.mem_filterMap.2 ⟨mark, .head _, hname⟩)

/-! ## The register -/

/-- The names of the managers and the register, once a policy was found or not. -/
def enlisted (w : Limiter) : Option PolicyName → List PolicyName × List (PolicyName × Nat)
  | none => w.roster
  | some name =>
    match w.registered.lookup name with
    | some _ => w.roster
    | none => (w.names ++ [name], w.registered ++ [(name, w.names.length)])

theorem managerFor_roster (w : Limiter) (span : Span) (name : PolicyName) :
    (w.managerFor span name).1.roster = w.enlisted (some name) := by
  unfold managerFor enlisted
  cases hlookup : w.registered.lookup name with
  | some index => simp only [hlookup]
  | none =>
    simp only [hlookup]
    refine Prod.ext List.map_append ?_
    show _ ++ [(name, w.actors.length)] = _
    rw [← length_names]

/-- Nothing comes to an end where no probe is under way. -/
theorem awaiting_or_same (w : Limiter) (f : Endpoint) (result : Except TransportFailure Reply) :
    (∃ g signed, w.discovery? f = some ⟨g, .awaiting signed⟩) ∨
      w.endProbe f result = (w, []) ∧ w.probeMark? f (.endProbe f result) = none := by
  unfold endProbe probeMark?
  rcases hd : w.discovery? f with _ | ⟨g, probe⟩
  · exact .inr ⟨rfl, if_pos rfl⟩
  · cases probe with
    | starting request => exact .inr ⟨rfl, if_pos rfl⟩
    | awaiting signed => exact .inl ⟨g, signed, rfl⟩
    | ended outcome => exact .inr ⟨rfl, if_pos rfl⟩

/-- A probe that finds a policy gets a manager for it, whether the limiter takes submissions or
not. -/
theorem endProbe_roster (w : Limiter) (e : Endpoint) (result : Except TransportFailure Reply) :
    (w.endProbe e result).1.roster = w.enlisted (w.finds? (.endProbe e result)) := by
  show _ = w.enlisted ((w.probeMark? e (.endProbe e result)).bind ProbeMark.name?)
  rcases w.awaiting_or_same e result with ⟨f, signed, hd⟩ | ⟨hsame, hmark⟩
  · simp only [endProbe, probeMark?, if_true, hd, Option.bind_some, ProbeMark.name?]
    cases result with
    | error cause => rfl
    | ok reply =>
      dsimp only [advertises?]
      cases probePolicy e signed reply with
      | error failed => rfl
      | ok policy =>
        have hseed (u : Limiter) (i : Nat) :
            (u.seed (discoverySpan e) i reply).1.roster = u.roster :=
          (roster_of_core (core_seed _ _ _ _)).trans (roster_live _ _ _)
        exact (hseed _ _).trans (managerFor_roster w (discoverySpan e) policy.name)
  · rw [hsame, hmark]
    rfl

/-- Where no probe comes to an end, a closed limiter keeps its register, until nobody holds it. -/
theorem roster_step (hclosed : w.closed = true) (hm : ∀ f result, m ≠ .endProbe f result) :
    (w.step m).1.roster = w.roster ∨
      (w.step m).1.names = w.names ∧ (w.step m).1.registered = [] ∧ (w.step m).1.Abandoned := by
  cases step_enlists w m with
  | same hsame => exact .inl hsame
  | left hnames hcleared habandoned => exact .inr ⟨hnames, hcleared, habandoned⟩
  | shut hnames hcleared hclosed' hshutdown =>
    subst hshutdown
    left
    unfold step
    split
    · rfl
    · show w.shutdown.1.roster = w.roster
      unfold shutdown
      rw [if_pos hclosed]
  | made hprobe hnew hsearch hmade =>
    cases m with
    | endProbe f result => exact absurd rfl (hm f result)
    | _ => exact absurd rfl hprobe

/-- The managers that were made since a stop, in order, for the policies `fresh`. -/
structure Refilled (v w : Limiter) (fresh : List PolicyName) : Prop where
  names : w.names = v.names ++ fresh
  registered : w.registered = fresh.zipIdx v.names.length ∨ w.registered = [] ∧ w.Abandoned

theorem lookup_zipIdx_eq_none {fresh : List PolicyName} {n : Nat} :
    (fresh.zipIdx n).lookup name = none ↔ name ∉ fresh := by
  rw [List.lookup_eq_none_iff]
  constructor
  · intro h hmem
    obtain ⟨i, hi⟩ := List.getElem?_of_mem hmem
    have hne := h (name, n + i) (List.mk_add_mem_zipIdx_iff_getElem?.2 hi)
    simp at hne
  · rintro hnot ⟨other, i⟩ hmem
    have hother : other ∈ fresh := List.fst_mem_of_mem_zipIdx hmem
    simpa using fun heq : name = other => hnot (heq ▸ hother)

theorem eraseDups_snoc_name (names : List PolicyName) (name : PolicyName) :
    (names ++ [name]).eraseDups = names.eraseDups ++ if name ∈ names then [] else [name] := by
  rw [List.eraseDups_append]
  by_cases h : name ∈ names <;> simp [List.removeAll, h, List.eraseDups_cons]

/-- The register goes on as a probe finds a policy: it has a manager for it already, or gets one. -/
theorem Refilled.found {fresh : List PolicyName} (h : Refilled v w fresh) (hheld : ¬ w.Abandoned)
    {u : Limiter} (hu : u.roster = w.enlisted (some name)) :
    Refilled v u (fresh ++ if name ∈ fresh then [] else [name]) := by
  have hregistered := h.registered.resolve_right fun habandoned => hheld habandoned.2
  have hnames : u.names = (w.enlisted (some name)).1 := congrArg Prod.fst hu
  have hlisted : u.registered = (w.enlisted (some name)).2 := congrArg Prod.snd hu
  unfold enlisted at hnames hlisted
  cases hlookup : w.registered.lookup name with
  | some index =>
    have hmem : name ∈ fresh := by
      by_contra hnot
      rw [hregistered, lookup_zipIdx_eq_none.2 hnot] at hlookup
      cases hlookup
    simp only [hlookup] at hnames hlisted
    rw [if_pos hmem, List.append_nil]
    exact ⟨hnames.trans h.names, .inl (hlisted.trans hregistered)⟩
  | none =>
    have hnot : name ∉ fresh := by
      rw [← lookup_zipIdx_eq_none, ← hregistered]
      exact hlookup
    simp only [hlookup] at hnames hlisted
    rw [if_neg hnot]
    refine ⟨by rw [hnames, h.names, List.append_assoc], .inl ?_⟩
    rw [hlisted, hregistered, h.names, List.zipIdx_append, List.length_append]
    rfl

/-- One move after a stop. -/
theorem Refilled.step {fresh : List PolicyName} (h : Refilled v w fresh)
    (hclosed : w.closed = true) (m : Move) :
    Refilled v (w.step m).1
      (fresh ++ (w.finds? m).elim [] fun name => if name ∈ fresh then [] else [name]) := by
  by_cases hm : ∃ f result, m = .endProbe f result
  · obtain ⟨f, result, rfl⟩ := hm
    have hroster : (w.step (.endProbe f result)).1.roster = _ := endProbe_roster w f result
    by_cases habandoned : w.Abandoned
    · -- there is no search that could find anything
      have hsame : (w.step (.endProbe f result)).1 = w := habandoned.endProbe f result
      have hnone : w.finds? (.endProbe f result) = none := by
        simp only [finds?, probeMark?, if_true, habandoned.discovery?, Option.bind_none]
      rw [hsame, hnone]
      simpa using h
    · cases hfinds : w.finds? (.endProbe f result) with
      | some name => exact h.found habandoned (hfinds ▸ hroster)
      | none =>
        rw [hfinds] at hroster
        have hnames : (w.step (.endProbe f result)).1.names = w.names := congrArg Prod.fst hroster
        have hlisted : (w.step (.endProbe f result)).1.registered = w.registered :=
          congrArg Prod.snd hroster
        refine ⟨by simpa [hnames] using h.names, .inl ?_⟩
        simpa [hlisted] using h.registered.resolve_right fun hleft => habandoned hleft.2
  · have hother (f : Endpoint) (result : Except TransportFailure Reply) : m ≠ .endProbe f result :=
      fun heq => hm ⟨f, result, heq⟩
    have hnone : w.finds? m = none := by
      cases m with
      | endProbe f result => exact absurd rfl (hother f result)
      | _ => rfl
    rw [hnone, Option.elim_none, List.append_nil]
    rcases roster_step hclosed hother with hsame | ⟨hnames, hcleared, habandoned⟩
    · have hnames : (w.step m).1.names = w.names := congrArg Prod.fst hsame
      have hlisted : (w.step m).1.registered = w.registered := congrArg Prod.snd hsame
      refine ⟨hnames.trans h.names, ?_⟩
      rw [hlisted]
      exact h.registered.imp_right fun hleft => ⟨hleft.1, abandoned_step hleft.2 m⟩
    · exact ⟨hnames.trans h.names, .inr ⟨hcleared, habandoned⟩⟩

theorem closed_after (hclosed : v.closed = true) (ns : List Move) : (v.after ns).closed = true := by
  induction ns generalizing v with
  | nil => exact hclosed
  | cons n ns ih => exact ih (closed_stays hclosed n)

/-- After a stop, the register holds one new manager for each policy that a probe found. -/
theorem refilled_run (hclosed : v.closed = true) (hcleared : v.registered = []) (ns : List Move) :
    Refilled v (v.after ns) (v.findings ns).eraseDups := by
  induction ns using List.reverseRecOn with
  | nil => exact ⟨(List.append_nil _).symm, .inl hcleared⟩
  | append_singleton ns n ih =>
    have hstep := ih.step (closed_after hclosed ns) n
    rw [after_append, findings_snoc]
    show Refilled v ((v.after ns).step n).1 _
    cases hfinds : (v.after ns).finds? n with
    | none => simpa [hfinds] using hstep
    | some name =>
      rw [hfinds, Option.elim_some] at hstep
      rw [Option.toList_some, eraseDups_snoc_name]
      simpa only [List.mem_eraseDups] using hstep

/-! ## The searches -/

/-- A search for an endpoint has a probe that is not over. -/
def Probing (w : Limiter) (e : Endpoint) : Prop :=
  ∃ d, w.discovery? e = some d ∧ d.probe.isOver = false

theorem Probing.of_searches (h : v.Probing e) (hsame : v.searches e = w.searches e) :
    w.Probing e := by
  obtain ⟨d, hd, hprobe⟩ := h
  rw [discovery?_eq, hsame, ← discovery?_eq] at hd
  exact ⟨d, hd, hprobe⟩

/-- A probe that goes on was one before. -/
theorem Probing.of_set {p : Probe} (h : v.Probing e)
    (hset : v.discoveries = (w.setDiscovery f p).discoveries)
    (hf : p.isOver = false → w.Probing f) : w.Probing e := by
  have hsearches := (searches_of_discoveries hset e).trans (searches_setDiscovery w f e p)
  by_cases hef : e = f
  · subst hef
    rw [if_pos rfl] at hsearches
    obtain ⟨d, hd, hprobe⟩ := h
    rw [discovery?_eq, hsearches, List.head?_map] at hd
    obtain ⟨-, -, rfl⟩ := Option.map_eq_some_iff.1 hd
    exact hf hprobe
  · exact h.of_searches (hsearches.trans (if_neg hef))

/-- A probe that comes to an end was not over, and is over then. -/
theorem endProbe_discoveries (w : Limiter) (f : Endpoint) (result : Except TransportFailure Reply) :
    ((w.endProbe f result).1 = w ∧ w.probeMark? f (.endProbe f result) = none) ∨
      (w.Probing f ∧ ∃ outcome, (w.endProbe f result).1.discoveries =
        (w.setDiscovery f (.ended outcome)).discoveries) := by
  rcases w.awaiting_or_same f result with ⟨g, signed, hd⟩ | ⟨hsame, hmark⟩
  · refine .inr ⟨⟨_, hd, rfl⟩, ?_⟩
    simp only [endProbe, hd]
    cases result with
    | error cause => exact ⟨_, rfl⟩
    | ok reply =>
      dsimp only
      split
      · exact ⟨_, rfl⟩
      · rename_i policy hpolicy
        refine ⟨_, congrArg (List.map _) ?_⟩
        refine (discoveries_of_core (core_seed _ _ _ _)).trans ?_
        show (w.managerFor (discoverySpan f) policy.name).1.discoveries = w.discoveries
        unfold managerFor
        split <;> rfl
  · exact .inl ⟨congrArg Prod.fst hsame, hmark⟩

/-- No search begins in a limiter that was told to stop, and none is tried again. -/
theorem probing_before (hclosed : w.closed = true) (hshut : w.Shut) (m : Move)
    (h : (w.step m).1.Probing e) : w.Probing e := by
  have hafter := shut_step hshut m
  cases step_searches w m with
  | same hsame => exact h.of_searches (searches_of_discoveries hsame e)
  | began hm hopen => exact absurd hclosed (by rw [hopen]; decide)
  | refused hm hd hprobe hset => exact h.of_set hset (fun hover => nomatch hover)
  | sent hm hd hprobe hset => exact h.of_set hset fun _ => ⟨_, hd, by rw [hprobe]; rfl⟩
  | @ended f result hm =>
    subst hm
    rcases endProbe_discoveries w f result with ⟨hsame, -⟩ | ⟨-, outcome, hset⟩
    · have hw : (w.step (.endProbe f result)).1 = w := hsame
      exact hw ▸ h
    · exact h.of_set hset (fun hover => nomatch hover)
  | @left d f outcome hm hd hprobe hleft =>
    have hsearches := (searches_of_discoveries hleft e).trans (searches_endDiscovery w f e)
    by_cases hef : e = f
    · rw [if_pos hef] at hsearches
      obtain ⟨d, hd, -⟩ := h
      rw [discovery?_eq, hsearches] at hd
      cases hd
    · exact h.of_searches (hsearches.trans (if_neg hef))
  | @retried d f failure request hm hd hprobe hroute =>
    exact absurd (hafter.route? f) hroute

/-- The probe that finds a policy was not over, and is over then. -/
theorem probing_found (h : (w.probeMark? e m).bind ProbeMark.name? = some name) :
    w.Probing e ∧ ¬ (w.step m).1.Probing e := by
  cases m with
  | endProbe f result =>
    by_cases hfe : f = e
    · subst hfe
      rcases endProbe_discoveries w f result with ⟨-, hnone⟩ | ⟨hprobing, outcome, hset⟩
      · rw [hnone] at h
        cases h
      · refine ⟨hprobing, fun hafter => ?_⟩
        have hsearches := (searches_of_discoveries hset f).trans (searches_setDiscovery w f f _)
        rw [if_pos rfl] at hsearches
        obtain ⟨d, hd, hover⟩ := hafter
        rw [discovery?_eq] at hd
        change ((w.endProbe f result).1.searches f).head? = some d at hd
        rw [hsearches, List.head?_map] at hd
        obtain ⟨-, -, rfl⟩ := Option.map_eq_some_iff.1 hd
        cases hover
    · rw [probeMark?, if_neg hfe] at h
      cases h
  | startProbe f =>
    simp only [probeMark?] at h
    split at h
    · split at h
      · obtain ⟨mark, hmark, hname⟩ := Option.bind_eq_some_iff.1 h
        obtain ⟨-, -, rfl⟩ := Option.map_eq_some_iff.1 hmark
        cases hname
      · cases h
    · cases h
  | _ => cases h

theorem advertised_snoc_bind (w : Limiter) (e : Endpoint) (ms : List Move) (m : Move) :
    w.advertised e (ms ++ [m]) =
      w.advertised e ms ++ (((w.after ms).probeMark? e m).bind ProbeMark.name?).toList := by
  rw [advertised_snoc]
  cases (w.after ms).probeMark? e m with
  | none => rfl
  | some mark =>
    rw [Option.toList_some, Option.bind_some, List.filterMap_cons, List.filterMap_nil]
    cases mark.name? <;> rfl

theorem shut_after (hshut : v.Shut) (ns : List Move) : (v.after ns).Shut := by
  induction ns generalizing v with
  | nil => exact hshut
  | cons n ns ih => exact ih (shut_step hshut n)

/-- After a stop, an endpoint's probes find a policy only if one was outstanding then, and that one
alone. -/
theorem advertised_after_stop (hclosed : v.closed = true) (hshut : v.Shut) (e : Endpoint)
    (ns : List Move) :
    ((v.after ns).Probing e → v.Probing e ∧ v.advertised e ns = []) ∧
      ∀ name ∈ v.advertised e ns, v.Probing e ∧ v.advertised e ns = [name] := by
  induction ns using List.reverseRecOn with
  | nil => exact ⟨fun hprobing => ⟨hprobing, rfl⟩, fun name hname => nomatch hname⟩
  | append_singleton ns n ih =>
    rw [after_append, advertised_snoc_bind]
    show (((v.after ns).step n).1.Probing e → _) ∧ _
    cases hfound : ((v.after ns).probeMark? e n).bind ProbeMark.name? with
    | none =>
      rw [Option.toList_none, List.append_nil]
      exact ⟨fun hprobing => ih.1 (probing_before (closed_after hclosed ns) (shut_after hshut ns) n
        hprobing), ih.2⟩
    | some name =>
      obtain ⟨hbefore, hafter⟩ := probing_found hfound
      obtain ⟨hprobing, hnone⟩ := ih.1 hbefore
      rw [hnone, List.nil_append, Option.toList_some]
      refine ⟨fun hstill => absurd hstill hafter, fun other hother => ⟨hprobing, ?_⟩⟩
      rw [List.mem_singleton.1 hother]

/-! ## The aftermath -/

/-- What becomes of a limiter `v` that was told to stop. -/
structure Aftermath (v : Limiter) (ns : List Move) : Prop where
  /-- One manager is made for each policy that a probe finds, and the register shows these alone. -/
  refilled : Refilled v (v.after ns) (v.findings ns).eraseDups
  /-- As long as somebody holds the limiter, it shows that many policies. -/
  shown : ¬ (v.after ns).Abandoned →
    (v.after ns).policies.length = (v.findings ns).eraseDups.length
  /-- Nothing is shown if no probe finds a policy. -/
  silent : v.findings ns = [] → (v.after ns).policies = []
  /-- What is found comes from probes that were outstanding at the stop, one from each. -/
  outstanding : ∀ name ∈ v.findings ns, ∃ e, v.Probing e ∧ v.advertised e ns = [name]

theorem Refilled.length_policies {fresh : List PolicyName} (h : Refilled v w fresh)
    (hregistered : w.registered = fresh.zipIdx v.names.length) :
    w.policies.length = fresh.length := by
  unfold policies snapshots
  rw [List.length_mergeSort, hregistered]
  refine (List.filterMap_length_eq_length.2 ?_).trans List.length_zipIdx
  rintro ⟨name, i⟩ hmem
  have hname : (v.names ++ fresh)[i]? = some name := by
    obtain ⟨hle, hget⟩ := List.mk_mem_zipIdx_iff_le_and_getElem?_sub.1 hmem
    rw [List.getElem?_append_right hle, hget]
  obtain ⟨a, ha, -⟩ := getElem?_names (h.names ▸ hname)
  show ((w.actors[i]?).map (·.snapshot)).isSome = true
  rw [ha]
  rfl

theorem policies_of_cleared (h : w.registered = []) : w.policies = [] := by
  unfold policies snapshots
  rw [h]
  exact List.mergeSort_nil

/-- A limiter that was told to stop makes a manager for each policy that a probe finds which was
outstanding then, and shows it. Without such a probe it shows nothing. -/
theorem register_after_stop (config : Config) (authorizer : Authorizer) (now : Moment)
    (ms ns : List Move) (howners : ((new config authorizer now).after ms).owners ≠ 0)
    (hopen : ((new config authorizer now).after ms).closed = false) :
    Aftermath ((new config authorizer now).after (ms ++ [.shutdown])) ns := by
  generalize hw : (new config authorizer now).after ms = w at howners hopen
  have hstop : (new config authorizer now).after (ms ++ [.shutdown]) = w.shutdown.1 := by
    rw [after_append, hw]
    show (w.step .shutdown).1 = _
    unfold step
    rw [if_neg (by simpa [Move.needsHolder] using howners)]
    rfl
  rw [hstop]
  have hclosed : w.shutdown.1.closed = true := closed_shutdown w
  have hshut : w.shutdown.1.Shut := shut_shutdown w fun h => absurd h (by rw [hopen]; decide)
  have hcleared : w.shutdown.1.registered = [] := by
    unfold shutdown
    rw [if_neg (by rw [hopen]; decide)]
  have hrefilled := refilled_run hclosed hcleared ns
  constructor
  · exact hrefilled
  · intro hheld
    exact hrefilled.length_policies (hrefilled.registered.resolve_right fun h => hheld h.2)
  · intro hnone
    refine policies_of_cleared ?_
    rcases hrefilled.registered with hsame | ⟨hleft, -⟩
    · rw [hsame, hnone]
      rfl
    · exact hleft
  · intro name hname
    obtain ⟨e, he⟩ := mem_findings hname
    exact ⟨e, (advertised_after_stop hclosed hshut e ns).2 name he⟩

/-- A request waits for a probe that is under way. -/
def probingRun : List Move := [.submit plainEndpoint plainRequest, .startProbe plainEndpoint]

/-- The probe comes back with a policy, which is passed on. -/
def lateAnswer : List Move := [.endProbe plainEndpoint (.ok (sharedReply 1)), .settle plainEndpoint]

/-- A manager is made for the policy after the stop. It runs, and was not told to stop. -/
theorem register_after_stop_probingRun :
    ((new .default .none 0).after probingRun).owners ≠ 0 ∧
      ((new .default .none 0).after probingRun).closed = false ∧
      Aftermath ((new .default .none 0).after (probingRun ++ [.shutdown])) lateAnswer ∧
      ((new .default .none 0).after (probingRun ++ [.shutdown])).policies = [] ∧
      ((new .default .none 0).after (probingRun ++ .shutdown :: lateAnswer)).policies.map
        (·.policy.name.text) = ["s"] ∧
      ((new .default .none 0).after (probingRun ++ .shutdown :: lateAnswer)).actors.map
        (fun a => (a.stage, a.mailbox)) = [(.running, [.seed (sharedReply 1)])] := by
  have howners : ((new .default .none 0).after probingRun).owners ≠ 0 := by decide +kernel
  have hopen : ((new .default .none 0).after probingRun).closed = false := by decide +kernel
  exact ⟨howners, hopen, register_after_stop .default .none 0 probingRun lateAnswer howners hopen,
    by decide +kernel, by decide +kernel, by decide +kernel⟩

end Limiter

end Throttle
