import Throttle.Proofs.Limiter.Conservation
import Throttle.Proofs.Limiter.Standing

/-!
  The routes, the searches and the register of a limiter fit together in every state in which it
  takes submissions: `Registry`. What a run knows of an endpoint, `Known`, goes with where the
  endpoint stands; every turn keeps it (`known_step`), so every run has it (`known_run`).
-/

namespace Throttle

open Http Actor

/-- It is made from a request, as far as it has come. -/
def Probe.MadeFrom (signer : Option Authorizer) (request : Request) : Probe → Prop
  | starting r => r = request
  | awaiting signed => ∃ authorizer, signer = some authorizer ∧ authorizer request = .ok signed
  | ended _ => True

namespace Limiter

variable {w v : Limiter} {m : Move} {e f : Endpoint} {s t : Standing}

/-! ## What a run knows of an endpoint -/

/-- The marks of the probes of an endpoint in a run, in order. -/
def probeMarks (w : Limiter) (e : Endpoint) : List Move → List ProbeMark
  | [] => []
  | m :: ms => (w.probeMark? e m).toList ++ (w.step m).1.probeMarks e ms

/-- The names that the probes of an endpoint advertised in a run, in order. -/
def advertised (w : Limiter) (e : Endpoint) (ms : List Move) : List PolicyName :=
  (w.probeMarks e ms).filterMap ProbeMark.name?

/-- How many probes of an endpoint were handed to the transport in a run. -/
def probesSent (w : Limiter) (e : Endpoint) (ms : List Move) : Nat :=
  (senders ((w.run ms).2.map (·.what))).count (.probe e)

/-- How many probes of an endpoint came to an end in a run. -/
def probesEnded (w : Limiter) (e : Endpoint) (ms : List Move) : Nat :=
  (w.probeMarks e ms).countP (· ≠ .sent)

/-- The request from which the probe of an endpoint is about to be made. -/
def starts? (w : Limiter) (e : Endpoint) : Option Request :=
  (w.discovery? e).bind (·.probe.starts?)

/-- The request from which the last probe of an endpoint in a run is made. -/
def probeSource (w : Limiter) (e : Endpoint) : List Move → Option Request
  | [] => w.starts? e
  | m :: ms => ((w.step m).1.probeSource e ms).or (w.starts? e)

/-- The authorizer of a limiter, if the probe of an endpoint is sent in a move. -/
def signer? (w : Limiter) (e : Endpoint) (m : Move) : Option Authorizer :=
  if w.probeMark? e m = some .sent then some w.authorizer else none

/-- The authorizer that signed the last probe of an endpoint that was sent in a run. -/
def probeSigner (w : Limiter) (e : Endpoint) : List Move → Option Authorizer
  | [] => none
  | m :: ms => ((w.step m).1.probeSigner e ms).or (w.signer? e m)

theorem probeMarks_snoc (w : Limiter) (e : Endpoint) (ms : List Move) (m : Move) :
    w.probeMarks e (ms ++ [m]) = w.probeMarks e ms ++ ((w.after ms).probeMark? e m).toList := by
  induction ms generalizing w with
  | nil => exact List.append_nil _
  | cons n ms ih => rw [List.cons_append, probeMarks, ih, probeMarks, List.append_assoc]; rfl

theorem probeSource_snoc (w : Limiter) (e : Endpoint) (ms : List Move) (m : Move) :
    w.probeSource e (ms ++ [m]) = ((w.after (ms ++ [m])).starts? e).or (w.probeSource e ms) := by
  induction ms generalizing w with
  | nil => rfl
  | cons n ms ih => rw [List.cons_append, probeSource, ih, probeSource, Option.or_assoc]; rfl

theorem probeSigner_snoc (w : Limiter) (e : Endpoint) (ms : List Move) (m : Move) :
    w.probeSigner e (ms ++ [m]) = ((w.after ms).signer? e m).or (w.probeSigner e ms) := by
  induction ms generalizing w with
  | nil => exact Option.or_none.symm
  | cons n ms ih => rw [List.cons_append, probeSigner, ih, probeSigner, Option.or_assoc]; rfl

theorem count_senders_startProbe (w : Limiter) (e f : Endpoint) :
    (senders (w.startProbe f).2).count (.probe e) =
      (w.probeMark? e (.startProbe f)).toList.countP (· = .sent) := by
  unfold startProbe
  by_cases hef : f = e
  · subst hef
    split
    · rename_i g request hd
      simp only [probeMark?, if_true, hd]
      split
      · rename_i hrefused
        rw [hrefused]
        rfl
      · rename_i signed hsigned
        rw [hsigned]
        exact List.count_singleton_self
    · simp only [probeMark?, if_true]
      rfl
  · have hnone : w.probeMark? e (.startProbe f) = none := if_neg hef
    have hne : Sender.probe f ≠ .probe e := fun heq => hef (Sender.probe.inj heq)
    rw [hnone]
    split
    · split
      · rfl
      · exact List.count_eq_zero.2 fun hmem => hne (List.mem_singleton.1 hmem).symm
    · rfl

/-- A probe is handed to the transport where its mark says so. -/
theorem senders_probe (w : Limiter) (e : Endpoint) (m : Move) :
    (senders (w.step m).2).count (.probe e) =
      (w.probeMark? e m).toList.countP (· = .sent) := by
  cases hm : m.actor? with
  | some k =>
    have hmark : w.probeMark? e m = none := by cases m <;> first | rfl | cases hm
    obtain ⟨d, -, -, hsenders, -⟩ := acting_step hm w
    rw [hmark, hsenders]
    refine List.count_eq_zero.2 fun hmem => ?_
    obtain ⟨id, -, hid⟩ := List.mem_map.1 hmem
    cases hid
  | none =>
    by_cases hstart : ∃ f, m = .startProbe f
    · obtain ⟨f, rfl⟩ := hstart
      exact count_senders_startProbe w e f
    · have hnone : senders (w.step m).2 = [] :=
        (feeding_step hm w).2.resolve_right fun ⟨f, hf, _⟩ => hstart ⟨f, hf⟩
      rw [hnone]
      cases m with
      | startProbe f => exact absurd ⟨f, rfl⟩ hstart
      | endProbe f result =>
        simp only [probeMark?]
        split
        · split <;> rfl
        · rfl
      | _ => rfl

/-- The current probe is made from the oldest request. -/
def Standing.Sourced (signer : Option Authorizer) (source : Option Request) : Standing → Prop
  | .sought p _ probe =>
    source = some p.request.probe ∧ probe.MadeFrom signer p.request.probe
  | _ => True

theorem Stands.starts? (h : w.Stands e s) : w.starts? e = s.starts? := by
  unfold Limiter.starts?
  rw [h.discovery?]
  cases s <;> rfl

theorem Turned.sourced {mark : Option ProbeMark} {signer : Option Authorizer}
    {source : Option Request} (h : Turned w v s t mark) (hs : s.Sourced signer source) :
    t.Sourced ((if mark = some .sent then some w.authorizer else none).or signer)
      (t.starts?.or source) := by
  -- a search that goes on with the same oldest request
  have still {p : Pending} {others others' : List Pending} {probe : Probe}
      (hs : (Standing.sought p others probe).Sourced signer source) :
      (Standing.sought p others' probe).Sourced signer
        ((Standing.sought p others' probe).starts?.or source) := by
    refine ⟨?_, hs.2⟩
    cases probe with
    | starting r => exact congrArg some hs.2
    | awaiting signed => exact hs.1
    | ended outcome => exact hs.1
  cases h with
  | same =>
    cases s with
    | sought p others probe => exact still hs
    | unknown => trivial
    | ready k => trivial
  | gone _ habandoned hidle => trivial
  | began p => exact ⟨rfl, rfl⟩
  | joined p others probe q => exact still hs
  | refused p others request failure => exact ⟨hs.1, trivial⟩
  | @sent p others request signed hsigned =>
    refine ⟨hs.1, w.authorizer, rfl, ?_⟩
    have hrequest : request = p.request.probe := hs.2
    exact hrequest ▸ hsigned
  | failed p others signed failure => exact ⟨hs.1, trivial⟩
  | found p others signed hfound => exact ⟨hs.1, trivial⟩
  | settled p others k => trivial
  | dropped p others failure => trivial
  | retried p q others rest failure => exact ⟨rfl, rfl⟩

/-- A probe is under way from its being sent to its end. -/
theorem Turned.balance {mark : Option ProbeMark} (h : Turned w v s t mark) :
    mark.toList.countP (· = .sent) + s.underWay =
      mark.toList.countP (· ≠ .sent) + t.underWay := by
  cases h with
  | gone _ habandoned hidle => rw [hidle]; rfl
  | _ => rfl

/-- A manager that is there keeps its name. -/
theorem names_step {k : Nat} {name : PolicyName} (h : w.names[k]? = some name) (m : Move) :
    (w.step m).1.names[k]? = some name := by
  cases step_enlists w m with
  | same hsame =>
    have hnames : (w.step m).1.names = w.names := congrArg Prod.fst hsame
    rw [hnames]
    exact h
  | left hnames hcleared habandoned => rw [hnames]; exact h
  | shut hnames hcleared hclosed => rw [hnames]; exact h
  | @made name' hm hnew hsearch hmade =>
    have hnames : (w.step m).1.names = w.names ++ [name'] := congrArg Prod.fst hmade
    rw [hnames, List.getElem?_append_left (List.getElem?_eq_some_iff.1 h).1]
    exact h

theorem advertised_snoc (w : Limiter) (e : Endpoint) (ms : List Move) (m : Move) :
    w.advertised e (ms ++ [m]) = w.advertised e ms ++
      ((w.after ms).probeMark? e m).toList.filterMap ProbeMark.name? := by
  unfold advertised
  rw [probeMarks_snoc, List.filterMap_append]

/-- A manager is found with one probe that named a policy, and was made for its name. -/
def Standing.Named (w : Limiter) (advertised : List PolicyName) (s : Standing) : Prop :=
  match s.manager? with
  | none => w.Abandoned ∨ advertised = []
  | some k => ∃ name, w.names[k]? = some name ∧ advertised = [name]

theorem Standing.Named.step {advertised : List PolicyName} (h : s.Named w advertised) (m : Move) :
    s.Named (w.step m).1 advertised := by
  unfold Standing.Named at h ⊢
  split at h
  · exact h.imp_left fun habandoned => abandoned_step habandoned m
  · obtain ⟨name, hname, hadvertised⟩ := h
    exact ⟨name, names_step hname m, hadvertised⟩

theorem Turned.named {mark : Option ProbeMark} {advertised : List PolicyName}
    (h : Turned w v s t mark) (hs : s.Named v advertised) (hv : v.Stands e t) (hlisted : v.Listed) :
    t.Named v (advertised ++ mark.toList.filterMap ProbeMark.name?) := by
  cases h with
  | gone _ habandoned hidle => exact .inl habandoned
  | @found p others signed name k hlookup =>
    have hheld : ¬ v.Abandoned := hv.held nofun
    obtain ⟨a, ha, rfl⟩ := hlisted.of_lookup hheld hlookup
    rw [hs.resolve_left hheld]
    exact ⟨a.name, names_getElem? ha, rfl⟩
  | _ => rwa [show List.filterMap ProbeMark.name? _ = [] from rfl, List.append_nil]

/-- What a run knows of an endpoint. -/
structure Known (w : Limiter) (ms : List Move) (e : Endpoint) (s : Standing) : Prop where
  stands : (w.after ms).Stands e s
  sourced : s.Sourced (w.probeSigner e ms) (w.probeSource e ms)
  balance : w.probesSent e ms = w.probesEnded e ms + s.underWay
  named : s.Named (w.after ms) (w.advertised e ms)

theorem known_step {ms : List Move} (h : Known w ms e s) (m : Move)
    (hlisted : (w.after (ms ++ [m])).Listed) (hopen : (w.after (ms ++ [m])).closed = false) :
    ∃ t, Known w (ms ++ [m]) e t := by
  have hafter : w.after (ms ++ [m]) = ((w.after ms).step m).1 := after_append w ms [m]
  obtain ⟨t, hstands, hturned⟩ := step_turns h.stands (hafter ▸ hopen)
  refine ⟨t, ⟨hafter ▸ hstands, ?_, ?_, ?_⟩⟩
  · rw [probeSource_snoc, probeSigner_snoc, hafter, hstands.starts?]
    exact hturned.sourced h.sourced
  · have hbalance := hturned.balance
    have hbefore := h.balance
    unfold probesSent probesEnded at hbefore ⊢
    rw [run_snoc_what, senders_append, List.count_append, senders_probe, probeMarks_snoc,
      List.countP_append]
    omega
  · rw [advertised_snoc, hafter]
    exact hturned.named (h.named.step m) hstands (hafter ▸ hlisted)

theorem known_run (config : Config) (authorizer : Authorizer) (now : Moment) (ms : List Move)
    (hopen : ((new config authorizer now).after ms).closed = false) (e : Endpoint) :
    ∃ s, Known (new config authorizer now) ms e s := by
  induction ms using List.reverseRecOn with
  | nil => exact ⟨.unknown, ⟨rfl, rfl⟩, trivial, rfl, .inr rfl⟩
  | append_singleton ms m ih =>
    obtain ⟨s, hs⟩ := ih (open_front hopen)
    exact known_step hs m (listed_run config authorizer now _ hopen) hopen

/-! ## The registry -/

/-- An endpoint that is ready stays so, as long as the limiter is held and takes submissions. -/
theorem ready_run {k : Nat} (h : w.Stands e (.ready k)) (ms : List Move)
    (hopen : (w.after ms).closed = false) :
    (w.after ms).Stands e (.ready k) ∨ (w.after ms).Abandoned := by
  induction ms generalizing w with
  | nil => exact .inl h
  | cons m ms ih =>
    have hafter : ((w.step m).1.after ([] ++ ms)).closed = false := hopen
    obtain ⟨t, hstands, hturned⟩ := step_turns (m := m) h (open_front hafter)
    generalize w.probeMark? e m = mark at hturned
    cases hturned with
    | same => exact ih hstands hopen
    | gone _ habandoned hidle => exact .inr (abandoned_run habandoned ms)

/-- The routes, the searches and the register of a run fit together. -/
structure Registry (w : Limiter) (ms : List Move) : Prop where
  /-- Requests wait for the probe of an endpoint if and only if one search for it goes on. -/
  searched : ∀ e, (∃ waiting, (w.after ms).route? e = some (.discovering waiting)) ↔
    ((w.after ms).searches e).length = 1
  single : ∀ e, ((w.after ms).searches e).length ≤ 1
  /-- Somebody waits then, and the current probe is made from the oldest request; when it was sent, it
  was signed by the authorizer of that moment. -/
  probed : ∀ e waiting, (w.after ms).route? e = some (.discovering waiting) →
    ∃ p others probe, waiting = p :: others ∧ (w.after ms).searches e = [⟨e, probe⟩] ∧
      w.probeSource e ms = some p.request.probe ∧
      probe.MadeFrom (w.probeSigner e ms) p.request.probe
  /-- A ready endpoint is not searched for. Its manager is registered under its name, which is the
  one that the endpoint's one successful probe advertised. -/
  ready : ∀ e k, (w.after ms).route? e = some (.ready k) →
    (w.after ms).searches e = [] ∧ ∃ a, (w.after ms).actors[k]? = some a ∧
      (w.after ms).registered.lookup a.name = some k ∧ w.advertised e ms = [a.name]
  /-- A route to a manager does not change until nobody holds the limiter. -/
  stays : ∀ front back e k, ms = front ++ back → (w.after front).route? e = some (.ready k) →
    (w.after ms).route? e = some (.ready k) ∨ (w.after ms).Abandoned
  /-- Probes of an endpoint are not under way at the same time. -/
  alone : ∀ e, w.probesEnded e ms ≤ w.probesSent e ms ∧ w.probesSent e ms ≤ w.probesEnded e ms + 1
  /-- Endpoints whose probes advertised one name share a manager. -/
  shared : ∀ e f j k name, (w.after ms).route? e = some (.ready j) →
    (w.after ms).route? f = some (.ready k) → name ∈ w.advertised e ms →
    name ∈ w.advertised f ms → j = k
  /-- What a probe came to is passed on to those who wait, never to an endpoint that is ready. -/
  settles : ∀ e d outcome, (w.after ms).discovery? e = some d → d.probe = .ended outcome →
    ∃ waiting, (w.after ms).route? e = some (.discovering waiting)

theorem Known.ready {ms : List Move} {k : Nat} (h : Known w ms e (.ready k))
    (hlisted : (w.after ms).Listed) :
    ∃ a, (w.after ms).actors[k]? = some a ∧ (w.after ms).registered.lookup a.name = some k ∧
      w.advertised e ms = [a.name] := by
  obtain ⟨name, hname, hadvertised⟩ := h.named
  obtain ⟨a, ha, rfl⟩ := getElem?_names hname
  exact ⟨a, ha, hlisted.lookup (h.stands.held nofun) ha, hadvertised⟩

/-- In every state in which a limiter takes submissions, its routes, its searches and its register
fit together. -/
theorem registry_kept (config : Config) (authorizer : Authorizer) (now : Moment) (ms : List Move)
    (hopen : ((new config authorizer now).after ms).closed = false) :
    Registry (new config authorizer now) ms := by
  have hlisted := listed_run config authorizer now ms hopen
  have hknown := known_run config authorizer now ms hopen
  constructor
  · intro e
    obtain ⟨s, hs⟩ := hknown e
    rw [hs.stands.searches, hs.stands.route]
    cases s <;> simp [Standing.route?, Standing.probe?]
  · intro e
    obtain ⟨s, hs⟩ := hknown e
    rw [hs.stands.searches, List.length_map]
    exact Option.length_toList_le
  · intro e waiting hroute
    obtain ⟨s, hs⟩ := hknown e
    obtain ⟨p, others, probe, rfl, rfl⟩ := hs.stands.of_waiting hroute
    exact ⟨p, others, probe, rfl, hs.stands.searches, hs.sourced.1, hs.sourced.2⟩
  · intro e k hroute
    obtain ⟨s, hs⟩ := hknown e
    obtain rfl := hs.stands.of_ready hroute
    exact ⟨hs.stands.searches, hs.ready hlisted⟩
  · rintro front back e k rfl hroute
    obtain ⟨s, hs⟩ := known_run config authorizer now front (open_front hopen) e
    obtain rfl := hs.stands.of_ready hroute
    rw [after_append] at hopen ⊢
    exact (ready_run hs.stands back hopen).imp_left Stands.route
  · intro e
    obtain ⟨s, hs⟩ := hknown e
    have hbalance := hs.balance
    have hle : s.underWay ≤ 1 := s.underWay_le
    omega
  · intro e f j k name he hf hname hname'
    obtain ⟨s, hs⟩ := hknown e
    obtain ⟨t, ht⟩ := hknown f
    obtain rfl := hs.stands.of_ready he
    obtain rfl := ht.stands.of_ready hf
    obtain ⟨a, -, hj, hadvertised⟩ := hs.ready hlisted
    obtain ⟨b, -, hk, hadvertised'⟩ := ht.ready hlisted
    rw [hadvertised, List.mem_singleton] at hname
    rw [hadvertised', List.mem_singleton] at hname'
    rw [← hname] at hj
    rw [← hname', hj] at hk
    exact Option.some.inj hk
  · intro e d outcome hd hprobe
    obtain ⟨s, hs⟩ := hknown e
    obtain ⟨p, others, rfl⟩ := hs.stands.of_discovery? hd
    exact ⟨p :: others, hs.stands.route⟩

/-- Two requests wait for one endpoint. Its first probe fails, the second names the policy; the
probe of another endpoint is under way. -/
def searchedRun : List Move :=
  [.submit plainEndpoint plainRequest, .submit plainEndpoint plainRequest,
    .startProbe plainEndpoint, .submit otherEndpoint plainRequest,
    .endProbe plainEndpoint (.ok { sharedReply 1 with status := 500 }), .settle plainEndpoint,
    .submit plainEndpoint plainRequest, .startProbe otherEndpoint, .startProbe plainEndpoint,
    .cancel 2, .endProbe plainEndpoint (.ok (sharedReply 1)), .settle plainEndpoint]

/-- The first endpoint is ready after two probes, and the other one is searched for. -/
theorem registry_kept_searchedRun :
    ((new .default .none 0).after searchedRun).closed = false ∧
      Registry (new .default .none 0) searchedRun ∧
      ((new .default .none 0).after searchedRun).route? plainEndpoint = some (.ready 0) ∧
      (new .default .none 0).probesSent plainEndpoint searchedRun = 2 ∧
      ((new .default .none 0).advertised plainEndpoint searchedRun).map (·.text) = ["s"] ∧
      (new .default .none 0).probesSent otherEndpoint searchedRun = 1 ∧
      (new .default .none 0).probesEnded otherEndpoint searchedRun = 0 := by
  have hopen : ((new .default .none 0).after searchedRun).closed = false := by decide +kernel
  exact ⟨hopen, registry_kept .default .none 0 searchedRun hopen, by decide +kernel,
    by decide +kernel, by decide +kernel, by decide +kernel, by decide +kernel⟩

end Limiter

end Throttle
