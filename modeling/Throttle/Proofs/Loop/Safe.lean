import Throttle.Proofs.Limiter.Room
import Throttle.Proofs.Limiter.Searching
import Throttle.Proofs.Loop.Tracking

/-!
  In a closed loop the server never answers 429. There is only one probe that is sent, and only one
  manager; at most one request is under way. `Safe` is what every run keeps: whenever something is
  on its way to the server, the server accepts it, whenever it arrives.
-/

namespace Throttle

open Http Actor

namespace Limiter

variable {w : Limiter} {m : Move} {a : Actor} {e : Endpoint}

/-! ## Limiters with one manager -/

theorem first_of_one (hactors : w.actors = [a]) : w.actors[0]? = some a := by
  rw [hactors]
  rfl

theorem actors_of_none (hactors : w.actors = []) (hm : m.probeReply? = none) :
    (w.step m).1.actors = [] := by
  apply List.ext_getElem?
  intro i
  have hnone : w.actors[i]? = none := by rw [hactors]; rfl
  exact step_makes_none hm hnone

theorem actors_of_one (hactors : w.actors = [a]) (hm : m.probeReply? = none) :
    ∃ b, (w.step m).1.actors = [b] ∧ Touch w m 0 b := by
  obtain ⟨b, hb⟩ := step_keeps w m (first_of_one hactors)
  refine ⟨b, List.ext_getElem? ?_, step_touches w m 0 hb⟩
  intro i
  cases i with
  | zero => exact hb
  | succ i =>
    have hnone : w.actors[i + 1]? = none := by rw [hactors]; rfl
    exact step_makes_none hm hnone

/-- A manager that is not there sends nothing. -/
theorem senders_acting {k : Nat} (hactor : m.actor? = some k) (hnone : w.actors[k]? = none) :
    senders (w.step m).2 = [] := by
  obtain ⟨d, -, -, hsenders, -⟩ := acting_step hactor w
  rw [hsenders, hnone]
  rfl

/-- The reply of the first probe makes the first manager. -/
theorem endProbe_found {signed : Request} {reply : Reply} {ws : List Window}
    (hactors : w.actors = []) (hregistered : w.registered = [])
    (hseeks : w.Seeks e (some (.awaiting signed))) (htells : Tells ws reply)
    (hsuccess : reply.isSuccess = true) :
    ∃ name, (w.endProbe e (.ok reply)).1 =
      { w with
        actors := [(Actor.new name).post (.seed reply)]
        registered := [(name, 0)]
        discoveries := [⟨e, .ended (.ok 0)⟩] } := by
  obtain ⟨p, hdeclared, -⟩ := htells.declared
  have hdiscovery : w.discovery? e = some ⟨e, .awaiting signed⟩ := by
    unfold discovery?
    rw [hseeks]
    simp
  have hpolicy : probePolicy e signed reply = .ok p := by
    unfold Manager.declaration at hdeclared
    split at hdeclared
    · rename_i hnames
      unfold probePolicy
      simp only [hsuccess, hnames, Option.some.inj hdeclared]
      rfl
    · cases hdeclared
  refine ⟨p.name, ?_⟩
  unfold endProbe
  rw [hdiscovery]
  dsimp only
  rw [hpolicy]
  unfold managerFor
  rw [hregistered, hactors]
  unfold seed setDiscovery
  simp only [List.lookup_nil]
  rw [hseeks]
  simp [Actor.isOpen, Actor.new]

end Limiter

namespace Loop

variable {ws : List Window} {e : Endpoint} {l : Loop} {m : Throttle.Move} {x y : Option Probe}
  {sender : Sender} {reply : Reply} {a b : Actor}

/-! ## The invariant -/

/-- What is on the way between the limiter and the server, in either direction. -/
def flight (l : Loop) : List Sender := l.transit ++ l.replies.map (·.1)

/-- What the loop has of its only manager: a request is on its way exactly if the manager waits for
its reply, and as long as the manager runs, it is new or follows the server. -/
structure Managed (ws : List Window) (l : Loop) (a : Actor) : Prop where
  flight : l.flight = a.outstanding.map (.manager 0)
  single : a.outstanding.length ≤ 1
  known : a.stage = .running →
    Fresh ws l.accepted a ∨ Follows ws l.accepted (l.replies.map (·.2)) a

/-- How far the loop has come, next to the search for the policy. -/
inductive Stage (ws : List Window) (e : Endpoint) (l : Loop) : Option Probe → Prop where
  /-- No probe was sent. -/
  | searching {x : Option Probe} (hactors : l.limiter.actors = [])
      (hregistered : l.limiter.registered = []) (haccepted : l.accepted = [])
      (hflight : l.flight = [])
      (hsearch : ∀ p, x = some p →
        (∃ request, p = .starting request) ∨ ∃ failure, p = .ended (.error failure)) :
      Stage ws e l x
  /-- The probe is on its way, or its reply. -/
  | probing (signed : Request) (hactors : l.limiter.actors = [])
      (hregistered : l.limiter.registered = []) (hflight : l.flight = [.probe e])
      (haccepted : l.accepted = l.replies.map (·.2.date))
      (htells : ∀ r ∈ l.replies, Tells ws r.2 ∧ r.2.isSuccess = true) :
      Stage ws e l (some (.awaiting signed))
  /-- There is a manager, and no other search begins. -/
  | managed {x : Option Probe} (a : Actor) (hactors : l.limiter.actors = [a])
      (hmanaged : Managed ws l a) (hbarred : l.limiter.Barred e)
      (hsearch : ∀ p, x = some p → ∃ k, p = .ended (.ok k)) : Stage ws e l x

/-- How far the loop has come, whatever the clock of the server shows. -/
structure Staged (ws : List Window) (e : Endpoint) (l : Loop) : Prop where
  run : ∃ config authorizer now ms, l.limiter = (Limiter.new config authorizer now).after ms
  falling : History.Falling l.accepted
  stage : ∃ x, l.limiter.Seeks e x ∧ (x ≠ none → l.limiter.Barred e) ∧ Stage ws e l x

/-- What every run of the loop keeps. -/
structure Safe (ws : List Window) (e : Endpoint) (l : Loop) : Prop where
  run : ∃ config authorizer now ms, l.limiter = (Limiter.new config authorizer now).after ms
  refused : l.refused = []
  falling : History.Falling l.accepted
  past : ∀ d ∈ l.accepted, d ≤ l.limiter.now
  /-- The server accepts what is on its way, whenever it arrives. -/
  room : l.transit ≠ [] → ∀ u, l.limiter.now ≤ u → Accepts ws l.accepted u
  stage : ∃ x, l.limiter.Seeks e x ∧ (x ≠ none → l.limiter.Barred e) ∧ Stage ws e l x

theorem staged_start (ws : List Window) (e : Endpoint) (config : Config) (authorizer : Authorizer)
    (now : Moment) : Staged ws e (start config authorizer now) where
  run := ⟨config, authorizer, now, [], rfl⟩
  falling := .nil
  stage := ⟨none, rfl, fun h => absurd rfl h, .searching rfl rfl rfl rfl nofun⟩

theorem safe_start (ws : List Window) (e : Endpoint) (config : Config) (authorizer : Authorizer)
    (now : Moment) : Safe ws e (start config authorizer now) where
  run := (staged_start ws e config authorizer now).run
  refused := rfl
  falling := .nil
  past := List.forall_mem_nil _
  room h := absurd rfl h
  stage := (staged_start ws e config authorizer now).stage

theorem Safe.staged (h : Safe ws e l) : Staged ws e l := ⟨h.run, h.falling, h.stage⟩

theorem Staged.closed (h : Staged ws e l) : l.limiter.closed = true → l.limiter.Shut := by
  obtain ⟨config, authorizer, now, ms, hrun⟩ := h.run
  have hlined := Limiter.lined_run (w := .new config authorizer now) rfl rfl ms
  rw [hrun]
  exact hlined.closed

theorem Staged.run_step (h : Staged ws e l) (m : Throttle.Move) :
    ∃ config authorizer now ms,
      (l.limiter.step m).1 = (Limiter.new config authorizer now).after ms := by
  obtain ⟨config, authorizer, now, ms, hrun⟩ := h.run
  refine ⟨config, authorizer, now, ms ++ [m], ?_⟩
  rw [Limiter.after_append, ← hrun]
  rfl

theorem sound_of_run {w : Limiter}
    (h : ∃ config authorizer now ms, w = (Limiter.new config authorizer now).after ms)
    (ha : w.actors[0]? = some a) :
    Sound w.now a ∧ (a.stage = .running → a.manager.history.Tidy) := by
  obtain ⟨config, authorizer, now, ms, rfl⟩ := h
  exact ⟨Limiter.sound_run (w := .new config authorizer now) rfl ms ha,
    Limiter.tidy_run (w := .new config authorizer now) rfl ms ha⟩

/-- At most one thing is on its way. -/
theorem Stage.length_le (h : Stage ws e l x) : l.flight.length ≤ 1 := by
  cases h with
  | searching hactors hregistered haccepted hflight hsearch => simp [hflight]
  | probing signed hactors hregistered hflight haccepted htells => simp [hflight]
  | managed a hactors hmanaged hbarred hsearch =>
    rw [hmanaged.flight, List.length_map]
    exact hmanaged.single

theorem eq_singleton {α : Type} {as : List α} {a : α} (hmem : a ∈ as) (hle : as.length ≤ 1) :
    as = [a] := by
  have hpos := List.length_pos_of_mem hmem
  have hone : as.length = 1 := by omega
  obtain ⟨b, rfl⟩ := List.length_eq_one_iff.1 hone
  rw [List.mem_singleton.1 hmem]

theorem Stage.of_transit (h : Stage ws e l x) (hmem : sender ∈ l.transit) :
    l.transit = [sender] ∧ l.replies = [] := by
  have hle := h.length_le
  unfold flight at hle
  rw [List.length_append, List.length_map] at hle
  have hpos := List.length_pos_of_mem hmem
  have hnone : l.replies.length = 0 := by omega
  exact ⟨eq_singleton hmem (by omega), List.eq_nil_of_length_eq_zero hnone⟩

theorem Stage.of_replies (h : Stage ws e l x) (hmem : (sender, reply) ∈ l.replies) :
    l.transit = [] ∧ l.replies = [(sender, reply)] := by
  have hle := h.length_le
  unfold flight at hle
  rw [List.length_append, List.length_map] at hle
  have hpos := List.length_pos_of_mem hmem
  have hnone : l.transit.length = 0 := by omega
  exact ⟨List.eq_nil_of_length_eq_zero hnone, eq_singleton hmem (by omega)⟩

theorem Stage.flight_of_transit (h : Stage ws e l x) (hmem : sender ∈ l.transit) :
    l.flight = [sender] := by
  obtain ⟨htransit, hreplies⟩ := h.of_transit hmem
  unfold flight
  rw [htransit, hreplies]
  rfl

theorem Stage.flight_of_replies (h : Stage ws e l x) (hmem : (sender, reply) ∈ l.replies) :
    l.flight = [sender] := by
  obtain ⟨htransit, hreplies⟩ := h.of_replies hmem
  unfold flight
  rw [htransit, hreplies]
  rfl

/-! ## Moves of the limiter -/

theorem probeReply?_of_isFree (hm : m.isFree e = true) : m.probeReply? = none := by
  cases m with
  | endProbe f result => cases hm
  | _ => rfl

theorem ne_endProbe_of_isFree (hm : m.isFree e = true) (f : Endpoint)
    (result : Except TransportFailure Reply) : m ≠ .endProbe f result := by
  rintro rfl
  cases hm

/-- The planned instant of a running manager has come. -/
structure Ready (now : Moment) (a : Actor) : Prop where
  running : a.stage = .running
  came : ∃ t, a.manager.phase = .activating t ∧ t ≤ now

/-- A manager sends when the planned instant has come. -/
theorem Managed.ready (h : Managed ws l a) {now : Moment} {d : Deed} {ns : List Mark} {id : Nat}
    (hchange : Change a d b ns) (hs : Sound now a) (hid : id ∈ sentIn ns) : Ready now a := by
  obtain ⟨hrunning, -, t, hdue, hcame⟩ := hchange.sends_due hs hid
  rcases h.known hrunning with hfresh | hfollows
  · obtain ⟨name, hname⟩ := hfresh.manager
    rw [hname] at hdue
    cases hdue
  · exact ⟨hrunning, t, hfollows.plain.activating_of_due hdue, hcame⟩

/-- From the planned instant on, the server accepts. -/
theorem Managed.accepts (h : Managed ws l a) {now u : Moment} (hready : Ready now a)
    (hu : now ≤ u) : Accepts ws l.accepted u := by
  obtain ⟨hrunning, t, hphase, hcame⟩ := hready
  rcases h.known hrunning with hfresh | hfollows
  · obtain ⟨name, hname⟩ := hfresh.manager
    rw [hname] at hphase
    cases hphase
  · exact hfollows.planned t hphase u (Int.le_trans hcame hu)

/-- A deed of the manager, other than the end of a transmission. -/
theorem Managed.acted (h : Managed ws l a) {d : Deed} {ns : List Mark} {l' : Loop}
    (hchange : Change a d b ns) (hfeeds : ¬ d.Feeds) (hreturned : ∀ id result, d ≠ .returned id result)
    {now now' : Moment} (hs : Sound now a) (hs' : Sound now' b)
    (htidy : a.stage = .running → a.manager.history.Tidy) (hfalling : History.Falling l.accepted)
    (hpos : ∀ w ∈ ws, 1 ≤ w.hits.toNat) (haccepted : l'.accepted = l.accepted)
    (hreplies : l'.replies = l.replies)
    (htransit : l'.transit = l.transit ++ (sentIn ns).map (.manager 0)) : Managed ws l' b := by
  have hout := hchange.outstanding_eq hreturned
  have hsingle : b.outstanding.length ≤ 1 := by
    cases hsent : sentIn ns with
    | nil =>
      rw [hout, hsent, List.append_nil]
      exact h.single
    | cons id ids =>
      have hid : id ∈ sentIn ns := by rw [hsent]; exact List.mem_cons_self
      obtain ⟨-, hrunning, -⟩ := hchange.sends_due hs hid
      obtain ⟨-, -, hcount, -⟩ := (hs'.wired hrunning).counts
      split at hcount <;> omega
  refine ⟨?_, hsingle, ?_⟩
  · -- what is sent joins what is on its way to the server; then nothing was on its way
    have hflight := h.flight
    unfold Loop.flight at hflight ⊢
    rw [htransit, hreplies, hout, List.map_append, ← hflight]
    cases hsent : sentIn ns with
    | nil => simp
    | cons id ids =>
      rw [hout, hsent, List.length_append, List.length_cons] at hsingle
      have hnone : a.outstanding = [] := List.eq_nil_of_length_eq_zero (by omega)
      rw [hnone] at hflight
      obtain ⟨ht, hr⟩ := List.append_eq_nil_iff.1 hflight
      rw [ht, hr, List.append_nil]
      rfl
  · intro hstage
    have hincoming : a.outstanding = [] → l.replies.map (·.2) = [] := by
      intro hnone
      have hflight := h.flight
      rw [hnone] at hflight
      have hr : l.replies.map (·.1) = [] := (List.append_eq_nil_iff.1 hflight).2
      rw [List.map_eq_nil_iff.1 hr]
      rfl
    have hrunning := (hchange.handles hstage).1
    rw [haccepted, hreplies]
    rcases h.known hrunning with hfresh | hfollows
    · rw [hincoming hfresh.outstanding]
      exact hfresh.change hchange hfeeds hs' htidy hpos hstage
    · exact .inr (hfollows.change hchange hfeeds hreturned hs hs' htidy hincoming hfalling hpos hstage)

theorem Managed.fed (h : Managed ws l a) {l' : Loop} {cs : List Command} (connected : Bool)
    (hcs : ∀ reply, .seed reply ∉ cs) (haccepted : l'.accepted = l.accepted)
    (hreplies : l'.replies = l.replies) (htransit : l'.transit = l.transit) :
    Managed ws l' { a with mailbox := a.mailbox ++ cs, connected } := by
  refine ⟨?_, h.single, ?_⟩
  · rw [← h.flight]
    unfold Loop.flight
    rw [htransit, hreplies]
  · intro hstage
    rw [haccepted, hreplies]
    exact (h.known hstage).imp (·.fed connected hcs) (·.fed connected hcs)

/-- A move of the limiter, if no probe is sent in it. -/
theorem Managed.advance (h : Managed ws l a) (hstaged : Staged ws e l)
    (hactors : l.limiter.actors = [a]) (hm : m.isFree e = true)
    (hpos : ∀ w ∈ ws, 1 ≤ w.hits.toNat)
    (hprobes : m.actor? = none → Limiter.senders (l.limiter.step m).2 = []) :
    ∃ b, (l.limiter.step m).1.actors = [b] ∧ Managed ws (l.advance m) b ∧
      (Limiter.senders (l.limiter.step m).2 ≠ [] → Ready l.limiter.now a) := by
  have hreply := probeReply?_of_isFree hm
  obtain ⟨b, hb, htouch⟩ := Limiter.actors_of_one hactors hreply
  have hfirst := Limiter.first_of_one hactors
  have hlast := Limiter.first_of_one hb
  refine ⟨b, hb, ?_⟩
  cases htouch with
  | fed ha hother cs connected hseeds =>
    rw [hfirst] at ha
    cases ha
    have hsilent : Limiter.senders (l.limiter.step m).2 = [] := by
      cases hactor : m.actor? with
      | none => exact hprobes hactor
      | some k =>
        cases k with
        | zero => exact absurd hactor hother
        | succ k => exact Limiter.senders_acting hactor (by rw [hactors]; rfl)
    refine ⟨h.fed connected ?_ rfl rfl ?_, fun hsent => absurd hsilent hsent⟩
    · intro r hr
      have hseed := hseeds r hr
      rw [hreply] at hseed
      cases hseed
    · show l.transit ++ _ = l.transit
      rw [hsilent, List.append_nil]
  | made name hnone hprobe cs connected => exact nomatch hfirst.symm.trans hnone
  | @acted c d ha hacts hd =>
    rw [hfirst] at ha
    cases ha
    have hchange := undergo_change a d
    have hreturned (id : Nat) (result : Except TransportFailure Reply) : d ≠ .returned id result := by
      rintro rfl
      cases m <;> cases hd
      cases hm
    obtain ⟨hs, htidy⟩ := sound_of_run hstaged.run hfirst
    obtain ⟨hs', -⟩ := sound_of_run (hstaged.run_step m) hlast
    obtain ⟨d', hd', -, hsenders, -⟩ := Limiter.acting_step hacts l.limiter
    rw [hd] at hd'
    cases hd'
    rw [hfirst] at hsenders
    have hsent : Limiter.senders (l.limiter.step m).2 = (sentIn (a.marks d)).map (.manager 0) :=
      hsenders
    refine ⟨?_, ?_⟩
    · refine h.acted hchange (Limiter.not_feeds_of_deed? hd) hreturned hs hs' htidy hstaged.falling
        hpos rfl rfl ?_
      rw [← hsent]
      rfl
    · intro hne
      rw [hsent] at hne
      obtain ⟨id, hid⟩ := List.exists_mem_of_ne_nil _ fun hnil => hne (congrArg (List.map _) hnil)
      exact h.ready hchange hs hid

/-- Why something may leave for the server: the server has not accepted anything yet, or the planned
instant of the manager has come. -/
inductive Leaves (l : Loop) : Prop where
  | first (haccepted : l.accepted = [])
  | planned (a : Actor) (hactors : l.limiter.actors = [a]) (hready : Ready l.limiter.now a)

/-- A move of the limiter keeps the loop where it is or takes it further, and nothing leaves without
a reason. -/
def Advances (ws : List Window) (e : Endpoint) (l : Loop) (m : Throttle.Move) : Prop :=
  (∃ y, (l.limiter.step m).1.Seeks e y ∧ (y ≠ none → (l.limiter.step m).1.Barred e) ∧
    Stage ws e (l.advance m) y) ∧
  (Limiter.senders (l.limiter.step m).2 ≠ [] → Leaves l)

theorem accepts_nil (hpos : ∀ w ∈ ws, 1 ≤ w.hits.toNat) (u : Moment) : Accepts ws [] u :=
  fun w hw => hpos w hw

/-- A move of the limiter in which a manager acts. -/
theorem Staged.advance_acting (h : Staged ws e l) {k : Nat} (hactor : m.actor? = some k)
    (hm : m.isFree e = true) (hpos : ∀ w ∈ ws, 1 ≤ w.hits.toNat) : Advances ws e l m := by
  obtain ⟨x, hseeks, hbarred, hstage⟩ := h.stage
  obtain ⟨hseeks', hkept⟩ := Limiter.search_acting hseeks hactor
  have hreply := probeReply?_of_isFree hm
  have hdwindles := Limiter.dwindles_step (ne_endProbe_of_isFree hm) l.limiter
  -- without a manager, nothing is sent
  have hsilent (hactors : l.limiter.actors = []) :
      Limiter.senders (l.limiter.step m).2 = [] ∧ (l.advance m).flight = l.flight := by
    have hnone : Limiter.senders (l.limiter.step m).2 = [] :=
      Limiter.senders_acting hactor (by rw [hactors]; rfl)
    refine ⟨hnone, ?_⟩
    unfold flight advance
    rw [hnone, List.append_nil]
  cases hstage with
  | searching hactors hregistered haccepted hflight hsearch =>
    obtain ⟨hnone, hsame⟩ := hsilent hactors
    refine ⟨⟨x, hseeks', hkept ∘ hbarred, ?_⟩, fun hsent => absurd hnone hsent⟩
    exact .searching (Limiter.actors_of_none hactors hreply) (hdwindles.2 hregistered) haccepted
      (hsame.trans hflight) hsearch
  | probing signed hactors hregistered hflight haccepted htells =>
    obtain ⟨hnone, hsame⟩ := hsilent hactors
    refine ⟨⟨_, hseeks', hkept ∘ hbarred, ?_⟩, fun hsent => absurd hnone hsent⟩
    exact .probing signed (Limiter.actors_of_none hactors hreply) (hdwindles.2 hregistered)
      (hsame.trans hflight) haccepted htells
  | managed a hactors hmanaged hshut hsearch =>
    have hprobes (hother : m.actor? = none) : Limiter.senders (l.limiter.step m).2 = [] :=
      nomatch hactor.symm.trans hother
    obtain ⟨b, hb, hmanaged', hready⟩ := hmanaged.advance h hactors hm hpos hprobes
    refine ⟨⟨x, hseeks', hkept ∘ hbarred, ?_⟩, fun hsent => .planned a hactors (hready hsent)⟩
    exact .managed b hb hmanaged' (hkept hshut) hsearch

/-- The search goes on while nothing is on its way. -/
theorem Stage.sought (hactors : (l.limiter.step m).1.actors = [])
    (hregistered : (l.limiter.step m).1.registered = []) (haccepted : l.accepted = [])
    (hflight : l.flight = [])
    (hsearch : ∀ p, x = some p →
      (∃ request, p = .starting request) ∨ ∃ failure, p = .ended (.error failure))
    (hsought : Limiter.Sought l.limiter e x y (Limiter.senders (l.limiter.step m).2)) :
    Stage ws e (l.advance m) y := by
  have hsent : (l.advance m).flight =
      l.transit ++ Limiter.senders (l.limiter.step m).2 ++ l.replies.map (·.1) := rfl
  obtain ⟨htransit, hreplies⟩ := List.append_eq_nil_iff.1 hflight
  rw [htransit, hreplies, List.append_nil, List.nil_append] at hsent
  generalize Limiter.senders (l.limiter.step m).2 = probes at hsought hsent
  cases hsought with
  | still x => exact .searching hactors hregistered haccepted hsent hsearch
  | began request hopen =>
    refine .searching hactors hregistered haccepted hsent ?_
    intro p hp
    exact .inl ⟨request, (Option.some.inj hp).symm⟩
  | refused request failure =>
    refine .searching hactors hregistered haccepted hsent ?_
    intro p hp
    exact .inr ⟨failure, (Option.some.inj hp).symm⟩
  | sent request signed =>
    have hnone : (l.advance m).replies = [] := List.map_eq_nil_iff.1 hreplies
    refine .probing signed hactors hregistered hsent ?_ ?_
    · rw [hnone]
      exact haccepted
    · rw [hnone]
      exact List.forall_mem_nil _
  | left outcome => exact .searching hactors hregistered haccepted hsent nofun
  | retried failure request =>
    refine .searching hactors hregistered haccepted hsent ?_
    intro p hp
    exact .inl ⟨request, (Option.some.inj hp).symm⟩

/-- Once there is a manager, the search is over, or it is left in this move. -/
theorem sought_over {w : Limiter} {probes : List Sender} (h : Limiter.Sought w e x y probes)
    (hbarred : w.Barred e) (hsearch : ∀ p, x = some p → ∃ k, p = .ended (.ok k)) :
    probes = [] ∧ ∀ p, y = some p → ∃ k, p = .ended (.ok k) := by
  cases h with
  | still x => exact ⟨rfl, hsearch⟩
  | began request hopen => exact absurd hbarred hopen
  | refused request failure => exact nomatch hsearch _ rfl
  | sent request signed => exact nomatch hsearch _ rfl
  | left outcome => exact ⟨rfl, nofun⟩
  | retried failure request => exact nomatch hsearch _ rfl

/-- A move of the limiter in which no manager acts. -/
theorem Staged.advance_feeding (h : Staged ws e l) (hactor : m.actor? = none)
    (hm : m.isFree e = true) (hpos : ∀ w ∈ ws, 1 ≤ w.hits.toNat) : Advances ws e l m := by
  obtain ⟨x, hseeks, hbarred, hstage⟩ := h.stage
  have hreply := probeReply?_of_isFree hm
  have hend := ne_endProbe_of_isFree hm
  have hsubmit (f : Endpoint) (r : Request) (hf : m = .submit f r) : f = e := by
    subst hf
    exact of_decide_eq_true hm
  have hdwindles := Limiter.dwindles_step hend l.limiter
  obtain ⟨y, hseeks', hsought, hlater, hkept⟩ :=
    Limiter.search_step hseeks hactor hsubmit hend h.closed hbarred
  cases hstage with
  | searching hactors hregistered haccepted hflight hsearch =>
    have hafter : Stage ws e (l.advance m) y :=
      .sought (Limiter.actors_of_none hactors hreply) (hdwindles.2 hregistered) haccepted hflight
        hsearch hsought
    exact ⟨⟨y, hseeks', hlater, hafter⟩, fun _ => .first haccepted⟩
  | probing signed hactors hregistered hflight haccepted htells =>
    generalize hsenders : Limiter.senders (l.limiter.step m).2 = probes at hsought
    cases hsought
    have hsame : (l.advance m).flight = l.flight := by
      unfold flight advance
      rw [hsenders, List.append_nil]
    have hafter : Stage ws e (l.advance m) (some (.awaiting signed)) :=
      .probing signed (Limiter.actors_of_none hactors hreply) (hdwindles.2 hregistered)
        (hsame.trans hflight) haccepted htells
    exact ⟨⟨_, hseeks', hlater, hafter⟩, fun hsent => absurd hsenders hsent⟩
  | managed a hactors hmanaged hshut hsearch =>
    have hended (failure : Failure) : x ≠ some (.ended (.error failure)) := by
      rintro rfl
      obtain ⟨k, hk⟩ := hsearch _ rfl
      cases hk
    obtain ⟨hsilent, hsearch'⟩ := sought_over hsought hshut hsearch
    obtain ⟨b, hb, hmanaged', hready⟩ := hmanaged.advance h hactors hm hpos fun _ => hsilent
    have hafter : Stage ws e (l.advance m) y :=
      .managed b hb hmanaged' (hkept hshut hended) hsearch'
    exact ⟨⟨y, hseeks', hlater, hafter⟩, fun hsent => .planned a hactors (hready hsent)⟩

theorem Staged.advances (h : Staged ws e l) (hm : m.isFree e = true)
    (hpos : ∀ w ∈ ws, 1 ≤ w.hits.toNat) : Advances ws e l m := by
  cases hactor : m.actor? with
  | some k => exact h.advance_acting hactor hm hpos
  | none => exact h.advance_feeding hactor hm hpos

theorem Staged.advance (h : Staged ws e l) (hm : m.isFree e = true)
    (hpos : ∀ w ∈ ws, 1 ≤ w.hits.toNat) : Staged ws e (l.advance m) :=
  ⟨h.run_step m, h.falling, (h.advances hm hpos).1⟩

/-- The only manager of the loop. -/
theorem Staged.managed (h : Staged ws e l) (hactors : l.limiter.actors = [a]) : Managed ws l a := by
  obtain ⟨x, -, -, hstage⟩ := h.stage
  cases hstage with
  | searching hnone hregistered haccepted hflight hsearch => exact nomatch hactors.symm.trans hnone
  | probing signed hnone hregistered hflight haccepted htells =>
    exact nomatch hactors.symm.trans hnone
  | managed b hb hmanaged hbarred hsearch =>
    obtain rfl : a = b := List.head_eq_of_cons_eq (hactors.symm.trans hb)
    exact hmanaged

/-- What may leave is accepted, whenever it arrives. -/
theorem Staged.accepts (h : Staged ws e l) (hpos : ∀ w ∈ ws, 1 ≤ w.hits.toNat)
    (hleaves : Leaves l) {u : Moment} (hu : l.limiter.now ≤ u) : Accepts ws l.accepted u := by
  cases hleaves with
  | first haccepted =>
    rw [haccepted]
    exact accepts_nil hpos u
  | planned a hactors hready => exact (h.managed hactors).accepts hready hu

/-- Something is on its way after a move: it was before, or it leaves in the move. -/
theorem transit_advance (htransit : (l.advance m).transit ≠ []) :
    l.transit ≠ [] ∨ Limiter.senders (l.limiter.step m).2 ≠ [] := by
  by_contra hnot
  obtain ⟨hbefore, hnone⟩ := not_or.1 hnot
  refine htransit ?_
  show l.transit ++ _ = []
  rw [not_not.1 hbefore, not_not.1 hnone]
  rfl

theorem Safe.advance (h : Safe ws e l) (hm : m.isFree e = true)
    (hpos : ∀ w ∈ ws, 1 ≤ w.hits.toNat) : Safe ws e (l.advance m) where
  run := h.staged.run_step m
  refused := h.refused
  falling := h.falling
  past d hd := Int.le_trans (h.past d hd) (Limiter.now_step l.limiter m)
  room := by
    intro htransit u hu
    have hlater : l.limiter.now ≤ u := Int.le_trans (Limiter.now_step l.limiter m) hu
    rcases transit_advance htransit with hbefore | hsent
    · exact h.room hbefore u hlater
    · exact h.staged.accepts hpos ((h.staged.advances hm hpos).2 hsent) hlater
  stage := (h.staged.advance hm hpos).stage

/-! ## Arrivals at the server -/

/-- An arrival that the server accepts keeps the loop where it is. -/
theorem Stage.arrived (h : Stage ws e l x) (hrun : ∃ config authorizer now ms,
      l.limiter = (Limiter.new config authorizer now).after ms) (hmem : sender ∈ l.transit)
    {t : Moment} (hgrants : Grants ws (t :: l.accepted) t sender reply) :
    Stage ws e
      { l with
        accepted := t :: l.accepted
        transit := []
        replies := [(sender, reply)] } x := by
  obtain ⟨htransit, hreplies⟩ := h.of_transit hmem
  have hdate := hgrants.date
  have htold := hgrants.tells
  have hflight := h.flight_of_transit hmem
  cases h with
  | searching hactors hregistered haccepted hnone hsearch => exact nomatch hflight.symm.trans hnone
  | probing signed hactors hregistered hprobe haccepted htells =>
    have hsender : [sender] = [.probe e] := hflight.symm.trans hprobe
    refine .probing signed hactors hregistered hsender ?_ ?_
    · rw [haccepted, hreplies]
      exact congrArg (· :: []) hdate.symm
    · intro r hr
      rw [List.mem_singleton.1 hr]
      refine ⟨htold, hgrants.success ?_⟩
      rw [List.head_eq_of_cons_eq hsender]
      rfl
  | managed a hactors hmanaged hshut hsearch =>
    have hout : a.outstanding.map (.manager 0) = [sender] := hmanaged.flight.symm.trans hflight
    refine .managed a hactors ⟨hout.symm, hmanaged.single, ?_⟩ hshut hsearch
    intro hstage
    have hfirst := Limiter.first_of_one hactors
    obtain ⟨hs, -⟩ := sound_of_run hrun hfirst
    have hsome : a.outstanding ≠ [] := by
      intro hnone
      rw [hnone] at hout
      cases hout
    rcases hmanaged.known hstage with hfresh | hfollows
    · exact absurd hfresh.outstanding hsome
    · rw [hreplies] at hfollows
      have harrived := hfollows.arrived hs hstage hsome htold
      rw [hdate] at harrived
      exact .inr harrived

theorem Staged.arrived (h : Staged ws e l) (hmem : sender ∈ l.transit) {t : Moment}
    (hpast : ∀ d ∈ l.accepted, d ≤ t) (hgrants : Grants ws (t :: l.accepted) t sender reply) :
    Staged ws e
      { l with
        accepted := t :: l.accepted
        transit := l.transit.erase sender
        replies := l.replies ++ [(sender, reply)] } := by
  obtain ⟨x, hseeks, hbarred, hstage⟩ := h.stage
  obtain ⟨htransit, hreplies⟩ := hstage.of_transit hmem
  have hafter := hstage.arrived h.run hmem hgrants
  rw [htransit, hreplies, List.erase_cons_head]
  exact ⟨h.run, List.pairwise_cons.2 ⟨hpast, h.falling⟩, x, hseeks, hbarred, hafter⟩

/-- Once the only thing on its way to the server has arrived, nothing is. -/
theorem Staged.transit_erase (h : Staged ws e l) (hmem : sender ∈ l.transit) :
    l.transit.erase sender = [] := by
  obtain ⟨x, -, -, hstage⟩ := h.stage
  rw [(hstage.of_transit hmem).1, List.erase_cons_head]

/-- Whatever arrives is accepted. -/
theorem Safe.arrive (h : Safe ws e l) (hmem : sender ∈ l.transit) (reply : Reply) :
    Safe ws e (l.arrive ws sender reply) := by
  have haccepts : Accepts ws l.accepted l.limiter.now :=
    h.room (List.ne_nil_of_mem hmem) _ (Int.le_refl _)
  unfold Loop.arrive
  dsimp only
  rw [if_pos haccepts]
  split
  · rename_i hgrants
    have hstaged := h.staged.arrived hmem h.past hgrants
    have hpast : ∀ d ∈ l.limiter.now :: l.accepted, d ≤ l.limiter.now :=
      List.forall_mem_cons.2 ⟨Int.le_refl _, h.past⟩
    exact ⟨hstaged.run, h.refused, hstaged.falling, hpast,
      fun hsome => absurd (h.staged.transit_erase hmem) hsome, hstaged.stage⟩
  · exact h

/-! ## Replies that come back -/

theorem senders_ended (w : Limiter) (sender : Sender) (reply : Reply) :
    Limiter.senders (w.step (sender.ended reply)).2 = [] := by
  cases sender with
  | probe f =>
    rcases (Limiter.feeding_step (m := .endProbe f (.ok reply)) rfl w).2 with hnone | ⟨g, hg, -⟩
    · exact hnone
    · cases hg
  | manager k id =>
    obtain ⟨d, hd, -, hsenders, -⟩ :=
      Limiter.acting_step (m := .returned k id (.ok reply)) rfl w
    cases hd
    refine hsenders.trans ?_
    cases w.actors[k]? with
    | none => rfl
    | some a =>
      simp only [Option.elim_some, marks]
      split <;> rfl

/-- Nothing is on its way when the only reply has come back. -/
theorem deliver_flight (htransit : l.transit = []) (hreplies : l.replies = [(sender, reply)]) :
    (l.deliver sender reply).transit = [] ∧ (l.deliver sender reply).replies = [] := by
  constructor
  · show l.transit ++ Limiter.senders (l.limiter.step (sender.ended reply)).2 = []
    rw [htransit, senders_ended]
    rfl
  · show l.replies.erase (sender, reply) = []
    rw [hreplies, List.erase_cons_head]

/-- The reply of the probe makes the manager. -/
theorem probe_delivered {signed : Request} (hactors : l.limiter.actors = [])
    (hregistered : l.limiter.registered = []) (hseeks : l.limiter.Seeks e (some (.awaiting signed)))
    (hbarred : l.limiter.Barred e) (haccepted : l.accepted = [reply.date]) (htells : Tells ws reply)
    (hsuccess : reply.isSuccess = true) (htransit : l.transit = [])
    (hreplies : l.replies = [(.probe e, reply)]) :
    ∃ y, (l.deliver (.probe e) reply).limiter.Seeks e y ∧
      (y ≠ none → (l.deliver (.probe e) reply).limiter.Barred e) ∧
      Stage ws e (l.deliver (.probe e) reply) y := by
  obtain ⟨name, hfound⟩ := Limiter.endProbe_found hactors hregistered hseeks htells hsuccess
  obtain ⟨htransit', hreplies'⟩ := deliver_flight htransit hreplies
  have hafter : (l.deliver (.probe e) reply).limiter = _ := hfound
  have hactors' : (l.deliver (.probe e) reply).limiter.actors =
      [(Actor.new name).post (.seed reply)] := by rw [hafter]
  have hseeks' : (l.deliver (.probe e) reply).limiter.Seeks e (some (.ended (.ok 0))) := by
    rw [hafter]
    rfl
  have hbarred' : (l.deliver (.probe e) reply).limiter.Barred e := by
    rw [hafter]
    exact hbarred
  have hfresh : Fresh ws l.accepted ((Actor.new name).post (.seed reply)) :=
    ⟨⟨name, rfl⟩, ⟨reply, [], rfl, nofun, htells, haccepted⟩, rfl, rfl, rfl⟩
  have hmanaged : Managed ws (l.deliver (.probe e) reply) ((Actor.new name).post (.seed reply)) := by
    refine ⟨?_, Nat.zero_le 1, fun _ => .inl hfresh⟩
    unfold Loop.flight
    rw [htransit', hreplies']
    rfl
  refine ⟨_, hseeks', fun _ => hbarred', .managed _ hactors' hmanaged hbarred' ?_⟩
  intro p hp
  exact ⟨0, (Option.some.inj hp).symm⟩

/-- The reply that a manager waits for comes into its inbox. -/
theorem deliver_actors {id : Nat} (hactors : l.limiter.actors = [a]) (hmem : id ∈ a.outstanding) :
    (l.deliver (.manager 0 id) reply).limiter.actors =
      [{ a with
          outstanding := a.outstanding.erase id
          inbox := a.inbox ++ [.reply (.ok reply)] }] := by
  obtain ⟨b, hb, htouch⟩ := Limiter.actors_of_one (m := .returned 0 id (.ok reply)) hactors rfl
  have hfirst := Limiter.first_of_one hactors
  refine hb.trans (congrArg (· :: []) ?_)
  cases htouch with
  | fed ha hother cs connected hseeds => exact absurd rfl hother
  | made name hnone hprobe cs connected =>
    rw [hfirst] at hnone
    cases hnone
  | @acted c d ha hacts hd =>
    rw [hfirst] at ha
    cases ha
    cases hd
    simp only [undergo, Actor.returned, if_pos hmem, Option.getD_some]

/-- The manager gets the reply that it waits for. -/
theorem Managed.returned {id : Nat} (h : Managed ws l a) (hout : a.outstanding = [id])
    (htransit : l.transit = []) (hreplies : l.replies = [(.manager 0 id, reply)]) :
    Managed ws (l.deliver (.manager 0 id) reply)
      { a with
        outstanding := a.outstanding.erase id
        inbox := a.inbox ++ [.reply (.ok reply)] } := by
  obtain ⟨htransit', hreplies'⟩ := deliver_flight htransit hreplies
  have hnone : a.outstanding.erase id = [] := by rw [hout, List.erase_cons_head]
  refine ⟨?_, ?_, ?_⟩
  · unfold Loop.flight
    rw [htransit', hreplies', hnone]
    rfl
  · rw [hnone]
    exact Nat.zero_le 1
  · intro hstage
    rw [hreplies']
    rcases h.known hstage with hfresh | hfollows
    · rw [hfresh.outstanding] at hout
      cases hout
    · rw [hreplies] at hfollows
      exact .inr (hfollows.returned id)

/-- How far the loop has come when a reply has come back. -/
theorem Stage.delivered (h : Stage ws e l x) (hseeks : l.limiter.Seeks e x)
    (hbarred : x ≠ none → l.limiter.Barred e) (hmem : (sender, reply) ∈ l.replies) :
    ∃ y, (l.deliver sender reply).limiter.Seeks e y ∧
      (y ≠ none → (l.deliver sender reply).limiter.Barred e) ∧
      Stage ws e (l.deliver sender reply) y := by
  obtain ⟨htransit, hreplies⟩ := h.of_replies hmem
  have hflight := h.flight_of_replies hmem
  cases h with
  | searching hactors hregistered haccepted hnone hsearch => exact nomatch hflight.symm.trans hnone
  | probing signed hactors hregistered hprobe haccepted htells =>
    obtain rfl : sender = .probe e := List.head_eq_of_cons_eq (hflight.symm.trans hprobe)
    obtain ⟨htold, hsuccess⟩ := htells _ hmem
    rw [hreplies] at haccepted
    exact probe_delivered hactors hregistered hseeks (hbarred nofun) haccepted htold hsuccess
      htransit hreplies
  | managed a hactors hmanaged hshut hsearch =>
    have hout : a.outstanding.map (.manager 0) = [sender] := hmanaged.flight.symm.trans hflight
    obtain ⟨id, hid, rfl⟩ := List.map_eq_singleton_iff.1 hout
    have hmem : id ∈ a.outstanding := by rw [hid]; exact List.mem_cons_self
    have hb : (l.deliver (.manager 0 id) reply).limiter.actors = _ := deliver_actors hactors hmem
    have hmanaged' := hmanaged.returned hid htransit hreplies
    obtain ⟨hseeks', hkept⟩ := Limiter.search_acting hseeks
      (m := .returned 0 id (.ok reply)) (k := 0) rfl
    exact ⟨x, hseeks', fun hx => hkept (hbarred hx), .managed _ hb hmanaged' (hkept hshut) hsearch⟩

theorem Staged.deliver (h : Staged ws e l) (hmem : (sender, reply) ∈ l.replies) :
    Staged ws e (l.deliver sender reply) ∧ (l.deliver sender reply).transit = [] := by
  obtain ⟨x, hseeks, hbarred, hstage⟩ := h.stage
  obtain ⟨htransit, hreplies⟩ := hstage.of_replies hmem
  have hafter := hstage.delivered hseeks hbarred hmem
  exact ⟨⟨h.run_step _, h.falling, hafter⟩, (deliver_flight htransit hreplies).1⟩

/-- A reply comes back to the limiter. -/
theorem Safe.deliver (h : Safe ws e l) (hmem : (sender, reply) ∈ l.replies) :
    Safe ws e (l.deliver sender reply) := by
  obtain ⟨hstaged, htransit⟩ := h.staged.deliver hmem
  have hnow := Limiter.now_step l.limiter (sender.ended reply)
  have hpast (d : Moment) (hd : d ∈ l.accepted) := Int.le_trans (h.past d hd) hnow
  exact ⟨hstaged.run, h.refused, hstaged.falling, hpast, fun hsome => absurd htransit hsome,
    hstaged.stage⟩

/-! ## Every run -/

theorem Safe.step (h : Safe ws e l) (hpos : ∀ w ∈ ws, 1 ≤ w.hits.toNat) (m : Move) :
    Safe ws e (l.step ws e m) := by
  cases m with
  | limiter m =>
    show Safe ws e (if m.isFree e then l.advance m else l)
    split
    · rename_i hm
      exact h.advance hm hpos
    · exact h
  | arrive sender reply =>
    show Safe ws e (if sender ∈ l.transit then l.arrive ws sender reply else l)
    split
    · rename_i hmem
      exact h.arrive hmem reply
    · exact h
  | deliver sender reply =>
    show Safe ws e (if (sender, reply) ∈ l.replies then l.deliver sender reply else l)
    split
    · rename_i hmem
      exact h.deliver hmem
    · exact h

theorem Safe.run_all (h : Safe ws e l) (hpos : ∀ w ∈ ws, 1 ≤ w.hits.toNat) (ms : List Move) :
    Safe ws e (l.run ws e ms) := by
  induction ms generalizing l with
  | nil => exact h
  | cons m ms ih => exact ih (h.step hpos m)

/-- In a closed loop the server never answers 429, neither to the probe nor to a request: whatever
its windows are, as long as each allows something, and whatever else happens, and when. -/
theorem never_refused (ws : List Window) (hpos : ∀ w ∈ ws, 1 ≤ w.hits.toNat) (e : Endpoint)
    (config : Config) (authorizer : Authorizer) (now : Moment) (ms : List Move) :
    ((start config authorizer now).run ws e ms).refused = [] := by
  have hstart := safe_start ws e config authorizer now
  exact (hstart.run_all hpos ms).refused

/-- One hit in ten seconds, and three in a minute. -/
def pacedWindows : List Window := [⟨1, 10, 60⟩, ⟨3, 60, 300⟩]

/-- What a server with these windows answers to the latest of some arrivals. -/
def pacedReply (accepted : List Moment) : Reply :=
  let now := accepted.headD 0
  let items := pacedWindows.map fun w =>
    (⟨w, ⟨.ofNat (w.count accepted now), w.period, 0⟩⟩ : Item)
  { status := 200
    headers := (Policy.ofRules ⟨"paced", by decide⟩ [⟨"r", items⟩]).toHeaders
    body := []
    date := now }

/-- Two submissions. The probe is accepted at the start; the first submission is cancelled while it
waits for the window, the second one leaves in its place and arrives a second later. -/
def pacedRun : List Move :=
  [.limiter (.submit plainEndpoint plainRequest), .limiter (.submit plainEndpoint plainRequest),
    .limiter (.startProbe plainEndpoint), .arrive (.probe plainEndpoint) (pacedReply [0]),
    .deliver (.probe plainEndpoint) (pacedReply [0]), .limiter (.settle plainEndpoint),
    .limiter (.command 0), .limiter (.command 0), .limiter (.command 0), .limiter (.cancel 1),
    .limiter (.elapse 12000000000), .limiter (.ring 0), .limiter (.signal 0),
    .limiter (.elapse 2000000000), .limiter (.ring 0), .limiter (.signal 0),
    .limiter (.elapse 1000000000), .arrive (.manager 0 2) (pacedReply [15000000000, 0])]

/-- Both arrivals are accepted; the second one would have been refused within ten seconds. -/
theorem never_refused_pacedRun :
    (∀ w ∈ pacedWindows, 1 ≤ w.hits.toNat) ∧
      ((start .default .none 0).run pacedWindows plainEndpoint pacedRun).refused = [] ∧
      ((start .default .none 0).run pacedWindows plainEndpoint pacedRun).accepted =
        [15000000000, 0] ∧
      ¬ Accepts pacedWindows [0] 9000000000 := by
  have hpos : ∀ w ∈ pacedWindows, 1 ≤ w.hits.toNat := by decide
  exact ⟨hpos, never_refused pacedWindows hpos _ .default .none 0 pacedRun, by decide +kernel,
    by decide +kernel⟩

end Loop

end Throttle
