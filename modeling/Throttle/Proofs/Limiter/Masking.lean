import Throttle.Proofs.Limiter.Room
import Throttle.Proofs.Manager.Masking

/-!
  Limiters that sign with different bearer tokens. A limiter signs a request when it leaves, with the
  authorizer of the moment; of what it has signed it keeps the probes under way, for the log of a
  rejected probe, which does not show credentials. So every move comes to the same with masked
  credentials as without (`step_masked`, `run_masked`), whatever the authorizer is. Two tokens that
  can stand in a header sign alike when masked, and a world that does not look at credentials cannot
  tell the limiters apart (`tokens_unseen`).
-/

namespace Throttle

open Http

/-! ## What is masked -/

def Probe.masked : Probe → Probe
  | .starting request => .starting request
  | .awaiting signed => .awaiting signed.masked
  | .ended outcome => .ended outcome

def Discovery.masked (d : Discovery) : Discovery := { d with probe := d.probe.masked }

def Happening.masked : Happening → Happening
  | .transmitted sender request => .transmitted sender request.masked
  | h => h

def Move.masked : Move → Move
  | .renew f => .renew f.masked
  | m => m

namespace Limiter

variable {v w : Limiter} {m : Move}

/-- The limiter with an authorizer that signs out of sight. Only the probes under way hold signed
requests. -/
@[simps]
def masked (w : Limiter) : Limiter :=
  { w with
    authorizer := w.authorizer.masked
    discoveries := w.discoveries.map Discovery.masked }

/-- What a step comes to, masked. -/
def maskedStep (x : Limiter × List Happening) : Limiter × List Happening :=
  (x.1.masked, x.2.map Happening.masked)

theorem surroundings_masked (w : Limiter) : w.masked.surroundings = w.surroundings.masked := rfl

/-! ## Steps of managers -/

theorem answer_masked (w : Limiter) (id : Nat) (result : Except Failure Reply) :
    w.masked.answer id result = maskedStep (w.answer id result) := by
  show (if w.dropped.contains id then _ else _) = maskedStep (if w.dropped.contains id then _ else _)
  split <;> rfl

theorem orphan_masked (w : Limiter) (p : Pending) : w.masked.orphan p = maskedStep (w.orphan p) := by
  show (if w.answered.contains p.id then _ else _) =
    maskedStep (if w.answered.contains p.id then _ else _)
  split
  · rfl
  · exact answer_masked w p.id _

theorem each_masked {α : Type} {f : Limiter → α → Limiter × List Happening} (k : α → α)
    (h : ∀ w a, f w.masked (k a) = maskedStep (f w a)) (w : Limiter) (as : List α) :
    each f w.masked (as.map k) = maskedStep (each f w as) := by
  induction as generalizing w with
  | nil => rfl
  | cons a as ih =>
    rw [List.map_cons, each_cons, each_cons, h]
    show ((each f (f w a).1.masked (as.map k)).1, _ ++ (each f (f w a).1.masked (as.map k)).2) = _
    rw [ih]
    exact congrArg (Prod.mk _) List.map_append.symm

theorem each_pending_masked {f : Limiter → Pending → Limiter × List Happening}
    (h : ∀ w p, f w.masked p = maskedStep (f w p)) (w : Limiter) (ps : List Pending) :
    each f w.masked ps = maskedStep (each f w ps) := by
  have hmapped := each_masked id h w ps
  rwa [List.map_id] at hmapped

theorem answerAll_masked (w : Limiter) (result : Except Failure Reply) (ps : List Pending) :
    w.masked.answerAll result ps = maskedStep (w.answerAll result ps) :=
  each_pending_masked (fun w p => answer_masked w p.id result) w ps

theorem perform_masked (index : Nat) (span : Span) (w : Limiter) (o : Output) :
    perform index span w.masked o.masked = maskedStep (perform index span w o) := by
  cases o with
  | event e => cases e <;> rfl
  | answer id result => exact answer_masked w id result
  | _ => rfl

theorem commit_masked (w : Limiter) (index : Nat) (x : Actor.Step) :
    w.masked.commit index x.masked = maskedStep (w.commit index x) := by
  have houtputs := each_masked Output.masked (perform_masked index (managerSpan x.actor))
    { w with actors := w.actors.set index x.actor } x.outputs
  unfold commit
  dsimp only
  generalize each (perform index (managerSpan x.actor))
    { w with actors := w.actors.set index x.actor } x.outputs = y at houtputs
  have hfirst : each (perform index (managerSpan x.masked.actor))
    { w.masked with actors := w.masked.actors.set index x.masked.actor } x.masked.outputs =
      maskedStep y := houtputs
  have hsecond : each orphan (maskedStep y).1 x.masked.orphans =
      maskedStep (each orphan y.1 x.orphans) := each_pending_masked orphan_masked y.1 x.orphans
  rw [hfirst, hsecond]
  generalize each orphan y.1 x.orphans = z
  have hshown : (maskedStep y).2 ++ (maskedStep z).2 = (y.2 ++ z.2).map Happening.masked :=
    List.map_append.symm
  rw [hshown]
  refine congrArg (Prod.mk · _) ?_
  show (if (x.actor.stage != .failed) = true then z.1.masked.expectCall index else z.1.masked) =
    masked (if (x.actor.stage != .failed) = true then z.1.expectCall index else z.1)
  split <;> rfl

theorem withActor_masked (w : Limiter) (index : Nat)
    {f : Surroundings → Actor → Option Actor.Step}
    (h : ∀ s a, f s.masked a = (f s a).map Actor.Step.masked) :
    w.masked.withActor index f = maskedStep (w.withActor index f) := by
  unfold withActor
  rw [masked_actors]
  cases w.actors[index]? with
  | none => rfl
  | some a =>
    dsimp only
    rw [surroundings_masked, h]
    cases f w.surroundings a with
    | none => rfl
    | some x => exact commit_masked w index x

theorem updateActor_masked (w : Limiter) (index : Nat) (f : Actor → Option Actor) :
    w.masked.updateActor index f = (w.updateActor index f).masked := by
  unfold updateActor
  rw [masked_actors]
  cases w.actors[index]? with
  | none => rfl
  | some a =>
    dsimp only
    cases f a <;> rfl

/-! ## Discovery -/

theorem setDiscovery_masked (w : Limiter) (e : Endpoint) (p : Probe) :
    w.masked.setDiscovery e p.masked = (w.setDiscovery e p).masked := by
  have hdiscoveries :
      (w.discoveries.map Discovery.masked).map
          (fun d => if d.endpoint = e then ⟨e, p.masked⟩ else d) =
        (w.discoveries.map fun d => if d.endpoint = e then ⟨e, p⟩ else d).map
          Discovery.masked := by
    rw [List.map_map, List.map_map]
    refine List.map_congr_left fun d _ => ?_
    show (if d.endpoint = e then _ else _) = Discovery.masked (if d.endpoint = e then _ else _)
    split <;> rfl
  exact congrArg (fun ds => { w.masked with discoveries := ds }) hdiscoveries

theorem setEnded_masked (w : Limiter) (e : Endpoint) (outcome : Except Failure Nat) :
    w.masked.setDiscovery e (.ended outcome) = (w.setDiscovery e (.ended outcome)).masked :=
  setDiscovery_masked w e (.ended outcome)

theorem discovery?_masked (w : Limiter) (e : Endpoint) :
    w.masked.discovery? e = (w.discovery? e).map Discovery.masked := by
  unfold discovery?
  rw [masked_discoveries, List.find?_map]
  rfl

theorem endDiscovery_masked (w : Limiter) (e : Endpoint) :
    w.masked.endDiscovery e = (w.endDiscovery e).masked :=
  congrArg (fun ds => { w.masked with discoveries := ds }) List.filter_map

theorem hangUpIfFree_masked (w : Limiter) : w.masked.hangUpIfFree = w.hangUpIfFree.masked := by
  unfold hangUpIfFree
  simp only [masked_owners, masked_discoveries, List.map_eq_nil_iff]
  split <;> rfl

theorem leave_masked (w : Limiter) (e : Endpoint) : w.masked.leave e = (w.leave e).masked := by
  unfold leave
  rw [endDiscovery_masked, hangUpIfFree_masked]

theorem enqueue_masked (index : Nat) (w : Limiter) (p : Pending) :
    enqueue index w.masked p = maskedStep (enqueue index w p) := by
  unfold enqueue
  rw [masked_actors]
  cases w.actors[index]? with
  | none => rfl
  | some a =>
    dsimp only
    split
    · rfl
    · exact answer_masked w p.id _

/-- A probe is signed here. -/
theorem startProbe_masked (w : Limiter) (e : Endpoint) :
    w.masked.startProbe e = maskedStep (w.startProbe e) := by
  unfold startProbe
  rw [discovery?_masked]
  cases w.discovery? e with
  | none => rfl
  | some d =>
    obtain ⟨f, probe⟩ := d
    cases probe with
    | awaiting signed => rfl
    | ended outcome => rfl
    | starting request =>
      have hsign : w.masked.authorizer request = (w.authorizer request).map Request.masked := rfl
      cases hsigned : w.authorizer request with
      | error refusal =>
        rw [hsigned] at hsign
        simp only [Option.map_some, Discovery.masked, Probe.masked, hsign, hsigned, Except.map]
        exact congrArg (·, []) (setEnded_masked w e _)
      | ok signed =>
        rw [hsigned] at hsign
        simp only [Option.map_some, Discovery.masked, Probe.masked, hsign, hsigned, Except.map]
        exact congrArg (·, _) (setDiscovery_masked w e (.awaiting signed))

/-- The policy that a reply declares does not depend on how its probe was signed, and neither does
the log. -/
theorem probePolicy_masked (e : Endpoint) (signed : Request) (reply : Reply) :
    probePolicy e signed.masked reply = probePolicy e signed reply := by
  have hrejected : Notice.probeRejected reply.status signed.masked.headers =
      .probeRejected reply.status signed.headers := by
    unfold Notice.probeRejected
    rw [Request.masked, Headers.redacted_masked]
  have hunnamed : Notice.probeUnnamed reply.status signed.masked.headers =
      .probeUnnamed reply.status signed.headers := by
    unfold Notice.probeUnnamed
    rw [Request.masked, Headers.redacted_masked]
  unfold probePolicy
  rw [hrejected, hunnamed]

theorem managerFor_masked (w : Limiter) (span : Span) (name : PolicyName) :
    w.masked.managerFor span name =
      ((w.managerFor span name).1.masked, (w.managerFor span name).2.1.map Happening.masked,
        (w.managerFor span name).2.2) := by
  unfold managerFor
  rw [masked_registered]
  cases w.registered.lookup name <;> rfl

theorem seed_masked (w : Limiter) (span : Span) (index : Nat) (reply : Reply) :
    w.masked.seed span index reply = maskedStep (w.seed span index reply) := by
  unfold seed
  rw [masked_actors]
  cases w.actors[index]? with
  | none => rfl
  | some a =>
    dsimp only
    split <;> rfl

theorem probeReport_masked (e : Endpoint) (reply : Reply) :
    (probeReport e reply).map Happening.masked = probeReport e reply := by
  unfold probeReport
  rw [List.map_cons, List.map_map]
  rfl

theorem endProbe_masked (w : Limiter) (e : Endpoint) (result : Except TransportFailure Reply) :
    w.masked.endProbe e result = maskedStep (w.endProbe e result) := by
  unfold endProbe
  rw [discovery?_masked]
  cases w.discovery? e with
  | none => rfl
  | some d =>
    obtain ⟨f, probe⟩ := d
    cases probe with
    | starting request => rfl
    | ended outcome => rfl
    | awaiting signed =>
      cases result with
      | error cause => exact congrArg (·, []) (setEnded_masked w e (.error (.transport cause)))
      | ok reply =>
        simp only [Option.map_some, Discovery.masked, Probe.masked, probePolicy_masked]
        cases probePolicy e signed reply with
        | error x =>
          obtain ⟨failure, notice⟩ := x
          refine Prod.ext (setEnded_masked w e (.error failure)) ?_
          show _ ++ _ = (_ ++ _ : List Happening).map Happening.masked
          rw [List.map_append, probeReport_masked]
          rfl
        | ok policy =>
          have hmade := managerFor_masked w (discoverySpan e) policy.name
          have hseeded := seed_masked (w.managerFor (discoverySpan e) policy.name).1 (discoverySpan e)
            (w.managerFor (discoverySpan e) policy.name).2.2 reply
          simp only [hmade, hseeded]
          refine Prod.ext (setEnded_masked _ e (.ok _)) ?_
          show _ ++ _ ++ _ = (_ ++ _ ++ _ : List Happening).map Happening.masked
          rw [List.map_append, List.map_append, probeReport_masked]
          rfl

/-! ## Every move -/

theorem settleFound_masked (w : Limiter) (e : Endpoint) (index : Nat) (waiting : List Pending) :
    w.masked.settleFound e index waiting = maskedStep (w.settleFound e index waiting) := by
  have henqueued := each_pending_masked (enqueue_masked index) (w.setRoute e (.ready index)) waiting
  have hroute : w.masked.setRoute e (.ready index) = (w.setRoute e (.ready index)).masked := rfl
  unfold settleFound
  rw [hroute, henqueued]
  refine Prod.ext (leave_masked _ e) ?_
  show _ ++ _ = (_ ++ _ : List Happening).map Happening.masked
  rw [List.map_append, masked_actors]
  cases w.actors[index]? <;> rfl

theorem settleFailed_masked (w : Limiter) (e : Endpoint) (failure : Failure)
    (waiting : List Pending) :
    w.masked.settleFailed e failure waiting = maskedStep (w.settleFailed e failure waiting) := by
  unfold settleFailed
  rw [answerAll_masked]
  generalize w.answerAll (.error failure) (waiting.take 1) = x
  simp only [maskedStep, masked_dropped]
  split
  · exact Prod.ext (leave_masked (x.1.removeRoute e) e) rfl
  · exact Prod.ext (setDiscovery_masked (x.1.setRoute e _) e (.starting _)) rfl

theorem settle_masked (w : Limiter) (e : Endpoint) :
    w.masked.settle e = maskedStep (w.settle e) := by
  unfold settle
  rw [discovery?_masked]
  cases w.discovery? e with
  | none => rfl
  | some d =>
    obtain ⟨f, probe⟩ := d
    cases probe with
    | starting request => rfl
    | awaiting signed => rfl
    | ended outcome =>
      have hroute : w.masked.route? e = w.route? e := rfl
      simp only [Option.map_some, Discovery.masked, Probe.masked, hroute, masked_closed]
      cases w.route? e with
      | none => exact congrArg (·, []) (leave_masked w e)
      | some route =>
        cases route with
        | ready index => exact congrArg (·, []) (leave_masked w e)
        | discovering waiting =>
          dsimp only
          split
          · have hanswered := answerAll_masked (w.removeRoute e) (.error .shutdown) waiting
            have hremoved : w.masked.removeRoute e = (w.removeRoute e).masked := rfl
            rw [hremoved, hanswered]
            exact Prod.ext (leave_masked _ e) rfl
          · cases outcome with
            | ok index => exact settleFound_masked w e index waiting
            | error failure => exact settleFailed_masked w e failure waiting

theorem startTicker_masked (w : Limiter) : w.masked.startTicker = w.startTicker.masked := by
  unfold startTicker
  rw [masked_ticker]
  split <;> rfl

/-- The limiter that has given away its next number. -/
def withNextId (w : Limiter) : Limiter := { w with nextId := w.nextId + 1 }

/-- A submission goes to the manager of its endpoint, or it waits for the probe. -/
def enlist (w : Limiter) (p : Pending) : Limiter × List Happening :=
  match w.route? p.endpoint with
  | some (.ready index) => w.enqueue index p
  | some (.discovering waiting) =>
    (w.setRoute p.endpoint (.discovering (waiting ++ [p])),
      [.notice none (.awaitingDiscovery p.id p.endpoint)])
  | none =>
    let w := w.setRoute p.endpoint (.discovering [p])
    ({ w with discoveries := w.discoveries ++ [⟨p.endpoint, .starting p.request.probe⟩] }, [])

theorem submit_eq (w : Limiter) (e : Endpoint) (request : Request) :
    w.submit e request =
      if w.closed then w.withNextId.answer w.nextId (.error .shutdown)
      else w.withNextId.startTicker.enlist ⟨w.nextId, e, w.withUserAgent request⟩ := rfl

theorem enlist_masked (w : Limiter) (p : Pending) : w.masked.enlist p = maskedStep (w.enlist p) := by
  have hroute : w.masked.route? p.endpoint = w.route? p.endpoint := rfl
  unfold enlist
  rw [hroute]
  cases w.route? p.endpoint with
  | none =>
    let d : Discovery := ⟨p.endpoint, .starting p.request.probe⟩
    have hdiscoveries : w.discoveries.map Discovery.masked ++ [d] =
        (w.discoveries ++ [d]).map Discovery.masked := by
      rw [List.map_append]
      rfl
    refine Prod.ext ?_ rfl
    exact congrArg (fun ds => { w.masked.setRoute p.endpoint (.discovering [p]) with
      discoveries := ds }) hdiscoveries
  | some route =>
    cases route with
    | ready index => exact enqueue_masked index w p
    | discovering waiting => rfl

theorem submit_masked (w : Limiter) (e : Endpoint) (request : Request) :
    w.masked.submit e request = maskedStep (w.submit e request) := by
  rw [submit_eq, submit_eq]
  show (if w.closed then w.withNextId.masked.answer w.nextId _
    else w.withNextId.masked.startTicker.enlist _) = maskedStep (if w.closed then _ else _)
  rw [startTicker_masked]
  split
  · exact answer_masked w.withNextId w.nextId _
  · exact enlist_masked _ _

/-- The limiter that has told its managers to stop. -/
def closing (w : Limiter) : Limiter :=
  { w with closed := true, actors := w.mapRegistered Actor.stop }

theorem shutdown_eq (w : Limiter) :
    w.shutdown =
      if w.closed then (w, [])
      else
        let x := w.closing.answerAll (.error .shutdown) (w.routes.flatMap (·.2.waiting))
        ({ x.1 with routes := [], registered := [], ticker := .off },
          .notice none .shuttingDown :: x.2) := rfl

theorem shutdown_masked (w : Limiter) : w.masked.shutdown = maskedStep w.shutdown := by
  have hanswered := answerAll_masked w.closing (.error .shutdown) (w.routes.flatMap (·.2.waiting))
  have hclosing : w.masked.closing = w.closing.masked := rfl
  rw [shutdown_eq, shutdown_eq, hclosing, masked_routes, hanswered]
  show (if w.closed then _ else _) = maskedStep (if w.closed then _ else _)
  split <;> rfl

theorem tick_masked (w : Limiter) : w.masked.tick = maskedStep w.tick := by
  have hpause : w.masked.pause = w.pause := rfl
  unfold tick
  rw [masked_ticker, hpause]
  cases w.ticker with
  | ticking due =>
    show (if w.now < due then _ else _) = maskedStep (if w.now < due then _ else _)
    split
    · rfl
    · cases w.pause <;> rfl
  | _ => rfl

theorem wake_masked (w : Limiter) : w.masked.wake = w.wake.masked := by
  unfold wake
  rw [masked_ticker]
  cases w.ticker with
  | waiting woken => cases woken <;> rfl
  | _ => rfl

theorem call_masked (w : Limiter) (k : Nat) : w.masked.call k = (w.call k).masked := by
  unfold call
  rw [masked_calling, masked_actors]
  split
  · dsimp only
    split
    · rename_i a ha
      show (if a.waits w.now = true then _ else _) = masked (if a.waits w.now = true then _ else _)
      split
      · exact wake_masked { w with calling := w.calling.erase k }
      · rfl
    · rfl
  · rfl

theorem awaitPause_masked (w : Limiter) : w.masked.awaitPause = w.awaitPause.masked := by
  unfold awaitPause
  rw [masked_ticker]
  cases w.ticker with
  | waiting woken => cases woken <;> rfl
  | arriving =>
    show (if w.permit then _ else _) = masked (if w.permit then _ else _)
    split <;> rfl
  | _ => rfl

theorem letGo_masked (w : Limiter) (id : Nat) : w.masked.letGo id = (w.letGo id).masked := by
  show (if w.isWaiting id then _ else _) = masked (if w.isWaiting id then _ else _)
  split <;> rfl

theorem refresh_masked (w : Limiter) : w.refresh.map Happening.masked = w.masked.refresh := by
  unfold refresh
  rw [List.map_map]
  rfl

theorem make_masked (w : Limiter) (m : Move) : w.masked.make m.masked = maskedStep (w.make m) := by
  cases m with
  | elapse d => rfl
  | submit e r => exact submit_masked w e r
  | cancel id => exact Prod.ext (letGo_masked w id) rfl
  | letGo id => exact Prod.ext (letGo_masked w id) rfl
  | startProbe e => exact startProbe_masked w e
  | endProbe e result => exact endProbe_masked w e result
  | settle e => exact settle_masked w e
  | command i => exact withActor_masked w i Actor.command_masked
  | signal i => exact withActor_masked w i Actor.signal_masked
  | ring i => exact Prod.ext (updateActor_masked w i _) rfl
  | returned i id result => exact Prod.ext (updateActor_masked w i _) rfl
  | call i => exact Prod.ext (call_masked w i) rfl
  | awaitPause => exact Prod.ext (awaitPause_masked w) rfl
  | tick => exact tick_masked w
  | refresh => exact Prod.ext rfl (refresh_masked w).symm
  | shutdown => exact shutdown_masked w
  | retain => rfl
  | release => exact Prod.ext (hangUpIfFree_masked { w with owners := w.owners - 1 }) rfl
  | renew f => rfl

/-- A limiter makes the same move whether credentials are masked or not. -/
theorem step_masked (w : Limiter) (m : Move) : w.masked.step m.masked = maskedStep (w.step m) := by
  have hneeds : m.masked.needsHolder = m.needsHolder := by cases m <;> rfl
  unfold step
  rw [masked_owners, hneeds]
  split
  · rfl
  · exact make_masked w m

/-! ## Every run -/

def Observation.masked (x : Observation) : Observation := { x with what := x.what.masked }

theorem run_masked (w : Limiter) (ms : List Move) :
    w.masked.run (ms.map Move.masked) =
      ((w.run ms).1.masked, (w.run ms).2.map Observation.masked) := by
  induction ms generalizing w with
  | nil => rfl
  | cons m ms ih =>
    have hstep := step_masked w m
    have hrest := ih (w.step m).1
    unfold run
    simp only [List.map_cons, hstep, maskedStep, hrest, List.map_append, List.map_map]
    rfl

/-- Two observations are the same, but that a request which is transmitted may carry other
credentials. -/
inductive Observation.Alike : Observation → Observation → Prop where
  | same (x : Observation) : Alike x x
  | transmitted (time : Moment) (sender : Sender) {r r' : Request} (h : r.Alike r') :
      Alike ⟨time, .transmitted sender r⟩ ⟨time, .transmitted sender r'⟩

theorem Observation.masked_eq_iff {x y : Observation} : x.masked = y.masked ↔ x.Alike y := by
  constructor
  · intro h
    obtain ⟨time, what⟩ := x
    obtain ⟨time', what'⟩ := y
    obtain ⟨rfl, hwhat⟩ := Observation.mk.inj h
    cases what with
    | transmitted sender r =>
      cases what' with
      | transmitted sender' r' =>
        obtain ⟨rfl, hr⟩ := Happening.transmitted.inj hwhat
        exact .transmitted time sender (Request.masked_eq_iff.1 hr)
      | _ => cases hwhat
    | _ =>
      cases what' with
      | transmitted sender' r' => cases hwhat
      | _ => cases hwhat <;> exact .same _
  · rintro (_ | ⟨time, sender, h⟩)
    · rfl
    · have hmasked := Request.masked_eq_iff.2 h
      exact congrArg (fun r => (⟨time, .transmitted sender r⟩ : Observation)) hmasked

theorem map_masked_eq_iff {xs ys : List Observation} :
    xs.map Observation.masked = ys.map Observation.masked ↔
      List.Forall₂ Observation.Alike xs ys := by
  rw [← List.forall₂_eq_eq_eq, List.forall₂_map_left_iff, List.forall₂_map_right_iff]
  simp only [Observation.masked_eq_iff]

/-- Limiters that are the same up to credentials cannot be told apart but by these. -/
theorem run_alike (h : v.masked = w.masked) (ms : List Move) :
    (v.run ms).1.masked = (w.run ms).1.masked ∧
      List.Forall₂ Observation.Alike (v.run ms).2 (w.run ms).2 := by
  have hruns : ((v.run ms).1.masked, (v.run ms).2.map Observation.masked) =
      ((w.run ms).1.masked, (w.run ms).2.map Observation.masked) := by
    rw [← run_masked, h, run_masked]
  obtain ⟨hstate, hobserved⟩ := Prod.mk.inj hruns
  exact ⟨hstate, map_masked_eq_iff.1 hobserved⟩

/-! ## What is around a limiter -/

/-- Everything around a limiter: it makes the next move, and may look at how many there were and at
all that was observed. -/
abbrev World := Nat → List Observation → Move

/-- The moves that a world makes. -/
def World.moves (world : World) (w : Limiter) : Nat → List Move
  | 0 => []
  | n + 1 => world.moves w n ++ [world n (w.run (world.moves w n)).2]

/-- Nobody looks at credentials, neither a transport nor a caller nor a scheduler. -/
def World.Blind (world : World) : Prop :=
  ∀ n xs ys, List.Forall₂ Observation.Alike xs ys → world n xs = world n ys

theorem World.Blind.moves_eq {world : World} (hblind : world.Blind) (h : v.masked = w.masked)
    (n : Nat) : world.moves v n = world.moves w n := by
  induction n with
  | zero => rfl
  | succ n ih =>
    unfold World.moves
    rw [ih, hblind n _ _ (run_alike h (world.moves w n)).2]

/-- Two limiters that sign with bearer tokens, in a world that does not look at credentials, cannot
be told apart but by the credentials themselves: the world makes the same moves, what is observed is
the same at the same times, but for the values of one header of the transmitted requests, and what
the limiters show of their policies is the same. -/
theorem tokens_unseen (config : Config) (now : Moment) {s t : String} {u v : HeaderValue}
    (hs : HeaderValue.ofString? ("Bearer " ++ s) = some u)
    (ht : HeaderValue.ofString? ("Bearer " ++ t) = some v) {world : World} (hblind : world.Blind)
    (n : Nat) :
    ∃ ms, world.moves (new config (.bearer s) now) n = ms ∧
      world.moves (new config (.bearer t) now) n = ms ∧
      List.Forall₂ Observation.Alike ((new config (.bearer s) now).run ms).2
        ((new config (.bearer t) now).run ms).2 ∧
      ((new config (.bearer s) now).run ms).1.policies =
        ((new config (.bearer t) now).run ms).1.policies := by
  have hsame : (new config (.bearer s) now).masked = (new config (.bearer t) now).masked :=
    congrArg (new config · now) (Authorizer.bearer_masked hs ht)
  have hmoves := hblind.moves_eq hsame n
  obtain ⟨hstate, hobserved⟩ := run_alike hsame (world.moves (new config (.bearer s) now) n)
  have hpolicies : ((new config (.bearer s) now).run _).1.masked.policies = _ :=
    congrArg policies hstate
  exact ⟨_, rfl, hmoves.symm, hobserved, hpolicies⟩

open Actor

/-- How many requests were transmitted. -/
def transmissions (xs : List Observation) : Nat :=
  xs.countP fun x => match x.what with
    | .transmitted _ _ => true
    | _ => false

theorem transmissions_eq {xs ys : List Observation} (h : List.Forall₂ Observation.Alike xs ys) :
    transmissions xs = transmissions ys := by
  induction h with
  | nil => rfl
  | cons hfirst hrest ih =>
    unfold transmissions at ih ⊢
    rw [List.countP_cons, List.countP_cons, ih]
    cases hfirst <;> rfl

/-- The credentials of the requests that were transmitted. -/
def credentials (xs : List Observation) : List (List HeaderValue) :=
  xs.filterMap fun x => match x.what with
    | .transmitted _ r => some (r.headers.values authorizationName)
    | _ => none

/-- A request for which the caller brings credentials. -/
def presigned : Request :=
  plainRequest.withHeader authorizationName ⟨Text.Utf8.encode "Basic", false⟩

/-- The first probe is rejected, the second one accepted, and the request is refused once. -/
def wary : World := fun n xs =>
  let reply : Reply := match transmissions xs with
    | 1 => { sharedReply 1 with status := 404 }
    | 3 => refusedReply
    | _ => sharedReply 1
  [.submit plainEndpoint presigned, .startProbe plainEndpoint, .endProbe plainEndpoint (.ok reply),
    .settle plainEndpoint, .submit plainEndpoint presigned, .startProbe plainEndpoint,
    .endProbe plainEndpoint (.ok reply), .settle plainEndpoint, .command 0, .command 0,
    .elapse 2000000000, .ring 0, .signal 0, .returned 0 2 (.ok reply), .signal 0,
    .elapse 65200000000, .ring 0, .signal 0, .returned 0 2 (.ok reply), .signal 0].getD n .refresh

theorem blind_wary : wary.Blind := by
  intro n xs ys h
  unfold wary
  rw [transmissions_eq h]

def bearerValue (token : String) (sensitive : Bool) : HeaderValue :=
  ⟨Text.Utf8.encode ("Bearer " ++ token), sensitive⟩

/-- The two probes and the two transmissions of the request carry the token, and nothing else tells
the limiters apart. -/
theorem tokens_unseen_wary :
    HeaderValue.ofString? ("Bearer " ++ "alpha") = some (bearerValue "alpha" false) ∧
      HeaderValue.ofString? ("Bearer " ++ "beta") = some (bearerValue "beta" false) ∧ wary.Blind ∧
      (∃ ms, wary.moves (new .default (.bearer "alpha") 0) 20 = ms ∧
        wary.moves (new .default (.bearer "beta") 0) 20 = ms ∧
        List.Forall₂ Observation.Alike ((new .default (.bearer "alpha") 0).run ms).2
          ((new .default (.bearer "beta") 0).run ms).2 ∧
        ((new .default (.bearer "alpha") 0).run ms).1.policies =
          ((new .default (.bearer "beta") 0).run ms).1.policies) ∧
      credentials ((new .default (.bearer "alpha") 0).run
          (wary.moves (new .default (.bearer "alpha") 0) 20)).2 =
        List.replicate 4 [bearerValue "alpha" true] ∧
      credentials ((new .default (.bearer "beta") 0).run
          (wary.moves (new .default (.bearer "beta") 0) 20)).2 =
        List.replicate 4 [bearerValue "beta" true] := by
  have halpha : HeaderValue.ofString? ("Bearer " ++ "alpha") = some (bearerValue "alpha" false) := by
    decide +kernel
  have hbeta : HeaderValue.ofString? ("Bearer " ++ "beta") = some (bearerValue "beta" false) := by
    decide +kernel
  exact ⟨halpha, hbeta, blind_wary, tokens_unseen .default 0 halpha hbeta blind_wary 20,
    by decide +kernel, by decide +kernel⟩

end Limiter

end Throttle
