import Throttle.Proofs.Limiter.Routing

/-!
  What a move does to the searches for policies. `Searched` lists the ways: a search begins, its
  probe is refused by the authorizer, sent or comes to an end, the search is left or tried again, or
  all stays. An endpoint that is `Barred` has a route already, or nobody can submit any more: no
  search begins for it (`barred_step`). If there is only one endpoint, there is at most one search,
  and `Sought` is the small machine that it goes through (`search_step`).
-/

namespace Throttle

open Http

namespace Limiter

variable {w v : Limiter} {m : Move} {e f : Endpoint}

/-! ## Searches -/

/-- What a move makes of the searches. -/
inductive Searched (w : Limiter) (m : Move) (v : Limiter) (hs : List Happening) : Prop where
  | same (h : v.discoveries = w.discoveries) (hsent : ∀ f, m = .startProbe f → senders hs = [])
      (hopen : ∀ f, m = .settle f → ∀ d outcome, w.discovery? f = some d → d.probe ≠ .ended outcome)
  | began {f : Endpoint} {r : Request} (hm : m = .submit f r) (hopen : w.closed = false)
      (howners : w.owners ≠ 0) (hnone : w.route? f = none) (hroute : v.route? f ≠ none)
      (h : v.discoveries = w.discoveries ++ [⟨f, .starting (w.submission f r).request.probe⟩])
  | refused {d : Discovery} {f : Endpoint} {request : Request} {failure : Failure}
      (hm : m = .startProbe f) (hd : w.discovery? f = some d) (hprobe : d.probe = .starting request)
      (h : v.discoveries = (w.setDiscovery f (.ended (.error failure))).discoveries)
      (hsent : senders hs = [])
  | sent {d : Discovery} {f : Endpoint} {request signed : Request} (hm : m = .startProbe f)
      (hd : w.discovery? f = some d) (hprobe : d.probe = .starting request)
      (h : v.discoveries = (w.setDiscovery f (.awaiting signed)).discoveries)
      (hsent : senders hs = [.probe f])
  | ended {f : Endpoint} {result : Except TransportFailure Reply} (hm : m = .endProbe f result)
  | left {d : Discovery} {f : Endpoint} {outcome : Except Failure Nat} (hm : m = .settle f)
      (hd : w.discovery? f = some d) (hprobe : d.probe = .ended outcome)
      (h : v.discoveries = (w.endDiscovery f).discoveries)
  | retried {d : Discovery} {f : Endpoint} {failure : Failure} {request : Request}
      (hm : m = .settle f) (hd : w.discovery? f = some d) (hprobe : d.probe = .ended (.error failure))
      (hroute : v.route? f ≠ none)
      (h : v.discoveries = (w.setDiscovery f (.starting request)).discoveries)

theorem discoveries_of_core (h : v.core = w.core) : v.discoveries = w.discoveries := by
  have hdiscoveries : v.core.discoveries = w.core.discoveries := congrArg discoveries h
  exact hdiscoveries

theorem discoveries_hangUpIfFree (w : Limiter) : w.hangUpIfFree.discoveries = w.discoveries := by
  unfold hangUpIfFree
  split <;> rfl

theorem discoveries_leave (w : Limiter) (e : Endpoint) :
    (w.leave e).discoveries = (w.endDiscovery e).discoveries :=
  discoveries_hangUpIfFree (w.endDiscovery e)

theorem submit_searches {r : Request} (howners : w.owners ≠ 0) (hs : List Happening) :
    Searched w (.submit f r) (w.submit f r).1 hs := by
  unfold submit
  dsimp only
  split
  · exact .same (discoveries_of_core (core_answer { w with nextId := w.nextId + 1 } _ _) :) nofun nofun
  · rename_i hopen
    have hstart : { w with nextId := w.nextId + 1 }.startTicker.discoveries = w.discoveries :=
      (discoveries_of_core (core_startTicker { w with nextId := w.nextId + 1 }) :)
    have hroute : { w with nextId := w.nextId + 1 }.startTicker.route? f = w.route? f := by
      unfold startTicker
      split <;> rfl
    rw [hroute]
    split
    · exact .same ((discoveries_of_core (core_enqueue _ _ _)).trans hstart) nofun nofun
    · exact .same hstart nofun nofun
    · rename_i hnone
      refine .began rfl (Bool.eq_false_iff.2 hopen) howners hnone ?_ (congrArg (· ++ _) hstart)
      show (setRoute _ f _).route? f ≠ none
      rw [route?_setRoute, if_pos rfl]
      nofun

theorem startProbe_searches (w : Limiter) (f : Endpoint) :
    Searched w (.startProbe f) (w.startProbe f).1 (w.startProbe f).2 := by
  unfold startProbe
  split
  · rename_i g request hd
    split
    · exact .refused rfl hd rfl rfl rfl
    · exact .sent rfl hd rfl rfl rfl
  · exact .same rfl (fun _ _ => rfl) nofun

theorem settle_searches (w : Limiter) (f : Endpoint) (hs : List Happening) :
    Searched w (.settle f) (w.settle f).1 hs := by
  unfold settle
  split
  · rename_i g outcome hd
    split
    · exact .left rfl hd rfl (discoveries_leave w f)
    · exact .left rfl hd rfl (discoveries_leave w f)
    · rename_i waiting hroute
      split
      · have hanswer := discoveries_of_core (core_answerAll (w.removeRoute f) (.error .shutdown) waiting)
        refine .left rfl hd rfl ((discoveries_leave _ f).trans ?_)
        exact congrArg (List.filter _) hanswer
      · split
        · rename_i k
          have hqueue := discoveries_of_core (core_enqueueAll (w.setRoute f (.ready k)) k waiting)
          refine .left rfl hd rfl ((discoveries_leave _ f).trans ?_)
          exact congrArg (List.filter _) hqueue
        · rename_i failure
          have hanswer := discoveries_of_core (core_answerAll w (.error failure) (waiting.take 1))
          unfold settleFailed
          dsimp only
          split
          · refine .left rfl hd rfl ((discoveries_leave _ f).trans ?_)
            exact congrArg (List.filter _) hanswer
          · rename_i p rest hrest
            refine .retried rfl hd rfl ?_ (congrArg (List.map _) hanswer)
            show (setRoute _ f _).route? f ≠ none
            rw [route?_setRoute, if_pos rfl]
            nofun
  · rename_i hopen
    refine .same rfl nofun fun g hg d outcome hd hprobe => ?_
    cases hg
    obtain ⟨g, p⟩ := d
    exact hopen g outcome (hprobe ▸ hd)

/-- Every move leaves the searches alone, or changes them in one of the ways listed. -/
theorem step_searches (w : Limiter) (m : Move) : Searched w m (w.step m).1 (w.step m).2 := by
  cases hm : m.actor? with
  | some k =>
    obtain ⟨d, -, hcore, -⟩ := acting_step hm w
    refine .same ((discoveries_of_core hcore).trans rfl) ?_ ?_
    · rintro f rfl
      cases hm
    · rintro f rfl
      cases hm
  | none =>
    unfold step
    split
    · rename_i hholder
      refine .same rfl (fun _ _ => rfl) ?_
      rintro f rfl
      cases hholder
    · rename_i hfree
      cases m with
      | submit f r =>
        refine submit_searches ?_ _
        intro hzero
        apply hfree
        rw [hzero]
        rfl
      | startProbe f => exact startProbe_searches w f
      | endProbe f result => exact .ended rfl
      | settle f => exact settle_searches w f _
      | shutdown =>
        refine .same ?_ nofun nofun
        show w.shutdown.1.discoveries = _
        unfold shutdown
        split
        · rfl
        · exact (discoveries_of_core (core_answerAll { w with
            closed := true
            actors := w.mapRegistered Actor.stop } _ _) :)
      | release => exact .same (discoveries_hangUpIfFree { w with owners := w.owners - 1 }) nofun nofun
      | retain => exact .same rfl nofun nofun
      | renew f => exact .same rfl nofun nofun
      | elapse d => exact .same rfl nofun nofun
      | refresh => exact .same rfl nofun nofun
      | cancel id =>
        refine .same ?_ nofun nofun
        show (w.letGo id).discoveries = _
        unfold letGo
        split <;> rfl
      | letGo id =>
        refine .same ?_ nofun nofun
        show (w.letGo id).discoveries = _
        unfold letGo
        split <;> rfl
      | call i => exact .same (discoveries_of_core (core_call w i)) nofun nofun
      | awaitPause => exact .same (discoveries_of_core (core_awaitPause w)) nofun nofun
      | tick => exact .same (discoveries_of_core (core_tick w)) nofun nofun
      | command k => cases hm
      | signal k => cases hm
      | ring k => cases hm
      | returned k id result => cases hm

/-! ## Holders and registered managers -/

/-- Nobody new holds the limiter, and no manager is registered in an empty register. -/
def Dwindles (w v : Limiter) : Prop :=
  (w.owners = 0 → v.owners = 0) ∧ (w.registered = [] → v.registered = [])

theorem Dwindles.refl (w : Limiter) : Dwindles w w := ⟨id, id⟩

theorem Dwindles.trans {u : Limiter} (h : Dwindles w v) (h' : Dwindles v u) : Dwindles w u :=
  ⟨h'.1 ∘ h.1, h'.2 ∘ h.2⟩

theorem dwindles_of_core (h : v.core = w.core) : Dwindles w v := by
  have howners : v.core.owners = w.core.owners := congrArg owners h
  have hregistered : v.core.registered = w.core.registered := congrArg registered h
  exact ⟨howners.trans, hregistered.trans⟩

theorem dwindles_hangUpIfFree (w : Limiter) : Dwindles w w.hangUpIfFree := by
  unfold hangUpIfFree
  split
  · exact ⟨id, fun _ => rfl⟩
  · exact .refl w

theorem dwindles_leave (w : Limiter) (e : Endpoint) : Dwindles w (w.leave e) :=
  dwindles_hangUpIfFree (w.endDiscovery e)

theorem dwindles_submit (w : Limiter) (f : Endpoint) (r : Request) :
    Dwindles w (w.submit f r).1 := by
  unfold submit
  dsimp only
  split
  · exact (dwindles_of_core (core_answer { w with nextId := w.nextId + 1 } _ _) :)
  · have hstart : Dwindles w { w with nextId := w.nextId + 1 }.startTicker :=
      (dwindles_of_core (core_startTicker { w with nextId := w.nextId + 1 }) :)
    split
    · exact hstart.trans (dwindles_of_core (core_enqueue _ _ _) :)
    · exact hstart
    · exact hstart

theorem dwindles_settle (w : Limiter) (f : Endpoint) : Dwindles w (w.settle f).1 := by
  unfold settle
  split
  · split
    · exact dwindles_leave w f
    · exact dwindles_leave w f
    · rename_i waiting hroute
      split
      · refine .trans ?_ (dwindles_leave _ f)
        exact (dwindles_of_core (core_answerAll (w.removeRoute f) _ waiting) :)
      · split
        · rename_i k _
          refine .trans ?_ (dwindles_leave _ f)
          exact (dwindles_of_core (core_enqueueAll (w.setRoute f (.ready k)) k waiting) :)
        · rename_i failure _
          have hanswer := dwindles_of_core (core_answerAll w (.error failure) (waiting.take 1))
          unfold settleFailed
          dsimp only
          split
          · exact hanswer.trans (dwindles_leave (removeRoute _ f) f :)
          · exact hanswer
  · exact .refl w

theorem dwindles_shutdown (w : Limiter) : Dwindles w w.shutdown.1 := by
  unfold shutdown
  split
  · exact .refl w
  · have hanswer := dwindles_of_core (core_answerAll
      { w with closed := true, actors := w.mapRegistered Actor.stop } (.error .shutdown)
      (w.routes.flatMap (·.2.waiting)))
    exact ⟨hanswer.1, fun _ => rfl⟩

theorem dwindles_letGo (w : Limiter) (id : Nat) : Dwindles w (w.letGo id) := by
  unfold letGo
  split
  · exact .refl w
  · exact .refl w

theorem dwindles_startProbe (w : Limiter) (f : Endpoint) : Dwindles w (w.startProbe f).1 := by
  unfold startProbe
  split
  · split <;> exact ⟨id, id⟩
  · exact .refl w

/-- Only the reply of a probe registers a manager, and only a holder can hand out a hold. -/
theorem dwindles_step (hm : ∀ f result, m ≠ .endProbe f result) (w : Limiter) :
    Dwindles w (w.step m).1 := by
  cases hactor : m.actor? with
  | some k =>
    obtain ⟨d, -, hcore, -⟩ := acting_step hactor w
    exact (dwindles_of_core hcore :)
  | none =>
    unfold step
    split
    · exact .refl w
    · rename_i hfree
      cases m with
      | submit f r => exact dwindles_submit w f r
      | startProbe f => exact dwindles_startProbe w f
      | endProbe f result => exact absurd rfl (hm f result)
      | settle f => exact dwindles_settle w f
      | shutdown => exact dwindles_shutdown w
      | release =>
        have hreleased : Dwindles w { w with owners := w.owners - 1 } :=
          ⟨fun hzero => (by rw [hzero] : w.owners - 1 = 0), id⟩
        exact hreleased.trans (dwindles_hangUpIfFree _)
      | retain =>
        refine ⟨fun hzero => absurd ?_ hfree, id⟩
        rw [hzero]
        rfl
      | elapse d => exact .refl w
      | refresh => exact .refl w
      | renew f => exact .refl w
      | cancel id => exact dwindles_letGo w id
      | letGo id => exact dwindles_letGo w id
      | call i => exact dwindles_of_core (core_call w i)
      | awaitPause => exact dwindles_of_core (core_awaitPause w)
      | tick => exact dwindles_of_core (core_tick w)
      | command k => cases hactor
      | signal k => cases hactor
      | ring k => cases hactor
      | returned k id result => cases hactor

/-! ## Endpoints for which no search begins -/

/-- An endpoint has a route already, or nobody can submit any more. -/
def Barred (w : Limiter) (e : Endpoint) : Prop :=
  w.closed = true ∨ w.owners = 0 ∨ w.route? e ≠ none

theorem Shut.barred (h : w.Shut) (e : Endpoint) : w.Barred e := h.2.imp_right .inl

/-- A barred endpoint stays barred, unless its search ends without a manager. -/
theorem barred_step (hclosed : w.closed = true → w.Shut) (hm : ∀ f result, m ≠ .endProbe f result)
    (hfound : m = .settle e → ∀ d failure, w.discovery? e = some d →
      d.probe ≠ .ended (.error failure)) (h : w.Barred e) : (w.step m).1.Barred e := by
  cases step_reroutes hclosed m e with
  | same hroute hsettle =>
    rcases h with hshut | howners | hknown
    · exact (shut_step (hclosed hshut) m).barred e
    · exact .inr (.inl ((dwindles_step hm w).1 howners))
    · rw [← hroute] at hknown
      exact .inr (.inr hknown)
  | shut hshut => exact hshut.barred e
  | began hsubmit hnone hroute => exact .inr (.inr (by rw [hroute]; nofun))
  | joined hsubmit hbefore hroute => exact .inr (.inr (by rw [hroute]; nofun))
  | found hsettle hbefore hended hroute => exact .inr (.inr (by rw [hroute]; nofun))
  | failed hsettle hbefore hhanded hended hrest hroute =>
    obtain ⟨d, failure, hd, hprobe⟩ := hended
    exact absurd hprobe (hfound hsettle d failure hd)

/-! ## One endpoint -/

/-- How the search for one endpoint goes on, and what is sent. -/
inductive Sought (w : Limiter) (e : Endpoint) : Option Probe → Option Probe → List Sender → Prop where
  | still (x : Option Probe) : Sought w e x x []
  | began (request : Request) (hopen : ¬ w.Barred e) : Sought w e none (some (.starting request)) []
  | refused (request : Request) (failure : Failure) :
      Sought w e (some (.starting request)) (some (.ended (.error failure))) []
  | sent (request signed : Request) :
      Sought w e (some (.starting request)) (some (.awaiting signed)) [.probe e]
  | left (outcome : Except Failure Nat) : Sought w e (some (.ended outcome)) none []
  | retried (failure : Failure) (request : Request) :
      Sought w e (some (.ended (.error failure))) (some (.starting request)) []

/-- There is at most one search, for one endpoint. -/
def Seeks (w : Limiter) (e : Endpoint) (x : Option Probe) : Prop :=
  w.discoveries = x.toList.map (Discovery.mk e)

theorem Seeks.of_discovery? {x : Option Probe} (h : w.Seeks e x) {d : Discovery}
    (hd : w.discovery? f = some d) : f = e ∧ x = some d.probe := by
  unfold discovery? at hd
  rw [h] at hd
  cases x with
  | none => cases hd
  | some p =>
    by_cases hef : e = f
    · subst hef
      simp only [Option.toList_some, List.map_cons, List.map_nil, List.find?_cons_of_pos,
        decide_true] at hd
      cases hd
      exact ⟨rfl, rfl⟩
    · simp [hef] at hd

theorem Seeks.set {x : Option Probe} (h : w.Seeks e x) (hx : x ≠ none) (p : Probe)
    (hv : v.discoveries = (w.setDiscovery e p).discoveries) : v.Seeks e (some p) := by
  unfold Seeks
  rw [hv]
  unfold setDiscovery
  dsimp only
  rw [h]
  cases x with
  | none => exact absurd rfl hx
  | some q => simp

theorem Seeks.ended {x : Option Probe} (h : w.Seeks e x)
    (hv : v.discoveries = (w.endDiscovery e).discoveries) : v.Seeks e none := by
  unfold Seeks
  rw [hv]
  unfold endDiscovery
  dsimp only
  rw [h]
  cases x <;> simp

/-- A move in which a manager acts leaves the searches alone. -/
theorem search_acting {x : Option Probe} {k : Nat} (h : w.Seeks e x) (hactor : m.actor? = some k) :
    (w.step m).1.Seeks e x ∧ (w.Barred e → (w.step m).1.Barred e) := by
  obtain ⟨d, -, hcore, -⟩ := acting_step hactor w
  have hdesk := desk_acting hactor w
  have hclosed : (w.step m).1.desk.closed = w.desk.closed := congrArg closed hdesk
  have howners : (w.step m).1.desk.owners = w.desk.owners := congrArg owners hdesk
  have hroute := route?_of_desk hdesk e
  refine ⟨(discoveries_of_core hcore).trans h, ?_⟩
  rintro (hshut | hzero | hknown)
  · exact .inl (hclosed.trans hshut)
  · exact .inr (.inl (howners.trans hzero))
  · exact .inr (.inr (hroute ▸ hknown))

/-- How the search for the only endpoint goes on in a move in which no manager acts. -/
theorem search_step {x : Option Probe} (h : w.Seeks e x) (hactor : m.actor? = none)
    (hsubmit : ∀ f r, m = .submit f r → f = e) (hend : ∀ f result, m ≠ .endProbe f result)
    (hclosed : w.closed = true → w.Shut) (hbarred : x ≠ none → w.Barred e) :
    ∃ y, (w.step m).1.Seeks e y ∧ Sought w e x y (senders (w.step m).2) ∧
      (y ≠ none → (w.step m).1.Barred e) ∧
      (w.Barred e → (∀ failure, x ≠ some (.ended (.error failure))) → (w.step m).1.Barred e) := by
  have silent (hm : ∀ f, m ≠ .startProbe f) : senders (w.step m).2 = [] := by
    rcases (feeding_step hactor w).2 with hnone | ⟨f, hf, -⟩
    · exact hnone
    · exact absurd hf (hm f)
  have hkept (hfound : m = .settle e → ∀ d failure, w.discovery? e = some d →
      d.probe ≠ .ended (.error failure)) : w.Barred e → (w.step m).1.Barred e :=
    barred_step hclosed hend hfound
  have hsound (hx : ∀ failure, x ≠ some (.ended (.error failure))) :
      w.Barred e → (w.step m).1.Barred e := by
    refine hkept fun _ d failure hd hprobe => hx failure ?_
    rw [(h.of_discovery? hd).2, hprobe]
  cases step_searches w m with
  | same hsame hsent hopen =>
    have hnone : senders (w.step m).2 = [] := by
      by_cases hm : ∃ f, m = .startProbe f
      · obtain ⟨f, hf⟩ := hm
        exact hsent f hf
      · exact silent fun f hf => hm ⟨f, hf⟩
    have hstill : w.Barred e → (w.step m).1.Barred e :=
      hkept fun hm d failure hd => hopen e hm d _ hd
    rw [hnone]
    exact ⟨x, hsame.trans h, .still x, fun hx => hstill (hbarred hx), fun hb _ => hstill hb⟩
  | @began f r hm hopen howners hnone hroute hadded =>
    obtain rfl := hsubmit f r hm
    have hfree : ¬ w.Barred f := by
      rintro (hclosed | hzero | hknown)
      · rw [hopen] at hclosed
        cases hclosed
      · exact howners hzero
      · exact hknown hnone
    have hsearch : x = none := by
      by_contra hx
      exact hfree (hbarred hx)
    subst hsearch
    rw [silent (by rw [hm]; nofun)]
    have hseeks : (w.step m).1.Seeks f (some (.starting (w.submission f r).request.probe)) := by
      unfold Seeks
      rw [hadded, h]
      rfl
    exact ⟨_, hseeks, .began _ hfree, fun _ => .inr (.inr hroute), fun hb => absurd hb hfree⟩
  | refused hm hd hprobe hset hsent =>
    obtain ⟨rfl, rfl⟩ := h.of_discovery? hd
    rw [hsent, hprobe]
    refine ⟨_, h.set nofun _ hset, .refused _ _, fun _ => ?_, fun _ _ => ?_⟩
    · exact hsound (by rw [hprobe]; nofun) (hbarred nofun)
    · exact hsound (by rw [hprobe]; nofun) (hbarred nofun)
  | sent hm hd hprobe hset hsent =>
    obtain ⟨rfl, rfl⟩ := h.of_discovery? hd
    rw [hsent, hprobe]
    refine ⟨_, h.set nofun _ hset, .sent _ _, fun _ => ?_, fun _ _ => ?_⟩
    · exact hsound (by rw [hprobe]; nofun) (hbarred nofun)
    · exact hsound (by rw [hprobe]; nofun) (hbarred nofun)
  | ended hm => exact absurd hm (hend _ _)
  | left hm hd hprobe hleft =>
    obtain ⟨rfl, rfl⟩ := h.of_discovery? hd
    rw [silent (by rw [hm]; nofun)]
    refine ⟨none, h.ended hleft, ?_, fun hy => absurd rfl hy, fun hb hx => hsound hx hb⟩
    rw [hprobe]
    exact .left _
  | retried hm hd hprobe hroute hset =>
    obtain ⟨rfl, rfl⟩ := h.of_discovery? hd
    rw [silent (by rw [hm]; nofun), hprobe]
    have hafter : (w.step m).1.Barred _ := .inr (.inr hroute)
    exact ⟨_, h.set nofun _ hset, .retried _ _, fun _ => hafter, fun _ _ => hafter⟩

end Limiter

end Throttle
