import Throttle.Proofs.Limiter.Lives

/-!
  What a move does to the route of one endpoint. `Rerouted` lists the ways: the route stays, a
  search begins, a request joins those that wait, a search ends with a manager or without one, or
  the limiter is shut for good. A limiter that is shut has no routes and never gets one again
  (`shut_step`).
-/

namespace Throttle

open Http

namespace Limiter

variable {w v : Limiter} {m : Move} {e f : Endpoint}

/-! ## Tables of routes -/

theorem lookup_cons_eq (g f : Endpoint) (r : Route) (l : List (Endpoint × Route)) :
    ((g, r) :: l).lookup f = if f = g then some r else l.lookup f := by
  rw [List.lookup_cons]
  by_cases h : f = g
  · subst h
    simp
  · have hne : (f == g) = false := beq_eq_false_iff_ne.2 h
    simp [hne, h]

theorem lookup_filter_ne (l : List (Endpoint × Route)) (e f : Endpoint) :
    (l.filter (·.1 ≠ e)).lookup f = if f = e then none else l.lookup f := by
  induction l with
  | nil => exact (ite_self _).symm
  | cons x l ih =>
    obtain ⟨g, r⟩ := x
    by_cases hg : g = e
    · subst hg
      rw [List.filter_cons_of_neg (by simp), ih, lookup_cons_eq]
      split <;> rfl
    · rw [List.filter_cons_of_pos (by simp [hg]), lookup_cons_eq, lookup_cons_eq, ih]
      by_cases hf : f = g
      · subst hf
        rw [if_pos rfl, if_pos rfl, if_neg hg]
      · rw [if_neg hf, if_neg hf]

theorem route?_setRoute (w : Limiter) (e f : Endpoint) (r : Route) :
    (w.setRoute e r).route? f = if f = e then some r else w.route? f := by
  unfold route? setRoute
  dsimp only
  rw [lookup_cons_eq, lookup_filter_ne]
  by_cases hf : f = e
  · rw [if_pos hf, if_pos hf]
  · rw [if_neg hf, if_neg hf, if_neg hf]

theorem route?_removeRoute (w : Limiter) (e f : Endpoint) :
    (w.removeRoute e).route? f = if f = e then none else w.route? f :=
  lookup_filter_ne w.routes e f

/-! ## Moves that leave the routes alone -/

/-- A limiter without its managers and its probes, and without what results, log lines and wake-ups
change. -/
def desk (w : Limiter) : Limiter :=
  { w.core with
    actors := []
    registered := []
    discoveries := [] }

theorem desk_of_core (h : v.core = w.core) : v.desk = w.desk :=
  congrArg (fun c : Limiter => { c with actors := [], registered := [], discoveries := [] }) h

theorem route?_of_desk (h : v.desk = w.desk) (e : Endpoint) : v.route? e = w.route? e := by
  have hroutes : v.desk.routes = w.desk.routes := congrArg routes h
  exact congrArg (List.lookup e) hroutes

theorem desk_enqueue (w : Limiter) (k : Nat) (p : Pending) :
    (enqueue k w p).1.desk = w.desk := by
  have hdesk := desk_of_core (core_enqueue w k p)
  exact hdesk

theorem desk_enqueueAll (w : Limiter) (k : Nat) (ps : List Pending) :
    (each (enqueue k) w ps).1.desk = w.desk := by
  have hdesk := desk_of_core (core_enqueueAll w k ps)
  exact hdesk

theorem desk_startProbe (w : Limiter) (e : Endpoint) : (w.startProbe e).1.desk = w.desk := by
  unfold startProbe
  split
  · split <;> rfl
  · rfl

theorem desk_managerFor (w : Limiter) (span : Span) (name : PolicyName) :
    (w.managerFor span name).1.desk = w.desk := by
  unfold managerFor
  split <;> rfl

theorem desk_endProbe (w : Limiter) (e : Endpoint) (result : Except TransportFailure Reply) :
    (w.endProbe e result).1.desk = w.desk := by
  unfold endProbe
  split
  · split
    · rfl
    · dsimp only
      split
      · rfl
      · rename_i policy _
        have hseed := desk_of_core (core_seed (w.managerFor (discoverySpan e) policy.name).1
          (discoverySpan e) (w.managerFor (discoverySpan e) policy.name).2.2 ‹Reply›)
        exact hseed.trans (desk_managerFor w _ _)
  · rfl

theorem desk_acting {k : Nat} (h : m.actor? = some k) (w : Limiter) :
    (w.step m).1.desk = w.desk := by
  obtain ⟨d, -, hcore, -⟩ := acting_step h w
  have hdesk := desk_of_core hcore
  exact hdesk

/-! ## The end of all routes -/

/-- Nobody can submit any more, and no endpoint has a route. -/
def Shut (w : Limiter) : Prop := w.routes = [] ∧ (w.closed = true ∨ w.owners = 0)

theorem Shut.route? (h : w.Shut) (e : Endpoint) : w.route? e = none := by
  unfold Limiter.route?
  rw [h.1]
  rfl

theorem Shut.of_desk (h : w.Shut) (hdesk : v.desk = w.desk) : v.Shut := by
  have hroutes : v.desk.routes = w.desk.routes := congrArg routes hdesk
  have hclosed : v.desk.closed = w.desk.closed := congrArg closed hdesk
  have howners : v.desk.owners = w.desk.owners := congrArg owners hdesk
  exact ⟨hroutes.trans h.1, h.2.imp hclosed.trans howners.trans⟩

theorem shut_hangUpIfFree (h : w.Shut) : w.hangUpIfFree.Shut := by
  unfold hangUpIfFree
  split
  · exact ⟨rfl, h.2⟩
  · exact h

theorem hangUpIfFree_routes (w : Limiter) :
    w.hangUpIfFree.routes = w.routes ∨ w.hangUpIfFree.Shut := by
  unfold hangUpIfFree
  split
  · rename_i hfree
    exact .inr ⟨rfl, .inr hfree.1⟩
  · exact .inl rfl

theorem leave_route? (w : Limiter) (e f : Endpoint) :
    (w.leave e).route? f = w.route? f ∨ (w.leave e).Shut := by
  rcases hangUpIfFree_routes (w.endDiscovery e) with h | h
  · exact .inl (congrArg (List.lookup f) h)
  · exact .inr h

theorem shut_shutdown (w : Limiter) (h : w.closed = true → w.Shut) : w.shutdown.1.Shut := by
  unfold shutdown
  split
  · rename_i hclosed
    exact h hclosed
  · have hcore := core_answerAll { w with closed := true, actors := w.mapRegistered Actor.stop }
      (.error .shutdown) (w.routes.flatMap (·.2.waiting))
    have hclosed := congrArg closed hcore
    exact ⟨rfl, .inl hclosed⟩

/-- A limiter that is shut stays shut. -/
theorem shut_step (h : w.Shut) (m : Move) : (w.step m).1.Shut := by
  cases hm : m.actor? with
  | some k => exact h.of_desk (desk_acting hm w)
  | none =>
    unfold step
    split
    · exact h
    · rename_i hholder
      have hclosed (hneeds : m.needsHolder = true) : w.closed = true := by
        refine h.2.resolve_right fun hzero => hholder ?_
        rw [hneeds, hzero]
        rfl
      cases m with
      | submit e r =>
        show (w.submit e r).1.Shut
        unfold submit
        rw [if_pos (hclosed rfl)]
        exact Shut.of_desk (w := { w with nextId := w.nextId + 1 }) h
          (desk_of_core (core_answer _ _ _))
      | settle e =>
        show (w.settle e).1.Shut
        unfold settle
        rw [h.route? e]
        split
        · exact shut_hangUpIfFree (w := w.endDiscovery e) h
        · exact h
      | startProbe e => exact h.of_desk (desk_startProbe w e)
      | endProbe e result => exact h.of_desk (desk_endProbe w e result)
      | shutdown => exact shut_shutdown w fun _ => h
      | release =>
        refine shut_hangUpIfFree (w := { w with owners := w.owners - 1 })
          ⟨h.1, h.2.imp id fun hzero => ?_⟩
        show w.owners - 1 = 0
        omega
      | retain => exact ⟨h.1, .inl (hclosed rfl)⟩
      | elapse d => exact h
      | refresh => exact h
      | renew f => exact h
      | cancel id =>
        show (w.letGo id).Shut
        unfold letGo
        split <;> exact h
      | letGo id =>
        show (w.letGo id).Shut
        unfold letGo
        split <;> exact h
      | call i => exact h.of_desk (desk_of_core (core_call w i))
      | awaitPause => exact h.of_desk (desk_of_core (core_awaitPause w))
      | tick => exact h.of_desk (desk_of_core (core_tick w))
      | command k => cases hm
      | signal k => cases hm
      | ring k => cases hm
      | returned k id result => cases hm

/-! ## What becomes of a route -/

/-- What a move makes of the route of one endpoint. -/
inductive Rerouted (w : Limiter) (m : Move) (e : Endpoint) (v : Limiter) : Prop where
  | same (hroute : v.route? e = w.route? e)
      (hsettle : m = .settle e → ∀ i, w.handed m i = [])
  | shut (hshut : v.Shut)
  | began {r : Request} (hm : m = .submit e r) (hnone : w.route? e = none)
      (hroute : v.route? e = some (.discovering [w.submission e r]))
  | joined {r : Request} {waiting : List Pending} (hm : m = .submit e r)
      (hbefore : w.route? e = some (.discovering waiting))
      (hroute : v.route? e = some (.discovering (waiting ++ [w.submission e r])))
  | found {k : Nat} {waiting : List Pending} (hm : m = .settle e)
      (hbefore : w.route? e = some (.discovering waiting))
      (hended : ∃ d, w.discovery? e = some d ∧ d.probe = .ended (.ok k))
      (hroute : v.route? e = some (.ready k))
  | failed {waiting rest : List Pending} (hm : m = .settle e)
      (hbefore : w.route? e = some (.discovering waiting)) (hhanded : ∀ i, w.handed m i = [])
      (hended : ∃ d failure, w.discovery? e = some d ∧ d.probe = .ended (.error failure))
      (hrest : rest.Sublist waiting)
      (hroute : v.route? e = some (.discovering rest) ∨ v.route? e = none)

theorem Rerouted.of_desk (h : v.desk = w.desk) (hm : m ≠ .settle e) : Rerouted w m e v :=
  .same (route?_of_desk h e) fun hsettle => absurd hsettle hm

theorem submit_reroutes (w : Limiter) (e f : Endpoint) (r : Request) :
    Rerouted w (.submit f r) e (w.submit f r).1 := by
  unfold submit
  dsimp only
  split
  · refine .same ?_ nofun
    exact (route?_of_desk (desk_of_core (core_answer { w with nextId := w.nextId + 1 } _ _)) e :)
  · have hstart (g : Endpoint) : { w with nextId := w.nextId + 1 }.startTicker.route? g =
        w.route? g :=
      (route?_of_desk (desk_of_core (core_startTicker { w with nextId := w.nextId + 1 })) g :)
    rw [hstart f]
    split
    · exact .same ((route?_of_desk (desk_enqueue _ _ _) e).trans (hstart e)) nofun
    · rename_i waiting hbefore
      by_cases hef : e = f
      · subst hef
        exact .joined rfl hbefore ((route?_setRoute _ _ _ _).trans (if_pos rfl))
      · exact .same (((route?_setRoute _ _ _ _).trans (if_neg hef)).trans (hstart e)) nofun
    · rename_i hnone
      by_cases hef : e = f
      · subst hef
        exact .began rfl hnone ((route?_setRoute _ _ _ _).trans (if_pos rfl))
      · exact .same (((route?_setRoute _ _ _ _).trans (if_neg hef)).trans (hstart e)) nofun

/-- Leaving a search changes the routes only if it shuts the limiter. -/
theorem Rerouted.leave {e g : Endpoint} (h : Rerouted w m e v) : Rerouted w m e (v.leave g) := by
  rcases leave_route? v g e with hleave | hshut
  · cases h with
    | same hroute hsettle => exact .same (hleave.trans hroute) hsettle
    | shut hshut => exact .shut (shut_hangUpIfFree (w := v.endDiscovery g) hshut)
    | began hm hnone hroute => exact .began hm hnone (hleave.trans hroute)
    | joined hm hbefore hroute => exact .joined hm hbefore (hleave.trans hroute)
    | found hm hbefore hended hroute => exact .found hm hbefore hended (hleave.trans hroute)
    | failed hm hbefore hhanded hended hrest hroute =>
      exact .failed hm hbefore hhanded hended hrest (hroute.imp hleave.trans hleave.trans)
  · exact .shut hshut

/-- Settling a search hands out requests only if a probe found a manager for those that wait. -/
theorem handed_settle_eq_nil
    (h : ∀ k d waiting, w.discovery? e = some d → d.probe = .ended (.ok k) →
      w.route? e = some (.discovering waiting) → False) (i : Nat) : w.handed (.settle e) i = [] := by
  simp only [handed]
  split
  · rename_i hdiscovery hroute
    exact (h _ _ _ hdiscovery rfl hroute).elim
  · rfl

theorem settleFailed_reroutes {failure : Failure} {waiting : List Pending}
    (hbefore : w.route? f = some (.discovering waiting))
    (hended : ∃ d failure, w.discovery? f = some d ∧ d.probe = .ended (.error failure))
    (e : Endpoint) : Rerouted w (.settle f) e (w.settleFailed f failure waiting).1 := by
  have hhanded : ∀ i, w.handed (.settle f) i = [] := by
    apply handed_settle_eq_nil
    intro k d _ hd hprobe _
    obtain ⟨d', _, hd', hprobe'⟩ := hended
    obtain rfl := Option.some.inj (hd.symm.trans hd')
    rw [hprobe] at hprobe'
    cases hprobe'
  have hanswer : (w.answerAll (.error failure) (waiting.take 1)).1.route? e = w.route? e :=
    route?_of_desk (desk_of_core (core_answerAll w _ _)) e
  unfold settleFailed
  dsimp only
  split
  · refine .leave ?_
    have hafter := route?_removeRoute (w.answerAll (.error failure) (waiting.take 1)).1 f e
    by_cases hef : e = f
    · subst hef
      exact .failed rfl hbefore hhanded hended (List.nil_sublist _)
        (.inr (hafter.trans (if_pos rfl)))
    · exact .same ((hafter.trans (if_neg hef)).trans hanswer) fun _ => hhanded
  · rename_i p rest hrest
    have hafter := route?_setRoute (w.answerAll (.error failure) (waiting.take 1)).1 f e
      (.discovering (p :: rest))
    by_cases hef : e = f
    · subst hef
      refine .failed rfl hbefore hhanded hended ?_ (.inl (hafter.trans (if_pos rfl)))
      rw [← hrest]
      exact List.filter_sublist.trans (List.drop_sublist _ _)
    · exact .same ((hafter.trans (if_neg hef)).trans hanswer) fun _ => hhanded

theorem settle_reroutes (w : Limiter) (e f : Endpoint) (hclosed : w.closed = true → w.Shut) :
    Rerouted w (.settle f) e (w.settle f).1 := by
  unfold settle
  split
  · rename_i g outcome hdiscovery
    split
    · rename_i hroute
      refine .leave (.same rfl fun hm i => handed_settle_eq_nil ?_ i)
      rintro _ _ _ - - hwaiting
      exact nomatch hroute.symm.trans hwaiting
    · rename_i hroute
      refine .leave (.same rfl fun hm i => handed_settle_eq_nil ?_ i)
      rintro _ _ _ - - hwaiting
      exact nomatch hroute.symm.trans hwaiting
    · rename_i waiting hroute
      split
      · rename_i h
        exact nomatch ((hclosed h).route? f).symm.trans hroute
      · split
        · rename_i k
          unfold settleFound
          refine .leave ?_
          have hafter := (route?_of_desk (desk_enqueueAll (w.setRoute f (.ready k)) k waiting)
            e).trans (route?_setRoute w f e (.ready k))
          by_cases hef : e = f
          · subst hef
            exact .found rfl hroute ⟨_, hdiscovery, rfl⟩ (hafter.trans (if_pos rfl))
          · exact .same (hafter.trans (if_neg hef))
              fun hm => absurd (Move.settle.inj hm).symm hef
        · rename_i failure
          exact settleFailed_reroutes hroute ⟨_, failure, hdiscovery, rfl⟩ e
  · rename_i hnot
    refine .same rfl fun hm i => handed_settle_eq_nil ?_ i
    intro k d _ hd hprobe
    obtain ⟨g, probe⟩ := d
    subst hprobe
    exact (hnot _ _ hd).elim

/-- Every move leaves the route of an endpoint alone, or changes it in one of the ways listed. -/
theorem step_reroutes (hclosed : w.closed = true → w.Shut) (m : Move) (e : Endpoint) :
    Rerouted w m e (w.step m).1 := by
  cases hm : m.actor? with
  | some k =>
    refine .of_desk (desk_acting hm w) ?_
    rintro rfl
    cases hm
  | none =>
    unfold step
    split
    · rename_i hblocked
      refine .same rfl ?_
      rintro rfl
      cases hblocked
    · cases m with
      | submit f r => exact submit_reroutes w e f r
      | settle f => exact settle_reroutes w e f hclosed
      | startProbe f => exact .of_desk (desk_startProbe w f) nofun
      | endProbe f result => exact .of_desk (desk_endProbe w f result) nofun
      | shutdown => exact .shut (shut_shutdown w hclosed)
      | release =>
        rcases hangUpIfFree_routes { w with owners := w.owners - 1 } with h | h
        · exact .same (congrArg (List.lookup e) h) nofun
        · exact .shut h
      | retain => exact .same rfl nofun
      | renew f => exact .same rfl nofun
      | elapse d => exact .same rfl nofun
      | refresh => exact .same rfl nofun
      | cancel id =>
        refine .same ?_ nofun
        show (w.letGo id).route? e = _
        unfold letGo
        split <;> rfl
      | letGo id =>
        refine .same ?_ nofun
        show (w.letGo id).route? e = _
        unfold letGo
        split <;> rfl
      | call i => exact .of_desk (desk_of_core (core_call w i)) nofun
      | awaitPause => exact .of_desk (desk_of_core (core_awaitPause w)) nofun
      | tick => exact .of_desk (desk_of_core (core_tick w)) nofun
      | command k => cases hm
      | signal k => cases hm
      | ring k => cases hm
      | returned k id result => cases hm

/-! ## The clock, the numbers and the gate -/

/-- The next number, the clock, and whether the limiter was told to stop. -/
def stamp (w : Limiter) : Nat × Moment × Bool := (w.nextId, w.now, w.closed)

theorem stamp_of_desk (h : v.desk = w.desk) : v.stamp = w.stamp := by
  have hstamp : v.desk.stamp = w.desk.stamp := congrArg stamp h
  exact hstamp

theorem stamp_hangUpIfFree (w : Limiter) : w.hangUpIfFree.stamp = w.stamp := by
  unfold hangUpIfFree
  split <;> rfl

theorem stamp_leave (w : Limiter) (e : Endpoint) : (w.leave e).stamp = w.stamp :=
  stamp_hangUpIfFree (w.endDiscovery e)

theorem stamp_settle (w : Limiter) (e : Endpoint) : (w.settle e).1.stamp = w.stamp := by
  unfold settle
  split
  · split
    · exact stamp_leave w e
    · exact stamp_leave w e
    · split
      · refine (stamp_leave _ e).trans ?_
        exact (stamp_of_desk (desk_of_core (core_answerAll (w.removeRoute e) _ _)) :)
      · split
        · refine (stamp_leave _ e).trans ?_
          exact (stamp_of_desk (desk_enqueueAll (w.setRoute e _) _ _) :)
        · unfold settleFailed
          dsimp only
          split
          · refine (stamp_leave _ e).trans ?_
            exact (stamp_of_desk (desk_of_core (core_answerAll w _ _)) :)
          · exact (stamp_of_desk (desk_of_core (core_answerAll w _ _)) :)
  · rfl

theorem stamp_submit (w : Limiter) (e : Endpoint) (r : Request) :
    (w.submit e r).1.stamp = (w.nextId + 1, w.now, w.closed) := by
  have hstart : { w with nextId := w.nextId + 1 }.startTicker.stamp =
      (w.nextId + 1, w.now, w.closed) :=
    (stamp_of_desk (desk_of_core (core_startTicker { w with nextId := w.nextId + 1 })) :)
  unfold submit
  dsimp only
  split
  · exact (stamp_of_desk (desk_of_core (core_answer { w with nextId := w.nextId + 1 } _ _)) :)
  · split
    · exact (stamp_of_desk (desk_enqueue _ _ _)).trans hstart
    · exact hstart
    · exact hstart

theorem shutdown_stamp (w : Limiter) :
    w.shutdown.1.nextId = w.nextId ∧ w.shutdown.1.now = w.now := by
  unfold shutdown
  split
  · exact ⟨rfl, rfl⟩
  · have hstamp := stamp_of_desk (desk_of_core (core_answerAll
      { w with closed := true, actors := w.mapRegistered Actor.stop } (.error .shutdown)
      (w.routes.flatMap (·.2.waiting))))
    exact ⟨congrArg Prod.fst hstamp, congrArg (·.2.1) hstamp⟩

theorem stamp_letGo (w : Limiter) (id : Nat) : (w.letGo id).stamp = w.stamp := by
  unfold letGo
  split <;> rfl

end Limiter

/-- How much time a move takes. -/
def Move.elapsed : Move → Int
  | .elapse d => d
  | _ => 0

namespace Limiter

variable {w v : Limiter} {m : Move}

/-- The endpoint of a submission that a move makes. -/
def submits? (w : Limiter) : Move → Option Endpoint
  | .submit e _ => if w.owners = 0 then none else some e
  | _ => none

theorem step_stamp (w : Limiter) (m : Move) :
    (w.step m).1.nextId = w.nextId + (w.submits? m).toList.length ∧
      (w.step m).1.now = w.now + m.elapsed ∧
      (m ≠ .shutdown → (w.step m).1.closed = w.closed) := by
  have same {v : Limiter} (h : v.stamp = w.stamp) :
      v.nextId = w.nextId ∧ v.now = w.now + 0 ∧ (m ≠ .shutdown → v.closed = w.closed) := by
    rw [Int.add_zero]
    exact ⟨congrArg Prod.fst h, congrArg (·.2.1) h, fun _ => congrArg (·.2.2) h⟩
  cases hm : m.actor? with
  | some k =>
    have hsame := same (stamp_of_desk (desk_acting hm w))
    cases m <;> first | exact hsame | cases hm
  | none =>
    unfold step
    split
    · rename_i hblocked
      rw [Bool.and_eq_true, beq_iff_eq] at hblocked
      cases m with
      | submit f r =>
        have hnone : w.submits? (.submit f r) = none := if_pos hblocked.2
        rw [hnone]
        exact same rfl
      | elapse d => cases hblocked.1
      | _ => exact same rfl
    · rename_i hfree
      cases m with
      | submit f r =>
        have howners : w.owners ≠ 0 := by
          intro hzero
          apply hfree
          rw [hzero]
          rfl
        have hsubmit := stamp_submit w f r
        have hsome : w.submits? (.submit f r) = some f := if_neg howners
        rw [hsome]
        exact ⟨congrArg Prod.fst hsubmit, (congrArg (·.2.1) hsubmit).trans (Int.add_zero _).symm,
          fun _ => congrArg (·.2.2) hsubmit⟩
      | settle f => exact same (stamp_settle w f)
      | startProbe f => exact same (stamp_of_desk (desk_startProbe w f))
      | endProbe f result => exact same (stamp_of_desk (desk_endProbe w f result))
      | shutdown =>
        obtain ⟨hid, hnow⟩ := shutdown_stamp w
        exact ⟨hid, hnow.trans (Int.add_zero _).symm, fun h => absurd rfl h⟩
      | release => exact same (stamp_hangUpIfFree _)
      | retain => exact same rfl
      | renew f => exact same rfl
      | elapse d => exact ⟨rfl, rfl, fun _ => rfl⟩
      | refresh => exact same rfl
      | cancel id => exact same (stamp_letGo w id)
      | letGo id => exact same (stamp_letGo w id)
      | call i => exact same (stamp_of_desk (desk_of_core (core_call w i)))
      | awaitPause => exact same (stamp_of_desk (desk_of_core (core_awaitPause w)))
      | tick => exact same (stamp_of_desk (desk_of_core (core_tick w)))
      | command k => cases hm
      | signal k => cases hm
      | ring k => cases hm
      | returned k id result => cases hm

theorem now_step (w : Limiter) (m : Move) : w.now ≤ (w.step m).1.now := by
  rw [(step_stamp w m).2.1]
  have helapsed : 0 ≤ m.elapsed := by
    cases m with
    | elapse d => exact Int.natCast_nonneg d
    | _ => exact Int.le_refl 0
  exact Int.le_add_of_nonneg_right helapsed

/-- A limiter that was told to stop is shut, before and after every move. -/
theorem closed_step (h : w.closed = true → w.Shut) (m : Move) :
    (w.step m).1.closed = true → (w.step m).1.Shut := by
  intro hclosed
  by_cases hm : m = .shutdown
  · subst hm
    by_cases hbefore : w.closed = true
    · exact shut_step (h hbefore) _
    · unfold step at hclosed ⊢
      split
      · rename_i hblocked
        rw [if_pos hblocked] at hclosed
        exact absurd hclosed hbefore
      · exact shut_shutdown w h
  · rw [(step_stamp w m).2.2 hm] at hclosed
    exact shut_step (h hclosed) m

end Limiter

end Throttle
