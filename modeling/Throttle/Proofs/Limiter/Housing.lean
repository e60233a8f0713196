import Throttle.Proofs.Limiter.Custody

/-!
  The tables of a limiter fit together: `Housed`. An endpoint has one route, a route that waits for
  a probe has a search, and every manager that a table names is there. So a request that is handed
  over has somewhere to go, and a limiter that hangs up leaves nobody waiting. Every move keeps the
  tables (`housed_step`) and settles what it is given (`settles_step`).
-/

namespace Throttle

open Http Actor

namespace Limiter

variable {w v : Limiter} {e : Endpoint} {hs : List Happening}

/-! ## Routes as a table -/

theorem lookup_of_mem {l : List (Endpoint × Route)} {r : Route} (hkeys : (l.map (·.1)).Nodup)
    (h : (e, r) ∈ l) : l.lookup e = some r := by
  induction l with
  | nil => cases h
  | cons x l ih =>
    obtain ⟨g, r'⟩ := x
    rw [List.map_cons, List.nodup_cons] at hkeys
    rw [lookup_cons_eq]
    rcases List.mem_cons.1 h with heq | htail
    · cases heq
      exact if_pos rfl
    · have hne : e ≠ g := by
        rintro rfl
        exact hkeys.1 (List.mem_map.2 ⟨_, htail, rfl⟩)
      rw [if_neg hne]
      exact ih hkeys.2 htail

theorem mem_of_lookup {l : List (Endpoint × Route)} {r : Route} (h : l.lookup e = some r) :
    (e, r) ∈ l := by
  obtain ⟨l₁, l₂, rfl, -⟩ := List.lookup_eq_some_iff.1 h
  exact List.mem_append_right _ List.mem_cons_self

/-- A table holds what it holds for one endpoint and for the others. -/
theorem count_routes_split {l : List (Endpoint × Route)} (hkeys : (l.map (·.1)).Nodup)
    (e : Endpoint) (id : Nat) :
    (l.flatMap fun x => x.2.ids).count id =
      (((l.lookup e).elim [] Route.waiting).map (·.id)).count id +
        ((l.filter (·.1 ≠ e)).flatMap fun x => x.2.ids).count id := by
  induction l with
  | nil => rfl
  | cons x l ih =>
    obtain ⟨g, r⟩ := x
    rw [List.map_cons, List.nodup_cons] at hkeys
    rw [count_flatMap_cons, lookup_cons_eq]
    by_cases hg : g = e
    · subst hg
      have hothers : l.filter (·.1 ≠ g) = l := by
        refine List.filter_eq_self.2 fun x hx => ?_
        have hne : x.1 ≠ g := by
          rintro rfl
          exact hkeys.1 (List.mem_map.2 ⟨x, hx, rfl⟩)
        simp [hne]
      rw [if_pos rfl, List.filter_cons_of_neg (by simp), hothers]
      rfl
    · have hrest := ih hkeys.2
      rw [if_neg (Ne.symm hg), List.filter_cons_of_pos (by simp [hg]), count_flatMap_cons]
      omega

/-! ## Tables that fit together -/

/-- The tables of a limiter fit together. -/
structure Housed (w : Limiter) : Prop where
  keys : (w.routes.map (·.1)).Nodup
  /-- Who waits for a probe has one to come. -/
  searched : ∀ e waiting, w.route? e = some (.discovering waiting) →
    ∃ d ∈ w.discoveries, d.endpoint = e
  known : ∀ e k, w.route? e = some (.ready k) → k < w.actors.length
  found : ∀ d ∈ w.discoveries, ∀ k, d.probe = .ended (.ok k) → k < w.actors.length
  registered : ∀ x ∈ w.registered, x.2 < w.actors.length

namespace Housed

/-- The same tables still fit when there are more managers. -/
theorem grow (h : w.Housed) (hroutes : v.routes = w.routes)
    (hdiscoveries : v.discoveries = w.discoveries) (hregistered : v.registered = w.registered)
    (hlength : w.actors.length ≤ v.actors.length) : v.Housed := by
  have hroute (e : Endpoint) : v.route? e = w.route? e := congrArg (List.lookup e) hroutes
  refine ⟨by rw [hroutes]; exact h.keys, ?_, ?_, ?_, ?_⟩
  · intro e waiting
    rw [hroute, hdiscoveries]
    exact h.searched e waiting
  · intro e k
    rw [hroute]
    exact fun hk => Nat.lt_of_lt_of_le (h.known e k hk) hlength
  · rw [hdiscoveries]
    exact fun d hd k hk => Nat.lt_of_lt_of_le (h.found d hd k hk) hlength
  · rw [hregistered]
    exact fun x hx => Nat.lt_of_lt_of_le (h.registered x hx) hlength

/-- The tables do not depend on the other parts of a limiter. -/
theorem frame (h : w.Housed) (hroutes : v.routes = w.routes)
    (hdiscoveries : v.discoveries = w.discoveries) (hregistered : v.registered = w.registered)
    (hactors : v.actors = w.actors) : v.Housed :=
  h.grow hroutes hdiscoveries hregistered (Nat.le_of_eq (congrArg List.length hactors.symm))

theorem of_core (h : w.Housed) (hv : v.core = w.core) : v.Housed :=
  h.frame (show v.core.routes = w.core.routes from congrArg routes hv)
    (show v.core.discoveries = w.core.discoveries from congrArg discoveries hv)
    (show v.core.registered = w.core.registered from congrArg Limiter.registered hv)
    (actors_of_core hv)

theorem live (h : w.Housed) (k : Nat) (ds : List Deed) : (w.live k ds).Housed :=
  h.grow rfl rfl rfl (Nat.le_of_eq (List.length_modify _ _ _).symm)

theorem setRoute (h : w.Housed) {r : Route}
    (hsearched : ∀ waiting, r = .discovering waiting → ∃ d ∈ w.discoveries, d.endpoint = e)
    (hknown : ∀ k, r = .ready k → k < w.actors.length) : (w.setRoute e r).Housed where
  keys := by
    show (((e, r) :: w.routes.filter (·.1 ≠ e)).map (·.1)).Nodup
    rw [List.map_cons, List.nodup_cons]
    constructor
    · intro hmem
      obtain ⟨x, hx, heq⟩ := List.mem_map.1 hmem
      exact of_decide_eq_true (List.mem_filter.1 hx).2 heq
    · exact h.keys.sublist (List.filter_sublist.map _)
  searched g waiting hroute := by
    rw [route?_setRoute] at hroute
    split at hroute
    · rename_i hge
      obtain ⟨d, hd, heq⟩ := hsearched waiting (Option.some.inj hroute)
      exact ⟨d, hd, heq.trans hge.symm⟩
    · exact h.searched g waiting hroute
  known g k hroute := by
    rw [route?_setRoute] at hroute
    split at hroute
    · exact hknown k (Option.some.inj hroute)
    · exact h.known g k hroute
  found := h.found
  registered := h.registered

theorem removeRoute (h : w.Housed) (e : Endpoint) : (w.removeRoute e).Housed where
  keys := h.keys.sublist (List.filter_sublist.map _)
  searched g waiting hroute := by
    rw [route?_removeRoute] at hroute
    split at hroute
    · cases hroute
    · exact h.searched g waiting hroute
  known g k hroute := by
    rw [route?_removeRoute] at hroute
    split at hroute
    · cases hroute
    · exact h.known g k hroute
  found := h.found
  registered := h.registered

/-- A search that goes on is still the search for its endpoint. -/
theorem setDiscovery (h : w.Housed) {p : Probe}
    (hp : ∀ k, p = .ended (.ok k) → k < w.actors.length) : (w.setDiscovery e p).Housed where
  keys := h.keys
  searched g waiting hroute := by
    obtain ⟨d, hd, heq⟩ := h.searched g waiting hroute
    refine ⟨_, List.mem_map_of_mem hd, ?_⟩
    split
    · rename_i hde
      exact hde.symm.trans heq
    · exact heq
  known := h.known
  found d hd k hk := by
    obtain ⟨d', hd', rfl⟩ := List.mem_map.1 hd
    split at hk
    · exact hp k hk
    · exact h.found d' hd' k hk
  registered := h.registered

/-- Somebody new may be searched for. -/
theorem addDiscovery (h : w.Housed) {d : Discovery}
    (hd : ∀ k, d.probe = .ended (.ok k) → k < w.actors.length) :
    { w with discoveries := w.discoveries ++ [d] }.Housed where
  keys := h.keys
  searched g waiting hroute := by
    obtain ⟨d', hd', heq⟩ := h.searched g waiting hroute
    exact ⟨d', List.mem_append_left _ hd', heq⟩
  known := h.known
  found d' hd' k hk := by
    rcases List.mem_append.1 hd' with hold | hnew
    · exact h.found d' hold k hk
    · obtain rfl := List.mem_singleton.1 hnew
      exact hd k hk
  registered := h.registered

/-- Nobody waits for a probe in a limiter that searches for nothing. -/
theorem nobody (h : w.Housed) (hnone : w.discoveries = []) :
    (w.routes.flatMap fun x => x.2.ids) = [] := by
  refine List.flatMap_eq_nil_iff.2 fun x hx => ?_
  obtain ⟨g, r⟩ := x
  cases r with
  | ready k => rfl
  | discovering waiting =>
    obtain ⟨d, hd, -⟩ := h.searched g waiting (lookup_of_mem h.keys hx)
    rw [hnone] at hd
    cases hd

/-- A limiter without routes and registered managers. -/
theorem cleared (h : w.Housed) (hroutes : v.routes = []) (hregistered : v.registered = [])
    (hdiscoveries : v.discoveries = w.discoveries)
    (hlength : w.actors.length ≤ v.actors.length) : v.Housed where
  keys := by
    rw [hroutes]
    exact .nil
  searched g waiting hroute := by
    unfold route? at hroute
    rw [hroutes] at hroute
    cases hroute
  known g k hroute := by
    unfold route? at hroute
    rw [hroutes] at hroute
    cases hroute
  found d hd k hk := by
    rw [hdiscoveries] at hd
    exact Nat.lt_of_lt_of_le (h.found d hd k hk) hlength
  registered x hx := by
    rw [hregistered] at hx
    cases hx

theorem length_mapRegistered (w : Limiter) (g : Actor → Actor) :
    (w.mapRegistered g).length = w.actors.length := by
  unfold mapRegistered
  induction w.registered generalizing w with
  | nil => rfl
  | cons x rest ih =>
    exact (ih { w with actors := w.actors.modify x.2 g }).trans (List.length_modify _ _ _)

theorem hangUpIfFree (h : w.Housed) : w.hangUpIfFree.Housed := by
  unfold Limiter.hangUpIfFree
  split
  · exact h.cleared rfl rfl rfl (Nat.le_of_eq (length_mapRegistered w _).symm)
  · exact h

/-- A search can end once nobody waits for it. -/
theorem endDiscovery (h : w.Housed)
    (hroute : ∀ waiting, w.route? e ≠ some (.discovering waiting)) : (w.endDiscovery e).Housed where
  keys := h.keys
  searched g waiting hg := by
    obtain ⟨d, hd, rfl⟩ := h.searched g waiting hg
    refine ⟨d, List.mem_filter.2 ⟨hd, ?_⟩, rfl⟩
    have hne : d.endpoint ≠ e := fun heq => hroute waiting (heq ▸ hg)
    simpa using hne
  known := h.known
  found d hd := h.found d (List.mem_of_mem_filter hd)
  registered := h.registered

theorem leave (h : w.Housed) (hroute : ∀ waiting, w.route? e ≠ some (.discovering waiting)) :
    (w.leave e).Housed := (h.endDiscovery hroute).hangUpIfFree

end Housed

/-! ## Parts of a move that change the tables -/

theorem setRoute_settles (h : w.Housed) (e : Endpoint) (r : Route) :
    Settles w r.ids (w.setRoute e r) ((w.waitingFor e).map (·.id)) [] := by
  refine .still rfl rfl (fun id => ?_) rfl
  have hsplit := count_routes_split h.keys e id
  have hnew : (((w.setRoute e r).routes).flatMap fun x => x.2.ids).count id =
      r.ids.count id + ((w.routes.filter (·.1 ≠ e)).flatMap fun x => x.2.ids).count id :=
    count_flatMap_cons _ _
  have hactors : (w.setRoute e r).actors = w.actors := rfl
  unfold held
  rw [hnew, hactors, hsplit]
  unfold waitingFor route?
  omega

theorem removeRoute_settles (h : w.Housed) (e : Endpoint) :
    Settles w [] (w.removeRoute e) ((w.waitingFor e).map (·.id)) [] := by
  refine .still rfl rfl (fun id => ?_) rfl
  have hsplit := count_routes_split h.keys e id
  have hnew : (((w.removeRoute e).routes).flatMap fun x => x.2.ids).count id =
      ((w.routes.filter (·.1 ≠ e)).flatMap fun x => x.2.ids).count id := rfl
  have hactors : (w.removeRoute e).actors = w.actors := rfl
  unfold held
  rw [hnew, hactors, hsplit, List.count_nil]
  unfold waitingFor route?
  omega

/-- Hanging up leaves nobody waiting. -/
theorem hangUpIfFree_settles (h : w.Housed) : Settles w [] w.hangUpIfFree [] [] := by
  unfold hangUpIfFree
  split
  · rename_i hfree
    refine .still rfl rfl (fun id => ?_) rfl
    have hactors : w.hangUp.actors.flatMap Actor.custody = w.actors.flatMap Actor.custody :=
      flatMap_custody_of_map (map_mapRegistered (f := Actor.disconnect) (fun _ => rfl) w)
    unfold held
    rw [hactors, h.nobody hfree.2]
    rfl
  · exact .aside rfl rfl

theorem leave_settles (h : w.Housed)
    (hroute : ∀ waiting, w.route? e ≠ some (.discovering waiting)) :
    Settles w [] (w.leave e) [] [] :=
  (hangUpIfFree_settles (h.endDiscovery hroute)).of_ledger rfl rfl

/-! ## Moves -/

theorem endings_nil_of_forall (h : ∀ x ∈ hs, x.end? = none) : endings hs = [] :=
  List.filterMap_eq_nil_iff.2 h

/-- Requests whose callers stopped waiting may vanish. -/
theorem vanish_settles {qs : List Nat} (h : ∀ id ∈ qs, id ∈ w.dropped) : Settles w qs w [] [] where
  dropped := rfl
  answered := rfl
  known := List.forall_mem_nil _
  bound id := Nat.add_le_add_left (Nat.zero_le _) _
  balance id hid := by
    rw [List.count_eq_zero.2 fun hmem => hid (h id hmem)]
    rfl

/-- A limiter that has numbered one more submission and started its ticker. -/
def numbered (w : Limiter) : Limiter := { w with nextId := w.nextId + 1 }.startTicker

theorem core_numbered (w : Limiter) :
    w.numbered.core = { w with nextId := w.nextId + 1 }.core := core_startTicker _

theorem Housed.numbered (h : w.Housed) : w.numbered.Housed :=
  Housed.of_core (w := { w with nextId := w.nextId + 1 }) (h.frame rfl rfl rfl rfl)
    (core_numbered w)

theorem numbered_settles (w : Limiter) (ps : List Nat) : Settles w ps w.numbered ps [] := by
  refine .aside ?_ rfl
  unfold numbered startTicker
  split <;> rfl

theorem submit_settles (h : w.Housed) (e : Endpoint) (r : Request) :
    (w.submit e r).1.Housed ∧ Settles w [w.nextId] (w.submit e r).1 [] (w.submit e r).2 := by
  have hroute : w.numbered.route? e = w.route? e :=
    (route?_of_desk (desk_of_core (core_numbered w)) e :)
  have hactors : w.numbered.actors = w.actors := (actors_of_core (core_numbered w) :)
  have hstart {v : Limiter} {hs : List Happening} (hv : Settles w.numbered [w.nextId] v [] hs) :
      Settles w [w.nextId] v [] hs := (numbered_settles w _).trans hv
  unfold submit
  dsimp only
  split
  · have hanswer := answer_settles { w with nextId := w.nextId + 1 } w.nextId (.error .shutdown)
    exact ⟨Housed.of_core (w := { w with nextId := w.nextId + 1 }) (h.frame rfl rfl rfl rfl)
      (core_answer _ _ _), hanswer.of_ledger rfl rfl⟩
  · have hname : { w with nextId := w.nextId + 1 }.startTicker = w.numbered := rfl
    rw [hname, hroute]
    split
    · rename_i k hready
      have hk : k < w.numbered.actors.length := by
        rw [hactors]
        exact h.known e k hready
      exact ⟨(h.numbered.live k _).of_core (core_enqueue _ _ _),
        hstart (enqueue_settles hk (w.submission e r))⟩
    · rename_i waiting hwaiting
      have hset := setRoute_settles h.numbered e
        (.discovering (waiting ++ [w.submission e r]))
      rw [waitingFor_of_discovering (hroute.trans hwaiting)] at hset
      have hjoined : Settles w.numbered (waiting.map (·.id) ++ [w.nextId])
          (w.numbered.setRoute e (.discovering (waiting ++ [w.submission e r])))
          (waiting.map (·.id) ++ []) [] := by
        rw [List.append_nil]
        have hids : Route.ids (.discovering (waiting ++ [w.submission e r])) =
            waiting.map (·.id) ++ [w.nextId] := List.map_append
        rwa [hids] at hset
      refine ⟨h.numbered.setRoute ?_ nofun, hstart (hjoined.cancel.cons rfl)⟩
      exact fun _ _ => h.numbered.searched e waiting (hroute.trans hwaiting)
    · rename_i hnone
      have hset := setRoute_settles h.numbered e (.discovering [w.submission e r])
      rw [waitingFor_of_none (hroute.trans hnone)] at hset
      have hadded := h.numbered.addDiscovery
        (d := ⟨e, .starting (w.submission e r).request.probe⟩) nofun
      refine ⟨?_, hstart (hset.of_ledger rfl rfl)⟩
      exact hadded.setRoute
        (fun _ _ => ⟨_, List.mem_append_right _ (List.mem_singleton_self _), rfl⟩) nofun

theorem startProbe_settles (h : w.Housed) (e : Endpoint) :
    (w.startProbe e).1.Housed ∧ Settles w [] (w.startProbe e).1 [] (w.startProbe e).2 := by
  unfold startProbe
  split
  · split
    · exact ⟨h.setDiscovery nofun, .aside rfl rfl⟩
    · exact ⟨h.setDiscovery nofun, .aside rfl rfl⟩
  · exact ⟨h, .aside rfl rfl⟩

theorem endings_probeReport (e : Endpoint) (reply : Reply) :
    endings (probeReport e reply) = [] := by
  refine endings_nil_of_forall fun x hx => ?_
  rcases List.mem_cons.1 hx with rfl | hx
  · rfl
  · obtain ⟨⟨n, v⟩, -, rfl⟩ := List.mem_map.1 hx
    rfl

theorem gone?_of_probePolicy {signed : Request} {reply : Reply} {failure : Failure} {n : Notice}
    (h : probePolicy e signed reply = .error (failure, n)) : n.gone? = none := by
  unfold probePolicy at h
  split at h
  · cases h
    rfl
  · split at h
    · cases h
      rfl
    · split at h <;> cases h
      rfl

theorem managerFor_settles (h : w.Housed) (span : Span) (name : PolicyName) :
    (w.managerFor span name).1.Housed ∧
      (w.managerFor span name).2.2 < (w.managerFor span name).1.actors.length ∧
      Settles w [] (w.managerFor span name).1 [] (w.managerFor span name).2.1 := by
  unfold managerFor
  split
  · rename_i k hk
    obtain ⟨l₁, l₂, hsplit, -⟩ := List.lookup_eq_some_iff.1 hk
    have hmem : (name, k) ∈ w.registered := by
      rw [hsplit]
      exact List.mem_append_right _ List.mem_cons_self
    exact ⟨h, h.registered _ hmem, .aside rfl rfl⟩
  · have hgrown : { w with actors := w.actors ++ [Actor.new name] }.Housed :=
      h.grow rfl rfl rfl (by simp)
    refine ⟨⟨hgrown.keys, hgrown.searched, hgrown.known, hgrown.found, ?_⟩, by simp, ?_⟩
    · intro x hx
      rcases List.mem_append.1 hx with hold | hnew
      · exact hgrown.registered x hold
      · obtain rfl := List.mem_singleton.1 hnew
        simp
    · refine .still rfl rfl (fun id => ?_) rfl
      unfold held
      dsimp only
      rw [List.flatMap_append, List.count_append]
      rfl

theorem seed_settles (h : w.Housed) (span : Span) (k : Nat) (reply : Reply) :
    (w.seed span k reply).1.Housed ∧
      Settles w [] (w.seed span k reply).1 [] (w.seed span k reply).2 := by
  refine ⟨(h.live k _).of_core (core_seed _ _ _ _), ?_⟩
  unfold seed
  split
  · exact .aside rfl rfl
  · rename_i a ha
    split
    · exact post_settles ha (.seed reply)
    · exact .aside rfl rfl

theorem endProbe_settles (h : w.Housed) (e : Endpoint) (result : Except TransportFailure Reply) :
    (w.endProbe e result).1.Housed ∧
      Settles w [] (w.endProbe e result).1 [] (w.endProbe e result).2 := by
  unfold endProbe
  split
  · split
    · exact ⟨h.setDiscovery nofun, .aside rfl rfl⟩
    · rename_i reply
      dsimp only
      split
      · rename_i failure notice hpolicy
        refine ⟨h.setDiscovery nofun, .aside rfl ?_⟩
        rw [endings_append, endings_probeReport]
        exact List.filterMap_cons_none (gone?_of_probePolicy hpolicy)
      · rename_i policy _
        obtain ⟨hmade, hindex, hmakes⟩ := managerFor_settles h (discoverySpan e) policy.name
        obtain ⟨hseeded, hseeds⟩ := seed_settles hmade (discoverySpan e)
          (w.managerFor (discoverySpan e) policy.name).2.2 reply
        have hreport : Settles w [] w [] (probeReport e reply) :=
          .aside rfl (endings_probeReport e reply)
        have hall := (hreport.trans hmakes).trans hseeds
        refine ⟨hseeded.setDiscovery fun k hk => ?_, ?_⟩
        · cases hk
          rw [actors_of_core (core_seed _ _ _ _)]
          exact Nat.lt_of_lt_of_eq hindex (List.length_modify _ _ _).symm
        · exact hall.of_ledger rfl rfl
  · exact ⟨h, .aside rfl rfl⟩

theorem settleFound_settles (h : w.Housed) {k : Nat} {waiting : List Pending}
    (hk : k < w.actors.length) (hroute : w.route? e = some (.discovering waiting)) :
    (w.settleFound e k waiting).1.Housed ∧
      Settles w [] (w.settleFound e k waiting).1 [] (w.settleFound e k waiting).2 := by
  have hready : (w.setRoute e (.ready k)).Housed :=
    h.setRoute nofun fun j hj => (Route.ready.inj hj) ▸ hk
  have hset := setRoute_settles h e (.ready k)
  rw [waitingFor_of_discovering hroute] at hset
  have hqueues := enqueueAll_settles (w := w.setRoute e (.ready k)) hk waiting
  have hqueued : (each (enqueue k) (w.setRoute e (.ready k)) waiting).1.Housed :=
    (hready.live k _).of_core (core_enqueueAll _ _ _)
  have hover (ws : List Pending) :
      (each (enqueue k) (w.setRoute e (.ready k)) waiting).1.route? e ≠
        some (.discovering ws) := by
    rw [route?_of_desk (desk_enqueueAll _ _ _), route?_setRoute, if_pos rfl]
    nofun
  unfold settleFound
  dsimp only
  refine ⟨hqueued.leave hover, ?_⟩
  have hreport (ns : List PolicyName) (n : Nat) : endings
      (ns.map fun name => .notice none (.registered e name n)) = [] := by
    refine endings_nil_of_forall fun x hx => ?_
    obtain ⟨name, -, rfl⟩ := List.mem_map.1 hx
    rfl
  have hall := ((hset.trans hqueues).trans (leave_settles hqueued hover))
  rw [List.append_nil] at hall
  exact (Settles.aside rfl (hreport _ _)).trans hall

/-- The requests behind the oldest one stay if somebody waits for them. -/
theorem settleFailed_remains (w : Limiter) (failure : Failure) {waiting kept : List Pending}
    (hkept : kept = (waiting.drop 1).filter fun p => !w.dropped.contains p.id)
    (hroute : Settles (w.answerAll (.error failure) (waiting.take 1)).1 (kept.map (·.id)) v
      (waiting.map (·.id)) []) :
    Settles w [] v [] (w.answerAll (.error failure) (waiting.take 1)).2 := by
  have hanswer := (answerAll_settles w (.error failure) (waiting.take 1)).frame (kept.map (·.id))
  rw [List.append_nil] at hanswer
  have hall := hanswer.trans hroute
  rw [List.append_nil] at hall
  -- whose callers stopped waiting is in hand no more
  have hgone : ∀ id ∈ ((waiting.drop 1).filter fun p => w.dropped.contains p.id).map (·.id),
      id ∈ v.dropped := by
    intro id hid
    obtain ⟨p, hp, rfl⟩ := List.mem_map.1 hid
    rw [hall.dropped]
    exact List.contains_iff_mem.1 (List.mem_filter.1 hp).2
  have hsplit : waiting.Perm (kept ++ waiting.take 1 ++
      (waiting.drop 1).filter fun p => w.dropped.contains p.id) := by
    have hdrop : (waiting.drop 1).Perm
        (kept ++ (waiting.drop 1).filter fun p => w.dropped.contains p.id) := by
      rw [hkept]
      exact (List.filter_append_perm _ _).symm.trans List.perm_append_comm
    have hall := hdrop.append_left (waiting.take 1)
    rw [List.take_append_drop, ← List.append_assoc] at hall
    exact hall.trans (List.perm_append_comm.append_right _)
  have hrest := hall.perm_right (hsplit.map (·.id))
  rw [List.map_append, List.map_append] at hrest
  have hvanish := hrest.trans ((vanish_settles hgone).frame _)
  rw [List.append_nil, List.append_nil] at hvanish
  rw [← List.append_nil (List.map _ kept ++ _)] at hvanish
  exact hvanish.cancel

theorem settleFailed_settles (h : w.Housed) (failure : Failure) {waiting : List Pending}
    (hroute : w.route? e = some (.discovering waiting)) (hd : ∃ d ∈ w.discoveries, d.endpoint = e) :
    (w.settleFailed e failure waiting).1.Housed ∧
      Settles w [] (w.settleFailed e failure waiting).1 []
        (w.settleFailed e failure waiting).2 := by
  have hanswered : (w.answerAll (.error failure) (waiting.take 1)).1.Housed :=
    h.of_core (core_answerAll _ _ _)
  have hwaiting : (w.answerAll (.error failure) (waiting.take 1)).1.waitingFor e = waiting :=
    waitingFor_of_discovering
      ((route?_of_desk (desk_of_core (core_answerAll _ _ _)) e).trans hroute)
  have hdropped : (w.answerAll (.error failure) (waiting.take 1)).1.dropped = w.dropped :=
    (answerAll_settles w _ _).dropped
  unfold settleFailed
  dsimp only
  rw [hdropped]
  split
  · rename_i hnone
    have hremoved := removeRoute_settles hanswered e
    rw [hwaiting] at hremoved
    have hover (ws : List Pending) : ((w.answerAll (.error failure) (waiting.take 1)).1.removeRoute
        e).route? e ≠ some (.discovering ws) := by
      rw [route?_removeRoute, if_pos rfl]
      nofun
    have hall := (settleFailed_remains w failure hnone.symm hremoved).trans
      (leave_settles (hanswered.removeRoute e) hover)
    rw [List.append_nil] at hall
    exact ⟨(hanswered.removeRoute e).leave hover, hall.cons rfl⟩
  · rename_i p rest hkept
    have hset := setRoute_settles hanswered e (.discovering (p :: rest))
    rw [hwaiting] at hset
    have hall := settleFailed_remains w failure hkept.symm hset
    have hrouted : ((w.answerAll (.error failure) (waiting.take 1)).1.setRoute e
        (.discovering (p :: rest))).Housed := by
      refine hanswered.setRoute (fun _ _ => ?_) nofun
      have hsame : (w.answerAll (.error failure) (waiting.take 1)).1.core.discoveries =
          w.core.discoveries := congrArg discoveries (core_answerAll _ _ _)
      change (w.answerAll (.error failure) (waiting.take 1)).1.discoveries = w.discoveries at hsame
      rw [hsame]
      exact hd
    refine ⟨hrouted.setDiscovery nofun, .cons ?_ rfl⟩
    exact hall.of_ledger rfl rfl

theorem settle_settles (h : w.Housed) (e : Endpoint) :
    (w.settle e).1.Housed ∧ Settles w [] (w.settle e).1 [] (w.settle e).2 := by
  unfold settle
  split
  · rename_i g outcome hdiscovery
    have hmem : ⟨g, .ended outcome⟩ ∈ w.discoveries := List.mem_of_find?_eq_some hdiscovery
    split
    · rename_i hroute
      have hover (ws : List Pending) : w.route? e ≠ some (.discovering ws) := by rw [hroute]; nofun
      exact ⟨h.leave hover, leave_settles h hover⟩
    · rename_i k hroute
      have hover (ws : List Pending) : w.route? e ≠ some (.discovering ws) := by rw [hroute]; nofun
      exact ⟨h.leave hover, leave_settles h hover⟩
    · rename_i waiting hroute
      split
      · have hremoved := removeRoute_settles h e
        rw [waitingFor_of_discovering hroute] at hremoved
        have hanswered : ((w.removeRoute e).answerAll (.error .shutdown) waiting).1.Housed :=
          (h.removeRoute e).of_core (core_answerAll _ _ _)
        have hover (ws : List Pending) :
            ((w.removeRoute e).answerAll (.error .shutdown) waiting).1.route? e ≠
              some (.discovering ws) := by
          rw [route?_of_desk (desk_of_core (core_answerAll _ _ _)), route?_removeRoute, if_pos rfl]
          nofun
        have hall := (hremoved.trans (answerAll_settles _ (.error .shutdown) waiting)).trans
          (leave_settles hanswered hover)
        rw [List.append_nil] at hall
        exact ⟨hanswered.leave hover, hall⟩
      · split
        · rename_i k
          exact settleFound_settles h (h.found _ hmem k rfl) hroute
        · exact settleFailed_settles h _ hroute (h.searched e waiting hroute)
  · exact ⟨h, .aside rfl rfl⟩

/-- Without its routes, a limiter holds nobody who waits for a probe. -/
theorem clear_settles (hrouted : v.routes = []) (hactors : v.actors = w.actors)
    (hdropped : v.dropped = w.dropped) (hanswered : v.answered = w.answered) :
    Settles w [] v ((w.routes.flatMap (·.2.waiting)).map (·.id)) [] := by
  refine .still hdropped hanswered (fun id => ?_) rfl
  have hids : (w.routes.flatMap (·.2.waiting)).map (·.id) = w.routes.flatMap fun x => x.2.ids :=
    List.map_flatMap
  unfold held
  rw [hrouted, hactors, hids, List.flatMap_nil, List.count_nil]
  omega

/-- A limiter that tells its managers to stop. -/
def stopping (w : Limiter) : Limiter :=
  { w with closed := true, actors := w.mapRegistered Actor.stop }

theorem Housed.stopping (h : w.Housed) : w.stopping.Housed :=
  h.grow rfl rfl rfl (Nat.le_of_eq (Housed.length_mapRegistered w _).symm)

/-- A manager that is told to stop holds what it held. -/
theorem stopping_settles (w : Limiter) : Settles w [] w.stopping [] [] := by
  refine .still rfl rfl (fun id => ?_) rfl
  have hactors : w.stopping.actors.flatMap Actor.custody = w.actors.flatMap Actor.custody :=
    flatMap_custody_of_map (map_mapRegistered custody_stop w)
  unfold held
  rw [hactors]
  rfl

/-- A limiter that stops has answered everybody who waited for a probe. -/
theorem shutdown_settles (h : w.Housed) :
    w.shutdown.1.Housed ∧ Settles w [] w.shutdown.1 [] w.shutdown.2 := by
  unfold shutdown
  split
  · exact ⟨h, .aside rfl rfl⟩
  · have hname : { w with closed := true, actors := w.mapRegistered Actor.stop } = w.stopping := rfl
    have hcore := core_answerAll w.stopping (.error .shutdown)
      (w.routes.flatMap fun x => x.2.waiting)
    have hanswer := answerAll_settles w.stopping (.error .shutdown)
      (w.routes.flatMap fun x => x.2.waiting)
    dsimp only
    rw [hname]
    generalize w.stopping.answerAll (.error .shutdown) (w.routes.flatMap fun x => x.2.waiting) = u
      at hcore hanswer
    have hroutes : u.1.core.routes = w.stopping.core.routes := congrArg routes hcore
    change u.1.routes = w.routes at hroutes
    have hclear := clear_settles (w := u.1)
      (v := { u.1 with routes := [], registered := [], ticker := .off }) rfl rfl rfl rfl
    rw [hroutes] at hclear
    -- they are taken in hand for their answers before the table gives them up
    have hanswered := (stopping_settles w).frame
      ((w.routes.flatMap fun x => x.2.waiting).map (·.id)) |>.trans
        (hanswer.perm_left (.of_eq (List.append_nil _).symm))
    have hdone := (hanswered.trans hclear).perm_right (.of_eq (List.append_nil _).symm)
    have hall := hdone.cancel
    rw [List.nil_append, List.append_nil] at hall
    exact ⟨(h.stopping.of_core hcore).cleared rfl rfl rfl (Nat.le_refl _), hall.cons rfl⟩

theorem hangUp_of_release (h : w.Housed) :
    { w with owners := w.owners - 1 }.hangUpIfFree.Housed ∧
      Settles w [] { w with owners := w.owners - 1 }.hangUpIfFree [] [] := by
  have hless : { w with owners := w.owners - 1 }.Housed := h.frame rfl rfl rfl rfl
  exact ⟨hless.hangUpIfFree, (hangUpIfFree_settles hless).of_ledger rfl rfl⟩

/-- A step of a manager, unless it fails. -/
theorem withActor_settles {g : Surroundings → Actor → Option Actor.Step}
    (hcourse : ∀ {a step}, g w.surroundings a = some step → Course w.surroundings a step) (k : Nat)
    (hstage : ∀ a, (w.withActor k g).1.actors[k]? = some a → a.stage ≠ .failed) :
    Settles w [] (w.withActor k g).1 [] (w.withActor k g).2 := by
  unfold withActor at hstage ⊢
  cases ha : w.actors[k]? with
  | none => exact .aside rfl rfl
  | some a =>
    rw [ha] at hstage
    dsimp only at hstage ⊢
    cases hg : g w.surroundings a with
    | none => exact .aside rfl rfl
    | some step =>
      rw [hg] at hstage
      exact commit_settles ha (hcourse hg) (hstage step.actor (actor_commit ha step))

/-- Something comes back to a manager. -/
theorem updateActor_settles {g : Actor → Option Actor}
    (hg : ∀ {a b}, g a = some b → b.custody = a.custody) (w : Limiter) (k : Nat) :
    Settles w [] (w.updateActor k g) [] [] := by
  unfold updateActor
  split
  · exact .aside rfl rfl
  · rename_i a ha
    split
    · exact .aside rfl rfl
    · rename_i b hb
      refine .still rfl rfl (fun id => ?_) rfl
      have hset := count_flatMap_set (f := Actor.custody) id ha b
      rw [hg hb] at hset
      unfold held
      dsimp only
      omega

theorem custody_ring {now : Moment} {a b : Actor} (h : a.ring now = some b) :
    b.custody = a.custody := by
  unfold ring at h
  obtain ⟨x, -, rfl⟩ := Option.map_eq_some_iff.1 h
  rfl

theorem custody_returned {id : Nat} {result : Except TransportFailure Reply} {a b : Actor}
    (h : a.returned id result = some b) : b.custody = a.custody := by
  unfold returned at h
  split at h <;> cases h
  rfl

/-! ## Every move -/

/-- A call changes nothing but what the ticker is to learn. -/
theorem ledger_call (w : Limiter) (k : Nat) : (w.call k).ledger = w.ledger := by
  have hwake (v : Limiter) : v.wake.ledger = v.ledger := by
    unfold wake
    split <;> rfl
  exact call_preserves ledger (fun _ _ => rfl) hwake w k

theorem housed_step (h : w.Housed) (m : Move) : (w.step m).1.Housed := by
  cases hm : m.actor? with
  | some k =>
    obtain ⟨d, -, hcore, -⟩ := acting_step hm w
    exact (h.live k [d]).of_core hcore
  | none =>
    unfold step
    split
    · exact h
    · cases m with
      | submit e r => exact (submit_settles h e r).1
      | settle e => exact (settle_settles h e).1
      | startProbe e => exact (startProbe_settles h e).1
      | endProbe e result => exact (endProbe_settles h e result).1
      | shutdown => exact (shutdown_settles h).1
      | release => exact (hangUp_of_release h).1
      | retain => exact h.frame rfl rfl rfl rfl
      | renew f => exact h.frame rfl rfl rfl rfl
      | elapse d => exact h.frame rfl rfl rfl rfl
      | refresh => exact h
      | cancel id =>
        show (w.letGo id).Housed
        unfold letGo
        split
        · exact h.frame rfl rfl rfl rfl
        · exact h
      | letGo id =>
        show (w.letGo id).Housed
        unfold letGo
        split
        · exact h.frame rfl rfl rfl rfl
        · exact h
      | call i => exact h.of_core (core_call w i)
      | awaitPause => exact h.of_core (core_awaitPause w)
      | tick => exact h.of_core (core_tick w)
      | command k => cases hm
      | signal k => cases hm
      | ring k => cases hm
      | returned k id result => cases hm

/-- Every move settles the request that is submitted in it, if there is one, unless a caller stops
waiting or the manager that acts fails. -/
theorem settles_step (h : w.Housed) (m : Move) (hcalm : ∀ id, m ≠ .cancel id ∧ m ≠ .letGo id)
    (hstage : ∀ k, m = .command k ∨ m = .signal k →
      ∀ a, (w.step m).1.actors[k]? = some a → a.stage ≠ .failed) :
    Settles w ((w.submits? m).toList.map fun _ => w.nextId) (w.step m).1 [] (w.step m).2 := by
  have still (hm : w.submits? m = none) :
      Settles w ((w.submits? m).toList.map fun _ => w.nextId) w [] [] := by
    rw [hm]
    exact .aside rfl rfl
  unfold step at hstage ⊢
  split
  · rename_i hblocked
    rw [Bool.and_eq_true, beq_iff_eq] at hblocked
    refine still ?_
    cases m with
    | submit e r => exact if_pos hblocked.2
    | _ => rfl
  · rename_i hfree
    rw [if_neg hfree] at hstage
    cases m with
    | submit e r =>
      have howners : w.owners ≠ 0 := by
        intro hzero
        apply hfree
        rw [hzero]
        rfl
      have hsome : w.submits? (.submit e r) = some e := if_neg howners
      rw [hsome]
      exact (submit_settles h e r).2
    | settle e => exact (settle_settles h e).2
    | startProbe e => exact (startProbe_settles h e).2
    | endProbe e result => exact (endProbe_settles h e result).2
    | shutdown => exact (shutdown_settles h).2
    | release => exact (hangUp_of_release h).2
    | retain => exact .aside rfl rfl
    | renew f => exact .aside rfl rfl
    | elapse d => exact .aside rfl rfl
    | refresh =>
      refine .aside rfl (endings_nil_of_forall fun x hx => ?_)
      obtain ⟨s, -, rfl⟩ := List.mem_map.1 hx
      rfl
    | cancel id => exact absurd rfl (hcalm id).1
    | letGo id => exact absurd rfl (hcalm id).2
    | call i => exact .aside (ledger_call w i) rfl
    | awaitPause =>
      refine .aside ?_ rfl
      show w.awaitPause.ledger = w.ledger
      unfold awaitPause
      split
      · split <;> rfl
      · rfl
      · rfl
    | tick =>
      show Settles w [] w.tick.1 [] w.tick.2
      unfold tick
      split
      · split
        · exact .aside rfl rfl
        · split <;> exact .aside rfl rfl
      · exact .aside rfl rfl
    | command k => exact withActor_settles command_course k (hstage k (.inl rfl))
    | signal k => exact withActor_settles signal_course k (hstage k (.inr rfl))
    | ring k => exact updateActor_settles custody_ring w k
    | returned k id result => exact updateActor_settles custody_returned w k

end Limiter

end Throttle
