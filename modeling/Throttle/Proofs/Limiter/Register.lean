import Throttle.Proofs.Limiter.Searching

/-!
  The register of managers. A manager keeps the name of the policy for which it was made. A move
  leaves the register alone, adds a new manager to it, or clears it (`step_enlists`). As long as a
  limiter takes submissions, its register lists every manager under its name, and no two managers
  were made for one name (`listed_run`), unless the limiter is `Abandoned`: then there is nobody
  left who could ask.
-/

namespace Throttle

open Http

namespace Actor

variable {s : Surroundings} {a b : Actor}

theorem Takes.name {msg : Manager.Message} (h : a.Takes msg b) : b.name = a.name := by
  cases h <;> rfl

theorem Advance.name {os : List Output} (h : Advance s a b os) : b.name = a.name := by
  cases h with
  | handled hstage htakes h => exact htakes.name
  | broke hquiet => rfl
  | stopped hstage hquiet => rfl
  | concluded hstage hinbox hquiet hactive hphase hqueue => rfl
  | ignored hstage hinbox => rfl

/-- A manager keeps the name of the policy for which it was made. -/
theorem Change.name {d : Deed} {marks : List Mark} (h : Change a d b marks) : b.name = a.name := by
  cases h with
  | none hseeds => rfl
  | posted c hstage => rfl
  | commanded h hinbox => exact h.name
  | signaled h hmailbox => exact h.name
  | rang halarm hdue => rfl
  | returned result hid => rfl
  | disconnected => rfl

theorem live_name (a : Actor) (ds : List Deed) : (a.live ds).name = a.name := by
  induction ds generalizing a with
  | nil => rfl
  | cons d ds ih => exact (ih _).trans (undergo_change a d).name

end Actor

namespace Limiter

variable {w v : Limiter} {m : Move} {name : PolicyName} {k : Nat}

/-! ## A limiter that nobody holds -/

/-- Nobody holds the limiter, and it looks for nothing. -/
structure Abandoned (w : Limiter) : Prop where
  owners : w.owners = 0
  discoveries : w.discoveries = []
  routes : w.routes = []

theorem Abandoned.shut (h : w.Abandoned) : w.Shut := ⟨h.routes, .inr h.owners⟩

theorem Abandoned.discovery? (h : w.Abandoned) (e : Endpoint) : w.discovery? e = none := by
  unfold Limiter.discovery?
  rw [h.discoveries]
  rfl

theorem hangUpIfFree_cases (w : Limiter) :
    w.hangUpIfFree = w ∨ w.hangUpIfFree.Abandoned ∧ w.hangUpIfFree.registered = [] := by
  unfold hangUpIfFree
  split
  · rename_i hfree
    exact .inr ⟨⟨hfree.1, hfree.2, rfl⟩, rfl⟩
  · exact .inl rfl

theorem Abandoned.endProbe (h : w.Abandoned) (e : Endpoint)
    (result : Except TransportFailure Reply) : (w.endProbe e result).1 = w := by
  unfold Limiter.endProbe
  rw [h.discovery? e]

theorem Abandoned.no_search (h : w.Abandoned) {e : Endpoint} {d : Discovery} :
    w.discovery? e ≠ some d := by
  rw [h.discovery? e]
  nofun

/-- Nobody comes back to a limiter that was abandoned. -/
theorem abandoned_step (h : w.Abandoned) (m : Move) : (w.step m).1.Abandoned := by
  by_cases hm : ∃ f result, m = .endProbe f result
  · obtain ⟨f, result, rfl⟩ := hm
    show (w.endProbe f result).1.Abandoned
    rw [h.endProbe]
    exact h
  · have hend (f : Endpoint) (result : Except TransportFailure Reply) : m ≠ .endProbe f result :=
      fun heq => hm ⟨f, result, heq⟩
    refine ⟨(dwindles_step hend w).1 h.owners, ?_, (shut_step h.shut m).1⟩
    cases step_searches w m with
    | same hsame hsent hopen => exact hsame.trans h.discoveries
    | began hsubmit hopen howners hnone hroute hadded => exact absurd h.owners howners
    | refused hm hd hprobe hset hsent => exact absurd hd h.no_search
    | sent hm hd hprobe hset hsent => exact absurd hd h.no_search
    | ended hm => exact absurd hm (hend _ _)
    | left hm hd hprobe hleft => exact absurd hd h.no_search
    | retried hm hd hprobe hroute hset => exact absurd hd h.no_search

theorem abandoned_run (h : w.Abandoned) (ms : List Move) : (w.after ms).Abandoned := by
  induction ms generalizing w with
  | nil => exact h
  | cons m ms ih => exact ih (abandoned_step h m)

/-- A limiter that was told to stop does not open again. -/
theorem closed_stays (h : w.closed = true) (m : Move) : (w.step m).1.closed = true := by
  by_cases hm : m = .shutdown
  · subst hm
    unfold step
    split
    · exact h
    · show w.shutdown.1.closed = true
      unfold shutdown
      rw [if_pos h]
      exact h
  · exact ((step_stamp w m).2.2 hm).trans h

theorem open_before (h : (w.step m).1.closed = false) : w.closed = false := by
  cases hclosed : w.closed with
  | false => rfl
  | true => exact absurd (closed_stays hclosed m) (by rw [h]; nofun)

theorem open_front {ms ns : List Move} (h : (w.after (ms ++ ns)).closed = false) :
    (w.after ms).closed = false := by
  rw [after_append] at h
  generalize w.after ms = u at h
  induction ns generalizing u with
  | nil => exact h
  | cons n ns ih => exact open_before (ih _ h)

/-- A limiter that was told to stop is marked so. -/
theorem closed_shutdown (w : Limiter) : w.shutdown.1.closed = true := by
  unfold shutdown
  split
  · assumption
  · exact congrArg closed (core_answerAll
      { w with closed := true, actors := w.mapRegistered Actor.stop } (.error .shutdown)
      (w.routes.flatMap (·.2.waiting)))

/-! ## Names -/

/-- The names for which the managers were made. -/
def names (w : Limiter) : List PolicyName := w.actors.map Actor.name

theorem length_names (w : Limiter) : w.names.length = w.actors.length := List.length_map _

theorem names_getElem? {a : Actor} (ha : w.actors[k]? = some a) : w.names[k]? = some a.name := by
  unfold names
  rw [List.getElem?_map, ha]
  rfl

theorem getElem?_names (h : w.names[k]? = some name) :
    ∃ a, w.actors[k]? = some a ∧ a.name = name := by
  unfold names at h
  rw [List.getElem?_map] at h
  exact Option.map_eq_some_iff.1 h

/-- The managers' names, and the register. -/
def roster (w : Limiter) : List PolicyName × List (PolicyName × Nat) := (w.names, w.registered)

theorem roster_live (w : Limiter) (k : Nat) (ds : List Actor.Deed) :
    (w.live k ds).roster = w.roster :=
  Prod.ext (map_modify_of (Actor.live_name · ds) w.actors k) rfl

theorem roster_of_core (h : v.core = w.core) : v.roster = w.roster := by
  have hroster : v.core.roster = w.core.roster := congrArg roster h
  exact hroster

theorem names_hangUpIfFree (w : Limiter) : w.hangUpIfFree.names = w.names := by
  unfold hangUpIfFree
  split
  · exact map_mapRegistered (f := Actor.disconnect) (fun _ => rfl) w
  · rfl

/-- What a move makes of the managers and the register. -/
inductive Enlisted (w : Limiter) (m : Move) (v : Limiter) : Prop where
  | same (h : v.roster = w.roster)
  | left (hnames : v.names = w.names) (hcleared : v.registered = []) (habandoned : v.Abandoned)
  | shut (hnames : v.names = w.names) (hcleared : v.registered = []) (hclosed : v.closed = true)
      (hm : m = .shutdown)
  | made {name : PolicyName} (hm : m.probeReply? ≠ none) (hnew : w.registered.lookup name = none)
      (hsearch : w.discoveries ≠ [])
      (h : v.roster = (w.names ++ [name], w.registered ++ [(name, w.names.length)]))

theorem Enlisted.hangUp {u : Limiter} (h : Enlisted w m v) (hu : u = v.hangUpIfFree)
    (hsame : v.roster = w.roster) : Enlisted w m u := by
  subst hu
  rcases hangUpIfFree_cases v with hstill | ⟨habandoned, hcleared⟩
  · rw [hstill]
    exact h
  · exact .left ((names_hangUpIfFree v).trans (congrArg Prod.fst hsame)) hcleared habandoned

/-- The last search may be left, and then nobody holds the limiter. -/
theorem leave_enlists (hsame : v.roster = w.roster) (e : Endpoint) : Enlisted w m (v.leave e) :=
  Enlisted.hangUp (v := v.endDiscovery e) (.same hsame) rfl hsame

theorem submit_enlists (w : Limiter) (e : Endpoint) (r : Request) :
    (w.submit e r).1.roster = w.roster := by
  unfold submit
  dsimp only
  split
  · exact (roster_of_core (core_answer { w with nextId := w.nextId + 1 } _ _) :)
  · have hstart : { w with nextId := w.nextId + 1 }.startTicker.roster = w.roster :=
      (roster_of_core (core_startTicker { w with nextId := w.nextId + 1 }) :)
    split
    · exact ((roster_of_core (core_enqueue _ _ _)).trans (roster_live _ _ _)).trans hstart
    · exact hstart
    · exact hstart

theorem settle_enlists (w : Limiter) (e : Endpoint) : Enlisted w m (w.settle e).1 := by
  unfold settle
  split
  · split
    · exact leave_enlists rfl e
    · exact leave_enlists rfl e
    · split
      · refine leave_enlists ?_ e
        exact (roster_of_core (core_answerAll (w.removeRoute e) _ _) :)
      · split
        · rename_i k _
          refine leave_enlists ?_ e
          exact ((roster_of_core (core_enqueueAll (w.setRoute e (.ready k)) k _)).trans
            (roster_live _ _ _) :)
        · have hanswer (failure : Failure) (ps : List Pending) :=
            roster_of_core (core_answerAll w (.error failure) ps)
          unfold settleFailed
          dsimp only
          split
          · exact leave_enlists (v := removeRoute _ e) (hanswer _ _) e
          · exact .same (hanswer _ _)
  · exact .same rfl

theorem endProbe_enlists (w : Limiter) (e : Endpoint) (result : Except TransportFailure Reply) :
    Enlisted w (.endProbe e result) (w.endProbe e result).1 := by
  unfold endProbe
  split
  · rename_i hd
    have hsearch : w.discoveries ≠ [] := by
      unfold discovery? at hd
      intro hnone
      rw [hnone] at hd
      cases hd
    split
    · exact .same rfl
    · rename_i reply
      dsimp only
      split
      · exact .same rfl
      · rename_i policy _
        have hseed (u : Limiter) (i : Nat) :
            (u.seed (discoverySpan e) i reply).1.roster = u.roster :=
          (roster_of_core (core_seed _ _ _ _)).trans (roster_live _ _ _)
        unfold managerFor
        cases hlookup : w.registered.lookup policy.name with
        | some index => exact .same (hseed w index)
        | none =>
          refine .made nofun hlookup hsearch ((hseed _ _).trans ?_)
          refine Prod.ext List.map_append ?_
          show _ ++ [(policy.name, w.actors.length)] = _
          rw [← length_names]
  · exact .same rfl

/-- A move leaves the register alone, adds a new manager to it, or clears it. -/
theorem step_enlists (w : Limiter) (m : Move) : Enlisted w m (w.step m).1 := by
  cases hm : m.actor? with
  | some k =>
    obtain ⟨d, -, hcore, -⟩ := acting_step hm w
    exact .same ((roster_of_core hcore).trans (roster_live w k [d]))
  | none =>
    unfold step
    split
    · exact .same rfl
    · cases m with
      | submit e r => exact .same (submit_enlists w e r)
      | settle e => exact settle_enlists w e
      | startProbe e =>
        refine .same (Prod.ext (congrArg (List.map Actor.name) (actors_startProbe w e)) ?_)
        show (w.startProbe e).1.registered = w.registered
        unfold startProbe
        split
        · split <;> rfl
        · rfl
      | endProbe e result => exact endProbe_enlists w e result
      | shutdown =>
        have hclosed := closed_shutdown w
        show Enlisted w _ w.shutdown.1
        unfold shutdown at hclosed ⊢
        split at hclosed
        · rename_i hshut
          rw [if_pos hshut]
          exact .same rfl
        · rename_i hshut
          rw [if_neg hshut]
          refine .shut ?_ rfl hclosed rfl
          have hstopped := roster_of_core (core_answerAll
            { w with closed := true, actors := w.mapRegistered Actor.stop } (.error .shutdown)
            (w.routes.flatMap (·.2.waiting)))
          refine (congrArg Prod.fst hstopped).trans (map_mapRegistered (fun a => ?_) w)
          unfold Actor.stop
          split <;> rfl
      | release =>
        have hless : { w with owners := w.owners - 1 }.roster = w.roster := rfl
        exact .hangUp (.same hless) rfl hless
      | retain => exact .same rfl
      | renew f => exact .same rfl
      | elapse d => exact .same rfl
      | refresh => exact .same rfl
      | cancel id =>
        show Enlisted w _ (w.letGo id)
        unfold letGo
        split <;> exact .same rfl
      | letGo id =>
        show Enlisted w _ (w.letGo id)
        unfold letGo
        split <;> exact .same rfl
      | call i => exact .same (roster_of_core (core_call w i))
      | awaitPause => exact .same (roster_of_core (core_awaitPause w))
      | tick => exact .same (roster_of_core (core_tick w))
      | command k => cases hm
      | signal k => cases hm
      | ring k => cases hm
      | returned k id result => cases hm

/-! ## The list of managers -/

theorem lookup_zipIdx {names : List PolicyName} (hnames : names.Nodup) :
    names.zipIdx.lookup name = some k ↔ names[k]? = some name := by
  have found {i : Nat} (h : names.zipIdx.lookup name = some i) : names[i]? = some name := by
    obtain ⟨l₁, l₂, hsplit, -⟩ := List.lookup_eq_some_iff.1 h
    rw [← List.mk_mem_zipIdx_iff_getElem?, hsplit]
    exact List.mem_append_right _ List.mem_cons_self
  refine ⟨found, fun h => ?_⟩
  have hmem : (name, k) ∈ names.zipIdx := List.mk_mem_zipIdx_iff_getElem?.2 h
  cases hlookup : names.zipIdx.lookup name with
  | none =>
    have hne := List.lookup_eq_none_iff.1 hlookup _ hmem
    simp at hne
  | some i =>
    have hlt : i < names.length := (List.getElem?_eq_some_iff.1 (found hlookup)).1
    have hsame : names[i]? = names[k]? := (found hlookup).trans h.symm
    rw [(List.getElem?_inj hlt hnames).1 hsame]

theorem not_mem_of_lookup {names : List PolicyName} (h : names.zipIdx.lookup name = none) :
    name ∉ names := by
  intro hmem
  obtain ⟨i, hi⟩ := List.getElem?_of_mem hmem
  have hne := List.lookup_eq_none_iff.1 h _ (List.mk_mem_zipIdx_iff_getElem?.2 hi)
  simp at hne

/-- No two managers were made for one name, and every manager is registered under its name. -/
structure Listed (w : Limiter) : Prop where
  distinct : w.names.Nodup
  listed : w.Abandoned ∨ w.registered = w.names.zipIdx

theorem listed_new (config : Config) (authorizer : Authorizer) (now : Moment) :
    (new config authorizer now).Listed := ⟨.nil, .inr rfl⟩

/-- The register finds a manager under its name. -/
theorem Listed.lookup (h : w.Listed) (hheld : ¬ w.Abandoned) {a : Actor}
    (ha : w.actors[k]? = some a) : w.registered.lookup a.name = some k := by
  rw [h.listed.resolve_left hheld, lookup_zipIdx h.distinct]
  exact names_getElem? ha

theorem Listed.of_lookup (h : w.Listed) (hheld : ¬ w.Abandoned)
    (hlookup : w.registered.lookup name = some k) : ∃ a, w.actors[k]? = some a ∧ a.name = name := by
  rw [h.listed.resolve_left hheld, lookup_zipIdx h.distinct] at hlookup
  exact getElem?_names hlookup

/-- The managers stay listed as long as the limiter takes submissions. -/
theorem listed_step (h : w.Listed) (hopen : (w.step m).1.closed = false) :
    (w.step m).1.Listed := by
  have hstill (habandoned : w.Abandoned) := abandoned_step habandoned m
  cases step_enlists w m with
  | same hsame =>
    have hnames : (w.step m).1.names = w.names := congrArg Prod.fst hsame
    have hregistered : (w.step m).1.registered = w.registered := congrArg Prod.snd hsame
    exact ⟨by rw [hnames]; exact h.distinct, h.listed.imp hstill (by rw [hnames, hregistered]; exact id)⟩
  | left hnames hcleared habandoned =>
    exact ⟨by rw [hnames]; exact h.distinct, .inl habandoned⟩
  | shut hnames hcleared hclosed =>
    rw [hopen] at hclosed
    cases hclosed
  | @made name hm hnew hsearch hmade =>
    have hnames : (w.step m).1.names = w.names ++ [name] := congrArg Prod.fst hmade
    have hregistered : (w.step m).1.registered = w.registered ++ [(name, w.names.length)] :=
      congrArg Prod.snd hmade
    have hlisted := h.listed.resolve_left fun habandoned => hsearch habandoned.discoveries
    rw [hlisted] at hnew
    have hfresh := not_mem_of_lookup hnew
    refine ⟨?_, .inr ?_⟩
    · rw [hnames, List.nodup_append]
      refine ⟨h.distinct, List.pairwise_singleton _ _, ?_⟩
      rintro n hn _ hlast rfl
      exact hfresh (List.mem_singleton.1 hlast ▸ hn)
    · rw [hregistered, hnames, hlisted, List.zipIdx_append, Nat.zero_add]
      rfl

/-- As long as a limiter takes submissions, its managers are listed. -/
theorem listed_run (config : Config) (authorizer : Authorizer) (now : Moment) (ms : List Move)
    (hopen : ((new config authorizer now).after ms).closed = false) :
    ((new config authorizer now).after ms).Listed := by
  induction ms using List.reverseRecOn with
  | nil => exact listed_new config authorizer now
  | append_singleton ms m ih =>
    have hbefore := ih (open_front hopen)
    rw [after_append] at hopen ⊢
    exact listed_step hbefore hopen

end Limiter

end Throttle
