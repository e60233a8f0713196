import Throttle.Proofs.Limiter.Owing
import Throttle.Proofs.Manager.Stopping

/-!
  The end of a manager, over its whole life and in the runs of a limiter. What it holds when it stops
  fails at once, once and for all; the request under way gets the result of its own reply and no
  other; nothing is sent any more, and nothing is taken any more (`Ended`). That is so whatever the
  manager went through before and goes through afterwards (`ended_of_stops`). In a limiter what a
  manager gives reaches the callers that wait (`Lived`), and nobody gets a second result from
  elsewhere (`stop_resolves`).
-/

namespace Throttle

open Http

namespace Actor

variable {s : Surroundings} {a : Actor} {ds es : List Deed} {p : Pending} {m : Manager}
  {r : Except TransportFailure Reply} {n : Nat} {name : PolicyName}

/-! ## Lives -/

/-- An actor that has stopped does not fail. -/
theorem live_of_stopping (h : a.stage = .closing ∨ a.stage = .stopped) (es : List Deed) :
    (a.live es).stage = .closing ∨ (a.live es).stage = .stopped := by
  induction es generalizing a with
  | nil => exact h
  | cons d es ih =>
    refine ih ?_
    rcases h with hclosing | hstopped
    · have hparting := undergo_of_closing hclosing d
      generalize a.undergo d = b at hparting
      cases hparting with
      | same d connected hd => exact .inl hclosing
      | skipped h => exact .inl hclosing
      | concluded h hresults => exact .inr rfl
      | rang generation => exact .inl hclosing
      | returned r h => exact .inl hclosing
    · exact .inr ((undergo_of_over (.inr hstopped) d).1.trans hstopped)

theorem Stops.stopping (h : a.Stops) (s : Surroundings) :
    (a.undergo (.command s)).stage = .closing ∨ (a.undergo (.command s)).stage = .stopped := by
  rw [h.undergo_eq, after_stage]
  split
  · exact .inl rfl
  · exact .inr rfl

/-- Nothing enters the mailbox of an actor that does not run. -/
theorem entered_after (h : a.stage ≠ .running) (es : List Deed) :
    enteredIn (a.record es) = [] := by
  induction es generalizing a with
  | nil => rfl
  | cons d es ih =>
    rw [record, enteredIn_append, ih (undergo_of_ended h d), List.append_nil]
    cases d with
    | post c =>
      have hnone : a.marks (.post c) = [] := if_neg fun hopen => h (beq_iff_eq.1 hopen)
      rw [hnone]
      rfl
    | command s =>
      have hnone : a.command s = none := if_pos h
      simp only [marks, hnone]
      rfl
    | signal s =>
      simp only [marks]
      cases a.signal s with
      | none => rfl
      | some step => exact enteredIn_sent _
    | ring now => rfl
    | returned id result =>
      simp only [marks]
      split <;> rfl
    | disconnect => rfl

/-- Of results that somebody gets at most once, there is one. -/
theorem result_unique {β : Type} {l : List (Nat × β)} {id : Nat} {x y : β}
    (h : (l.map (·.1)).count id ≤ 1) (hx : (id, x) ∈ l) (hy : (id, y) ∈ l) : x = y := by
  induction l with
  | nil => cases hx
  | cons z l ih =>
    -- one in front of another would be two
    have alone {u v : β} (hu : (id, u) = z) (hv : (id, v) ∈ l) : False := by
      have hpos := List.count_pos_iff.2 (List.mem_map_of_mem (f := (·.1)) hv)
      rw [← hu, List.map_cons, List.count_cons_self] at h
      dsimp only at hpos
      omega
    rcases List.mem_cons.1 hx with hx | hx <;> rcases List.mem_cons.1 hy with hy | hy
    · exact congrArg Prod.snd (hx.trans hy.symm)
    · exact (alone hx hy).elim
    · exact (alone hy hx).elim
    · refine ih (Nat.le_trans ?_ h) hx hy
      rw [List.map_cons]
      exact List.count_le_count_cons

/-- What becomes of an actor that has stopped with the command after the deeds `ds`, and of all that
it held, when the deeds `es` come after that. -/
structure Ended (name : PolicyName) (ds : List Deed) (s : Surroundings) (es : List Deed) :
    Prop where
  /-- What it held and had not under way fails with the stop. -/
  failed : ∀ p, ((new name).live ds).Waiting p →
    (p.id, .error .shutdown) ∈ ((new name).live ds).results (.command s) ∧
      (new name).resolutions (ds ++ .command s :: es) p.id = 1
  /-- The transmission of the request under way goes on until it comes back. -/
  awaited : ∀ p, ((new name).live ds).UnderWay p →
    p.id ∈ ((new name).live (ds ++ .command s :: es)).outstanding ∨
      ∃ r, (new name).CameBack (ds ++ .command s :: es) p.id r
  /-- When the signals in the inbox by then are handled, it has the result of its reply. -/
  answered : ∀ p r es₁ es₂, ((new name).live ds).UnderWay p → es = es₁ ++ es₂ →
    (new name).CameBack (ds ++ .command s :: es₁) p.id r →
    ((new name).live (ds ++ .command s :: es₁)).inbox.length ≤ es₂.countP Deed.isSignal →
    (p.id, ((new name).live ds).manager.lastResult r) ∈
        (new name).resultsOver (ds ++ .command s :: es) ∧
      (new name).resolutions (ds ++ .command s :: es) p.id = 1
  /-- It gets no other result, and none before its reply. -/
  own : ∀ p result, ((new name).live ds).UnderWay p →
    (p.id, result) ∈ (new name).resultsOver (ds ++ .command s :: es) →
    ∃ r, (new name).CameBack (ds ++ .command s :: es) p.id r ∧
      result = ((new name).live ds).manager.lastResult r
  /-- Nobody gets two results. -/
  once : ∀ id, (new name).resolutions (ds ++ .command s :: es) id ≤ 1
  /-- Nothing is sent from the stop on. -/
  silent : sentIn (((new name).live ds).record (.command s :: es)) = []
  /-- What is handed over later fails. -/
  refused : ∀ (v : Limiter) k q,
    v.actors[k]? = some ((new name).live (ds ++ .command s :: es)) →
    Limiter.enqueue k v q = v.answer q.id (.error .shutdown)

/-- The request of a fate is held until it has its result. -/
theorem Fate.resolutions_eq (h : Fate name ds m p) (hactive : m.ending.active = some p)
    (hapart : (enteredIn ((new name).record ds)).Nodup) :
    (new name).resolutions ds p.id = 0 ∨ ∃ r, HasGiven name ds m p r := by
  have held (h : ((new name).live ds).Lingers m) : (new name).resolutions ds p.id = 0 := by
    have hbalance := balance_new (by rw [h.closing]; nofun) hapart p.id
    have hcustody : p.id ∈ ((new name).live ds).custody := by
      refine ((new name).live ds).activeIds_sublist_custody.subset ?_
      unfold Manager.activeIds
      rw [h.manager, hactive]
      exact List.mem_singleton_self _
    have hpos := List.count_pos_iff.2 hcustody
    omega
  cases h with
  | expected h => exact .inl (held h.toLingers)
  | back h hback => exact .inl (held h.toLingers)
  | given h => exact .inr ⟨_, h⟩

namespace Stops

/-- Nothing enters the mailbox from the stop on. -/
theorem entered_nodup (h : ((new name).live ds).Stops)
    (hapart : (enteredIn ((new name).record ds)).Nodup) (s : Surroundings) (es : List Deed) :
    (enteredIn ((new name).record (ds ++ .command s :: es))).Nodup := by
  have hcommand : enteredIn (((new name).live ds).marks (.command s)) = [] := by
    simp only [marks, h.command_eq, Option.elim_some]
    exact enteredIn_sent _
  rw [record_append, enteredIn_append, record, enteredIn_append, hcommand,
    entered_after (h.ends s).1, List.append_nil, List.append_nil]
  exact hapart

theorem gives_once (h : ((new name).live ds).Stops)
    (hapart : (enteredIn ((new name).record ds)).Nodup) (s : Surroundings) (es : List Deed)
    (id : Nat) : (new name).resolutions (ds ++ .command s :: es) id ≤ 1 := by
  have hunfailed : ((new name).live (ds ++ .command s :: es)).stage ≠ .failed := by
    intro hfailed
    rw [live_append] at hfailed
    rcases live_of_stopping (h.stopping s) es with hstage | hstage <;>
      exact nomatch hstage.symm.trans hfailed
  exact Nat.le_trans (Nat.le_add_left _ _) (balance_new hunfailed (h.entered_nodup hapart s es) id)

theorem gives_one (h : ((new name).live ds).Stops)
    (hapart : (enteredIn ((new name).record ds)).Nodup) {x : Nat × Except Failure Reply}
    (hx : x ∈ (new name).resultsOver (ds ++ .command s :: es)) :
    (new name).resolutions (ds ++ .command s :: es) x.1 = 1 :=
  Nat.le_antisymm (h.gives_once hapart s es x.1) (List.count_pos_iff.2 (List.mem_map_of_mem hx))

/-- With the stop it fails what it holds and has not under way. -/
theorem fails (h : a.Stops) (hwaiting : a.Waiting p) (s : Surroundings) :
    (p.id, .error .shutdown) ∈ a.results (.command s) := by
  rw [h.results_eq]
  exact List.mem_map_of_mem hwaiting.mem

/-- The request under way is outstanding until it has come back. -/
theorem awaits (h : ((new name).live ds).Stops) (hunder : ((new name).live ds).UnderWay p)
    (s : Surroundings) (es : List Deed) :
    p.id ∈ ((new name).live (ds ++ .command s :: es)).outstanding ∨
      ∃ r, (new name).CameBack (ds ++ .command s :: es) p.id r := by
  cases fate_run h hunder s es with
  | expected h =>
    refine .inl ?_
    rw [h.outstanding]
    exact List.mem_singleton_self _
  | back h hback => exact .inr ⟨_, hback⟩
  | given h => exact .inr ⟨_, h.cameBack⟩

/-- It has its result when the signals in the inbox at its return are handled. -/
theorem answers_last (h : ((new name).live ds).Stops) (hunder : ((new name).live ds).UnderWay p)
    (hcame : (new name).CameBack (ds ++ .command s :: es) p.id r) (fs : List Deed)
    (hcount : ((new name).live (ds ++ .command s :: es)).inbox.length ≤ fs.countP Deed.isSignal) :
    HasGiven name (ds ++ .command s :: (es ++ fs)) ((new name).live ds).manager p r := by
  have hsplit : ds ++ .command s :: (es ++ fs) = (ds ++ .command s :: es) ++ fs := by simp
  rw [hsplit]
  cases fate_run h hunder s es with
  | expected h =>
    have hout := h.outstanding
    rw [hcame.outstanding_eq] at hout
    cases hout
  | back h hback =>
    obtain rfl := hcame.unique hback
    exact h.given hback ((active_ending hunder.inFlight).trans hunder.active)
      (Nat.lt_of_lt_of_le h.lt hcount)
  | given h =>
    obtain rfl := hcame.unique h.cameBack
    exact h.append fs

/-- A result that it has is that of its reply. -/
theorem gives_own (h : ((new name).live ds).Stops)
    (hapart : (enteredIn ((new name).record ds)).Nodup) (hunder : ((new name).live ds).UnderWay p)
    {result : Except Failure Reply}
    (hmem : (p.id, result) ∈ (new name).resultsOver (ds ++ .command s :: es)) :
    ∃ r, (new name).CameBack (ds ++ .command s :: es) p.id r ∧
      result = ((new name).live ds).manager.lastResult r := by
  have hactive := (active_ending hunder.inFlight).trans hunder.active
  rcases (fate_run h hunder s es).resolutions_eq hactive (h.entered_nodup hapart s es) with
    hnone | ⟨r, hgiven⟩
  · exact nomatch hnone.symm.trans (h.gives_one hapart hmem)
  · exact ⟨r, hgiven.cameBack,
      result_unique (h.gives_once hapart s es p.id) hmem hgiven.given⟩

theorem silent (h : ((new name).live ds).Stops) (s : Surroundings) (es : List Deed) :
    sentIn (((new name).live ds).record (.command s :: es)) = [] := by
  have hended := (h.ends s).1
  rw [record, sentIn_append, silent_of_ended (sound_live name ds) hended, silent_after hended]
  rfl

/-- A request that is handed to the actor after its stop fails. -/
theorem refuses (h : ((new name).live ds).Stops) (s : Surroundings) (es : List Deed)
    {v : Limiter} {k : Nat}
    (hthere : v.actors[k]? = some ((new name).live (ds ++ .command s :: es))) (q : Pending) :
    Limiter.enqueue k v q = v.answer q.id (.error .shutdown) := by
  have hshut : ((new name).live (ds ++ .command s :: es)).isOpen = false := by
    rw [live_append]
    exact beq_eq_false_iff_ne.2 (live_of_ended (h.ends s).1 es)
  unfold Limiter.enqueue
  rw [hthere]
  simp only [hshut]
  rfl

end Stops

/-- Whatever an actor went through before it stops, and goes through afterwards, it ends as it
should. -/
theorem ended_of_stops (hapart : (enteredIn ((new name).record ds)).Nodup)
    (hstops : ((new name).live ds).Stops) (s : Surroundings) (es : List Deed) :
    Ended name ds s es where
  failed p hwaiting := by
    have hgiven := hstops.fails hwaiting s
    refine ⟨hgiven, hstops.gives_one hapart (x := (p.id, .error .shutdown)) ?_⟩
    rw [resultsOver_append, resultsOver]
    exact List.mem_append_right _ (List.mem_append_left _ hgiven)
  awaited p hunder := hstops.awaits hunder s es
  answered := by
    rintro p r es₁ es₂ hunder rfl hcame hcount
    have hgiven := hstops.answers_last hunder hcame es₂ hcount
    exact ⟨hgiven.given, hstops.gives_one hapart hgiven.given⟩
  own p result hunder hmem := hstops.gives_own hapart hunder hmem
  once id := hstops.gives_once hapart s es id
  silent := hstops.silent s es
  refused v k q hthere := hstops.refuses s es hthere q

end Actor

namespace Limiter

open Actor

variable {w : Limiter} {m : Move} {ms : List Move} {i : Nat} {a : Actor} {name : PolicyName}
  {d : Deed} {ds es : List Deed}

/-! ## In a limiter -/

/-- A manager has gone through some deeds in a run, and what it gave has reached the callers that
wait. -/
structure Lived (w : Limiter) (ms : List Move) (i : Nat) (name : PolicyName) (ds : List Deed) :
    Prop where
  there : (w.after ms).actors[i]? = some ((Actor.new name).live ds)
  passed : w.passagesOver i ms = (Actor.new name).record ds
  reached : ∀ x ∈ (Actor.new name).resultsOver ds, x.1 ∉ (w.after ms).dropped → x ∈ w.results ms

/-- What a manager gives in a move reaches the callers that wait. -/
theorem mem_delivered_of_results {x : Nat × Except Failure Reply} (ha : w.actors[i]? = some a)
    (hm : m.actor? = some i) (hd : m.deed? w.surroundings = some d) (hx : x ∈ a.results d)
    (hlive : x.1 ∉ w.dropped) : x ∈ delivered (w.step m).2 := by
  cases m with
  | command k =>
    obtain rfl := Option.some.inj hm
    obtain rfl := Option.some.inj hd
    simp only [Actor.results] at hx
    cases hstep : a.command w.surroundings with
    | none =>
      rw [hstep] at hx
      cases hx
    | some step =>
      rw [hstep] at hx
      rw [step_command ha hstep]
      exact mem_delivered_commit hx hlive k
  | signal k =>
    obtain rfl := Option.some.inj hm
    obtain rfl := Option.some.inj hd
    simp only [Actor.results] at hx
    cases hstep : a.signal w.surroundings with
    | none =>
      rw [hstep] at hx
      cases hx
    | some step =>
      rw [hstep] at hx
      rw [step_signal ha hstep]
      exact mem_delivered_commit hx hlive k
  | ring k =>
    obtain rfl := Option.some.inj hd
    cases hx
  | returned k id result =>
    obtain rfl := Option.some.inj hd
    cases hx
  | _ => cases hm

/-- A manager gives nothing while others feed it. -/
theorem resultsOver_of_feeds (h : ∀ d ∈ ds, d.Feeds) (a : Actor) : a.resultsOver ds = [] := by
  induction ds generalizing a with
  | nil => rfl
  | cons d ds ih =>
    rw [resultsOver, ih fun x hx => h x (.tail _ hx)]
    have hd := h d (.head _)
    cases d with
    | post c => rfl
    | disconnect => rfl
    | _ => exact hd.elim

namespace Lived

theorem extend (h : Lived w ms i name ds)
    (hthere : ((w.after ms).step m).1.actors[i]? = some (((Actor.new name).live ds).live es))
    (hpassed : (w.after ms).passages m i = ((Actor.new name).live ds).record es)
    (hreached : ∀ x ∈ ((Actor.new name).live ds).resultsOver es, x.1 ∉ (w.after ms).dropped →
      x ∈ delivered ((w.after ms).step m).2) :
    Lived w (ms ++ [m]) i name (ds ++ es) where
  there := by
    rw [after_append, live_append]
    exact hthere
  passed := by
    rw [passagesOver_append, h.passed, record_append, ← hpassed]
    exact congrArg _ (List.append_nil _)
  reached x hx hlive := by
    have hbefore : x.1 ∉ (w.after ms).dropped := by
      intro hdropped
      refine hlive ?_
      rw [after_append]
      have hgone := (leads_step (w.after ms) m).gone x.1 (List.contains_iff_mem.2 hdropped)
      exact List.contains_iff_mem.1 hgone
    rw [results_snoc, List.mem_append]
    rw [resultsOver_append, List.mem_append] at hx
    exact hx.imp (h.reached x · hbefore) (hreached x · hbefore)

/-- The manager acts. -/
theorem acts (h : Lived w ms i name ds) (hm : m.actor? = some i)
    (hd : m.deed? (w.after ms).surroundings = some d) :
    Lived w (ms ++ [m]) i name (ds ++ [d]) := by
  obtain ⟨e, he, hcore, -, hpassages⟩ := acting_step hm (w.after ms)
  obtain rfl := Option.some.inj (hd.symm.trans he)
  refine h.extend ?_ ?_ fun x hx hlive => ?_
  · rw [actors_of_core hcore, getElem?_live, h.there, Option.map_some, if_pos rfl]
  · rw [hpassages i, if_pos rfl, h.there]
    exact (List.append_nil _).symm
  · rw [resultsOver, resultsOver, List.append_nil] at hx
    exact mem_delivered_of_results h.there hm hd hx hlive

theorem snoc (h : Lived w ms i name ds) (m : Move) :
    ∃ es, Lived w (ms ++ [m]) i name (ds ++ es) := by
  obtain ⟨b, hb⟩ := step_keeps (w.after ms) m h.there
  obtain ⟨c, es, hbefore, hdoes, rfl, hpassages⟩ := step_lives (w.after ms) m i hb
  obtain rfl : (Actor.new name).live ds = c := by
    rcases hbefore with hc | ⟨hnone, -⟩
    · exact Option.some.inj (h.there.symm.trans hc)
    · exact nomatch hnone.symm.trans h.there
  rcases hdoes with hfeeds | ⟨hm, d, hd, -⟩
  · refine ⟨es, h.extend hb hpassages fun x hx => ?_⟩
    rw [resultsOver_of_feeds hfeeds] at hx
    cases hx
  · exact ⟨[d], h.acts hm hd⟩

theorem append (h : Lived w ms i name ds) (ns : List Move) :
    ∃ es, Lived w (ms ++ ns) i name (ds ++ es) := by
  induction ns generalizing ms ds with
  | nil =>
    refine ⟨[], ?_⟩
    rw [List.append_nil, List.append_nil]
    exact h
  | cons m ns ih =>
    obtain ⟨es, hstep⟩ := h.snoc m
    obtain ⟨fs, hall⟩ := ih hstep
    refine ⟨es ++ fs, ?_⟩
    rwa [List.append_assoc, List.append_assoc, List.singleton_append] at hall

end Lived

/-- Every manager of a run that began without managers has lived through it. -/
theorem lived_run (hactors : w.actors = []) (ms : List Move)
    (ha : (w.after ms).actors[i]? = some a) :
    ∃ name ds, a = (Actor.new name).live ds ∧ Lived w ms i name ds := by
  induction ms using List.reverseRecOn generalizing a with
  | nil =>
    rw [after_nil, hactors] at ha
    cases ha
  | append_singleton ms m ih =>
    cases hbefore : (w.after ms).actors[i]? with
    | some b =>
      obtain ⟨name, ds, rfl, hlived⟩ := ih hbefore
      obtain ⟨es, hall⟩ := hlived.snoc m
      exact ⟨name, ds ++ es, Option.some.inj (ha.symm.trans hall.there), hall⟩
    | none =>
      have hstep : ((w.after ms).step m).1.actors[i]? = some a := by rwa [after_append] at ha
      obtain ⟨c, es, hc, hdoes, rfl, hpassages⟩ := step_lives (w.after ms) m i hstep
      rcases hc with hthere | ⟨-, name, rfl⟩
      · exact nomatch hbefore.symm.trans hthere
      · have hnone : (Actor.new name).resultsOver es = [] := by
          rcases hdoes with hfeeds | ⟨-, d, -, rfl⟩
          · exact resultsOver_of_feeds hfeeds _
          · cases d <;> rfl
        refine ⟨name, es, rfl, ha, ?_, fun x hx => ?_⟩
        · rw [passagesOver_append, passagesOver_of_none hbefore, ← hpassages]
          exact List.append_nil _
        · rw [hnone] at hx
          cases hx

/-- However a manager ends, what it held is resolved once: in every life of a manager to which no
number was handed twice, and in every run of a limiter, where no number is and where nobody gets a
second result from elsewhere. -/
theorem stop_resolves :
    (∀ name ds s es, (enteredIn ((Actor.new name).record ds)).Nodup →
      ((Actor.new name).live ds).Stops → Ended name ds s es) ∧
    ∀ config authorizer now front back i a,
      ((new config authorizer now).after front).actors[i]? = some a → a.Stops →
      ∃ name ds es, a = (Actor.new name).live ds ∧
        Lived (new config authorizer now) (front ++ .command i :: back) i name
          (ds ++ .command ((new config authorizer now).after front).surroundings :: es) ∧
        Ended name ds ((new config authorizer now).after front).surroundings es ∧
        ∀ id, (new config authorizer now).resolutions (front ++ .command i :: back) id ≤ 1 := by
  refine ⟨fun name ds s es hapart hstops => ended_of_stops hapart hstops s es, ?_⟩
  intro config authorizer now front back i a ha hstops
  obtain ⟨name, ds, rfl, hlived⟩ := lived_run (w := new config authorizer now) rfl front ha
  have hapart : (enteredIn ((Actor.new name).record ds)).Nodup := by
    have hnodup := (lined_run (w := new config authorizer now) rfl rfl front).entered_nodup i
    rwa [marksOf_log, hlived.passed] at hnodup
  have hcommand := hlived.acts (m := .command i) rfl rfl
  obtain ⟨es, hall⟩ := hcommand.append back
  rw [List.append_assoc, List.append_assoc, List.singleton_append, List.singleton_append] at hall
  exact ⟨name, ds, es, rfl, hall, ended_of_stops hapart hstops _ es, fun id =>
    Nat.le_trans (Nat.le_add_left _ _) (resolutions_le_one config authorizer now _ id)⟩

/-- The first of two requests is under way when the manager is told to stop, and a third one comes
behind that. -/
def stoppedLife : List Deed :=
  twoRequests ++ [.post .shutdown, .post (.queue ⟨3, plainEndpoint, plainRequest⟩)]

/-- The transmission comes back, and its end is handled. -/
def stoppedRest : List Deed :=
  [.returned 1 (.ok (sharedReply 1)), .signal (plainSurroundings 250000000)]

/-- One of three requests is under way when the limiter stops. -/
def stoppedRun : List Move :=
  [.submit plainEndpoint plainRequest, .submit plainEndpoint plainRequest,
    .startProbe plainEndpoint, .endProbe plainEndpoint (.ok (sharedReply 1)), .settle plainEndpoint,
    .command 0, .command 0, .command 0, .elapse 2000000000, .ring 0, .signal 0,
    .submit plainEndpoint plainRequest, .shutdown, .command 0]

/-- The two others fail with the stop, and the one under way gets its result when its reply is
handled. -/
theorem stop_resolves_stoppedRun :
    (enteredIn ((Actor.new ⟨"p", rfl⟩).record stoppedLife)).Nodup ∧
      ((Actor.new ⟨"p", rfl⟩).live stoppedLife).Stops ∧
      Ended ⟨"p", rfl⟩ stoppedLife (plainSurroundings 250000000) stoppedRest ∧
      ((Actor.new ⟨"p", rfl⟩).live stoppedLife).UnderWay ⟨1, plainEndpoint, plainRequest⟩ ∧
      ((Actor.new ⟨"p", rfl⟩).live stoppedLife).Waiting ⟨2, plainEndpoint, plainRequest⟩ ∧
      ((Actor.new ⟨"p", rfl⟩).live stoppedLife).Waiting ⟨3, plainEndpoint, plainRequest⟩ ∧
      (((Actor.new ⟨"p", rfl⟩).resultsOver
        (stoppedLife ++ .command (plainSurroundings 250000000) :: stoppedRest)).map (·.1)) =
          [2, 3, 1] ∧
      ∃ a, ((new .default .none 0).after stoppedRun).actors[0]? = some a ∧ a.Stops ∧
        (∃ name ds es, a = (Actor.new name).live ds ∧
          Lived (new .default .none 0)
            (stoppedRun ++ [.command 0, .returned 0 1 (.ok (sharedReply 1)), .signal 0]) 0 name
            (ds ++ .command ((new .default .none 0).after stoppedRun).surroundings :: es) ∧
          Ended name ds ((new .default .none 0).after stoppedRun).surroundings es) ∧
        ((new .default .none 0).results
          (stoppedRun ++ [.command 0, .returned 0 1 (.ok (sharedReply 1)), .signal 0])).map (·.1) =
            [2, 3, 1] := by
  have hapart : (enteredIn ((Actor.new ⟨"p", rfl⟩).record stoppedLife)).Nodup := by decide +kernel
  have hstops : ((Actor.new ⟨"p", rfl⟩).live stoppedLife).Stops := ⟨rfl, .inl ⟨_, rfl⟩⟩
  have hended := stop_resolves.1 ⟨"p", rfl⟩ stoppedLife (plainSurroundings 250000000) stoppedRest
    hapart hstops
  have hsome : ((new .default .none 0).after stoppedRun).actors[0]?.isSome = true := by
    decide +kernel
  obtain ⟨a, ha⟩ := Option.isSome_iff_exists.1 hsome
  have hshape : (((new .default .none 0).after stoppedRun).actors[0]?).map (fun a =>
      (a.stage, a.mailbox)) = some (.running, [.shutdown]) := by decide +kernel
  rw [ha, Option.map_some, Option.some.injEq, Prod.mk.injEq] at hshape
  have htold : a.Stops := ⟨hshape.1, .inl ⟨[], hshape.2⟩⟩
  obtain ⟨name, ds, es, rfl, hlived, hend, -⟩ := stop_resolves.2 .default .none 0 stoppedRun
    [.returned 0 1 (.ok (sharedReply 1)), .signal 0] 0 a ha htold
  exact ⟨hapart, hstops, hended, ⟨rfl, rfl⟩, .queued (.head _), .unread (.tail _ (.head _)),
    by decide +kernel, _, ha, htold, ⟨name, ds, es, rfl, hlived, hend⟩, by decide +kernel⟩

end Limiter

end Throttle
