import Throttle.Proofs.Limiter.Routing
import Throttle.Proofs.Manager.Sending

/-!
  What is true of one manager from some point of a run on. The surroundings in which it acts only
  move on: the clock does not go back, callers that stopped waiting do not come back, and the
  settings stay (`leads_step`); only the authorizer may change. What a manager keeps through every
  deed in such surroundings it has at every later point (`later_induction`, with the record since then
  `later_record`), and if every new manager has it, every manager of a run has it
  (`managers_induction`).
-/

namespace Throttle

open Http Actor

namespace Limiter

variable {w v : Limiter} {m : Move} {i : Nat} {a : Actor}

/-! ## Surroundings move on -/

/-- The settings of a limiter and the callers that stopped waiting. -/
def ground (w : Limiter) : Config × List Nat := (w.config, w.dropped)

theorem ground_of_desk (h : v.desk = w.desk) : v.ground = w.ground := by
  have hground : v.desk.ground = w.desk.ground := congrArg ground h
  exact hground

theorem ground_of_core (h : v.core = w.core) : v.ground = w.ground :=
  ground_of_desk (desk_of_core h)

theorem ground_leave (w : Limiter) (e : Endpoint) : (w.leave e).ground = w.ground := by
  unfold leave hangUpIfFree
  split <;> rfl

theorem ground_settle (w : Limiter) (e : Endpoint) : (w.settle e).1.ground = w.ground := by
  unfold settle
  split
  · split
    · exact ground_leave w e
    · exact ground_leave w e
    · split
      · refine (ground_leave _ e).trans ?_
        exact (ground_of_core (core_answerAll (w.removeRoute e) _ _) :)
      · split
        · refine (ground_leave _ e).trans ?_
          exact (ground_of_desk (desk_enqueueAll (w.setRoute e _) _ _) :)
        · unfold settleFailed
          dsimp only
          split
          · refine (ground_leave _ e).trans ?_
            exact (ground_of_core (core_answerAll w _ _) :)
          · exact (ground_of_core (core_answerAll w _ _) :)
  · rfl

theorem ground_submit (w : Limiter) (e : Endpoint) (r : Request) :
    (w.submit e r).1.ground = w.ground := by
  have hstart : { w with nextId := w.nextId + 1 }.startTicker.ground = w.ground :=
    (ground_of_core (core_startTicker { w with nextId := w.nextId + 1 }) :)
  unfold submit
  dsimp only
  split
  · exact (ground_of_core (core_answer { w with nextId := w.nextId + 1 } _ _) :)
  · split
    · exact (ground_of_desk (desk_enqueue _ _ _)).trans hstart
    · exact hstart
    · exact hstart

theorem ground_shutdown (w : Limiter) : w.shutdown.1.ground = w.ground := by
  unfold shutdown
  split
  · rfl
  · exact (ground_of_core (core_answerAll
      { w with closed := true, actors := w.mapRegistered Actor.stop } _ _) :)

theorem leads_of_ground (h : v.ground = w.ground) (hnow : w.now ≤ v.now) :
    w.surroundings.Leads v.surroundings where
  now := hnow
  config := congrArg Prod.fst h
  gone id hid := by
    have hdropped : v.dropped = w.dropped := congrArg Prod.snd h
    show v.dropped.contains id = true
    rw [hdropped]
    exact hid

/-- A caller more may stop waiting. -/
theorem leads_letGo (w : Limiter) (id : Nat) : w.surroundings.Leads (w.letGo id).surroundings := by
  unfold letGo
  split
  · refine ⟨Int.le_refl _, rfl, fun k hk => ?_⟩
    exact List.contains_iff_mem.2 (.tail id (List.contains_iff_mem.1 hk))
  · exact .refl _

theorem leads_step (w : Limiter) (m : Move) : w.surroundings.Leads (w.step m).1.surroundings := by
  have hnow := now_step w m
  cases hm : m.actor? with
  | some k => exact leads_of_ground (ground_of_desk (desk_acting hm w)) hnow
  | none =>
    unfold step at hnow ⊢
    split
    · exact .refl _
    · rename_i hfree
      rw [if_neg hfree] at hnow
      cases m with
      | submit e r => exact leads_of_ground (ground_submit w e r) hnow
      | settle e => exact leads_of_ground (ground_settle w e) hnow
      | startProbe e => exact leads_of_ground (ground_of_desk (desk_startProbe w e)) hnow
      | endProbe e result => exact leads_of_ground (ground_of_desk (desk_endProbe w e result)) hnow
      | shutdown => exact leads_of_ground (ground_shutdown w) hnow
      | release =>
        refine leads_of_ground ?_ hnow
        show { w with owners := w.owners - 1 }.hangUpIfFree.ground = w.ground
        unfold hangUpIfFree
        split <;> rfl
      | retain => exact leads_of_ground rfl hnow
      | renew f => exact leads_of_ground rfl hnow
      | elapse d => exact leads_of_ground rfl hnow
      | refresh => exact leads_of_ground rfl hnow
      | cancel id => exact leads_letGo w id
      | letGo id => exact leads_letGo w id
      | call i => exact leads_of_ground (ground_of_core (core_call w i)) hnow
      | awaitPause => exact leads_of_ground (ground_of_core (core_awaitPause w)) hnow
      | tick => exact leads_of_ground (ground_of_core (core_tick w)) hnow
      | command k => cases hm
      | signal k => cases hm
      | ring k => cases hm
      | returned k id result => cases hm

theorem leads_run (w : Limiter) (ms : List Move) :
    w.surroundings.Leads (w.after ms).surroundings := by
  induction ms generalizing w with
  | nil => exact .refl _
  | cons m ms ih => exact (leads_step w m).trans (ih _)

/-! ## One manager from some point on -/

theorem sentBy_append (i : Nat) (hs gs : List Happening) :
    sentBy i (hs ++ gs) = sentBy i hs ++ sentBy i gs := by
  unfold sentBy
  rw [senders_append, List.filterMap_append]

/-- What can be observed of a run, the first move apart. -/
theorem run_cons_what (w : Limiter) (m : Move) (ms : List Move) :
    (w.run (m :: ms)).2.map (·.what) =
      (w.step m).2 ++ ((w.step m).1.run ms).2.map (·.what) := by
  show List.map _ ((w.step m).2.map _ ++ _) = _
  rw [List.map_append, List.map_map]
  exact congrArg (· ++ _) (List.map_id _)

/-- What can be observed of a run, the last move apart. -/
theorem run_snoc_what (w : Limiter) (ms : List Move) (m : Move) :
    (w.run (ms ++ [m])).2.map (·.what) =
      (w.run ms).2.map (·.what) ++ ((w.after ms).step m).2 := by
  induction ms generalizing w with
  | nil => exact (run_cons_what w m []).trans (List.append_nil _)
  | cons n ms ih =>
    rw [List.cons_append, run_cons_what, run_cons_what, ih, List.append_assoc]
    rfl

/-- What a manager sends in a run is on its record. -/
theorem sentIn_passagesOver (w : Limiter) (i : Nat) (ms : List Move) :
    sentIn (w.passagesOver i ms) = sentBy i ((w.run ms).2.map (·.what)) := by
  induction ms generalizing w with
  | nil => rfl
  | cons m ms ih =>
    rw [run_cons_what, sentBy_append, passagesOver, sentIn_append, sentIn_passages, ih]

/-- What one manager has at some point and keeps through every deed, in surroundings that move on,
it has at every later point, with the record since then. -/
theorem later_record {P : Surroundings → Actor → List Mark → Prop}
    (mono : ∀ {s t a ms}, P s a ms → s.Leads t → P t a ms)
    (fed : ∀ {s a ms ns} cs connected, P s a ms → sentIn ns = [] →
      P s { a with mailbox := a.mailbox ++ cs, connected } (ms ++ ns))
    (step : ∀ {s a d b ms ns}, P s a ms → Change a d b ns → d.At s → P s b (ms ++ ns))
    (ha : w.actors[i]? = some a) (front : List Mark) (h : P w.surroundings a front)
    (ms : List Move) :
    ∃ b, (w.after ms).actors[i]? = some b ∧
      P (w.after ms).surroundings b (front ++ w.passagesOver i ms) := by
  induction ms generalizing w a front with
  | nil =>
    refine ⟨a, ha, ?_⟩
    rw [passagesOver, List.append_nil]
    exact h
  | cons m ms ih =>
    obtain ⟨b, hb⟩ := step_keeps w m ha
    rw [passagesOver, ← List.append_assoc]
    refine ih hb _ (mono ?_ (leads_step w m))
    cases step_touches w m i hb with
    | @fed c hc hm cs connected hseeds =>
      obtain rfl := Option.some.inj (ha.symm.trans hc)
      refine fed cs connected h ?_
      rw [sentIn_passages, sentBy_of_other hm]
    | made name hnone hm cs connected =>
      rw [ha] at hnone
      cases hnone
    | @acted c d hc hm hd =>
      obtain rfl := Option.some.inj (ha.symm.trans hc)
      obtain ⟨e, he, -, -, hpassages⟩ := acting_step hm w
      obtain rfl := Option.some.inj (hd.symm.trans he)
      rw [hpassages i, if_pos rfl, ha]
      exact step h (undergo_change a d) (deed_at hd)

/-- What one manager has at some point and keeps through every deed, in surroundings that move on,
it has at every later point. -/
theorem later_induction {P : Surroundings → Actor → Prop}
    (mono : ∀ {s t a}, P s a → s.Leads t → P t a)
    (fed : ∀ {s a} cs connected, P s a → P s { a with mailbox := a.mailbox ++ cs, connected })
    (step : ∀ {s a d b ns}, P s a → Change a d b ns → d.At s → P s b)
    (ha : w.actors[i]? = some a) (h : P w.surroundings a) (ms : List Move) :
    ∃ b, (w.after ms).actors[i]? = some b ∧ P (w.after ms).surroundings b :=
  later_record (P := fun s a _ => P s a) mono (fun cs connected h _ => fed cs connected h) step ha
    [] h ms

/-- What every manager has when it is made and keeps through every deed, in surroundings that move
on, every manager of a run has. -/
theorem managers_induction {P : Surroundings → Actor → Prop}
    (new : ∀ s name, P s (.new name))
    (mono : ∀ {s t a}, P s a → s.Leads t → P t a)
    (fed : ∀ {s a} cs connected, P s a → P s { a with mailbox := a.mailbox ++ cs, connected })
    (step : ∀ {s a d b ns}, P s a → Change a d b ns → d.At s → P s b)
    (hactors : w.actors = []) (ms : List Move) (ha : (w.after ms).actors[i]? = some a) :
    P (w.after ms).surroundings a := by
  induction ms using List.reverseRecOn generalizing a with
  | nil =>
    rw [after_nil, hactors] at ha
    cases ha
  | append_singleton ms m ih =>
    rw [after_append] at ha ⊢
    refine mono ?_ (leads_step (w.after ms) m)
    cases step_touches (w.after ms) m i ha with
    | fed hb hm cs connected hseeds => exact fed cs connected (ih hb)
    | made name hnone hm cs connected => exact fed cs connected (new _ name)
    | acted hb hm hd => exact step (ih hb) (undergo_change _ _) (deed_at hd)

end Limiter

end Throttle
