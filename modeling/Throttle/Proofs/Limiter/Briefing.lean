import Throttle.Proofs.Limiter.Renaming
import Throttle.Proofs.Manager.Knowledge

/-!
  No request is scheduled blind. A manager is made with the reply of a probe in its mailbox, before
  any request can be (`made_fresh`), and that reply declares a policy. So a manager that holds a
  request has taken in a declared policy (`schooled_step`), and keeps one whatever replies come
  later. `briefed_run` says this of every manager of every run, and that its history has room for all
  that any policy allowed which it had in the run.
-/

namespace Throttle

open Http Actor

namespace Actor

variable {s : Surroundings} {a : Actor} {d : Deed}

/-- An actor that was made and has done nothing yet. The first command in its mailbox is the reply of
a probe, which declares a policy. -/
structure Newborn (a : Actor) : Prop where
  stage : a.stage = .running
  manager : a.manager = .new a.name
  inbox : a.inbox = []
  alarm : a.alarm = none
  outstanding : a.outstanding = []
  mailbox : ∃ reply rest policy, a.mailbox = .seed reply :: rest ∧
    Manager.declaration reply = some (.ok policy)

/-- Nothing is held. -/
structure Unburdened (a : Actor) : Prop where
  queue : a.manager.queue = []
  active : a.manager.active = none

theorem Newborn.unburdened (h : a.Newborn) : a.Unburdened :=
  ⟨congrArg Manager.queue h.manager, congrArg Manager.active h.manager⟩

/-- An actor knows a policy to schedule by, or has not begun, or has failed before it held
anything. -/
inductive Schooled (a : Actor) : Prop where
  | knows (h : a.manager.policy.WellFormed)
  | fresh (h : a.Newborn)
  | failed (hstage : a.stage = .failed) (h : a.Unburdened)

theorem Schooled.wellFormed (h : a.Schooled)
    (hheld : a.manager.queue ≠ [] ∨ a.manager.active ≠ none) : a.manager.policy.WellFormed := by
  have burdened (hnone : a.Unburdened) : a.manager.policy.WellFormed :=
    (hheld.elim (absurd hnone.queue) (absurd hnone.active))
  cases h with
  | knows h => exact h
  | fresh h => exact burdened h.unburdened
  | failed hstage h => exact burdened h

/-- More commands in the mailbox come after the first one. -/
theorem Schooled.fed (h : a.Schooled) (cs : List Command) (connected : Bool) :
    Schooled { a with mailbox := a.mailbox ++ cs, connected } := by
  cases h with
  | knows h => exact .knows h
  | failed hstage h => exact .failed hstage ⟨h.queue, h.active⟩
  | fresh h =>
    obtain ⟨reply, rest, policy, hmailbox, hdeclared⟩ := h.mailbox
    refine .fresh ⟨h.stage, h.manager, h.inbox, h.alarm, h.outstanding,
      reply, rest ++ cs, policy, ?_, hdeclared⟩
    rw [hmailbox]
    rfl

/-- The manager of an actor that has failed does not change. -/
theorem undergo_manager_of_failed (h : a.stage = .failed) (d : Deed) :
    (a.undergo d).manager = a.manager := by
  have hrunning : a.stage ≠ .running := by
    rw [h]
    nofun
  cases d with
  | post c =>
    simp only [undergo]
    split <;> rfl
  | command s =>
    have hnone : a.command s = none := if_pos hrunning
    simp only [undergo, hnone, Option.elim_none]
  | signal s =>
    simp only [undergo, signal]
    cases a.inbox with
    | nil => rfl
    | cons x rest =>
      dsimp only
      rw [h]
      cases x <;> rfl
  | ring now =>
    simp only [undergo, ring]
    cases a.alarm.filter fun x => decide (x.due ≤ now) <;> rfl
  | returned id result =>
    simp only [undergo, returned]
    split <;> rfl
  | disconnect => rfl

/-- The first command teaches a fresh actor its policy, unless the actor fails with it. -/
theorem Newborn.command (h : a.Newborn) (s : Surroundings) : (a.undergo (.command s)).Schooled := by
  obtain ⟨reply, rest, policy, hmailbox, hdeclared⟩ := h.mailbox
  simp only [undergo, command_of_seed h.stage hmailbox, Option.elim_some]
  have hends := Manager.receive_ends s a.manager (.seed reply)
  cases hr : (a.manager.receive s (.seed reply)).result with
  | ok m' =>
    rw [finish_of_ok hr]
    refine .knows ?_
    rw [after_manager, (hends.result hr).learns.policy]
    show (a.manager.policyAfter reply).WellFormed
    unfold Manager.policyAfter
    rw [hdeclared]
    exact Manager.wellFormed_of_declaration hdeclared
  | error e =>
    rw [finish_of_error hr (hends.quiet hr)]
    exact .failed rfl ⟨h.unburdened.queue, h.unburdened.active⟩

/-- Nothing but its first command can happen to a fresh actor. -/
theorem Newborn.undergo (h : a.Newborn) (d : Deed) : (a.undergo d).Schooled := by
  cases d with
  | post c =>
    simp only [Actor.undergo]
    split
    · exact (Schooled.fresh h).fed [c] a.connected
    · exact .fresh h
  | command s => exact h.command s
  | signal s =>
    have hnone : a.signal s = none := by
      unfold signal
      rw [h.inbox]
    simp only [Actor.undergo, hnone, Option.elim_none]
    exact .fresh h
  | ring now =>
    have hnone : a.ring now = none := by
      unfold ring
      rw [h.alarm]
      rfl
    simp only [Actor.undergo, hnone, Option.getD_none]
    exact .fresh h
  | returned id result =>
    have hnone : a.returned id result = none := by
      unfold returned
      rw [h.outstanding]
      rfl
    simp only [Actor.undergo, hnone, Option.getD_none]
    exact .fresh h
  | disconnect =>
    have hsame := (Schooled.fresh h).fed [] false
    rwa [List.append_nil] at hsame

/-- An actor stays schooled, whatever happens to it. -/
theorem Schooled.undergo (h : a.Schooled) (d : Deed) : (a.undergo d).Schooled := by
  cases h with
  | knows h => exact .knows ((undergo_learns a d).wellFormed h)
  | fresh h => exact h.undergo d
  | failed hstage h =>
    have hsame := undergo_manager_of_failed hstage d
    exact .failed ((undergo_change a d).failed hstage) ⟨hsame ▸ h.queue, hsame ▸ h.active⟩

end Actor

namespace Limiter

variable {w : Limiter} {m : Move} {i : Nat} {a b : Actor}

/-- A manager is made for the reply of a probe, which is the first command in its mailbox. -/
theorem endProbe_fresh (hnone : w.actors[i]? = none) (e : Endpoint)
    (result : Except TransportFailure Reply) (hb : (w.endProbe e result).1.actors[i]? = some b) :
    b.Newborn := by
  have absent {c : Actor} (hc : w.actors[i]? = some c) : False := by
    rw [hnone] at hc
    cases hc
  unfold endProbe at hb
  split at hb
  · split at hb
    · exact (absent hb).elim
    · rename_i reply
      dsimp only at hb
      split at hb
      · exact (absent hb).elim
      · rename_i policy hpolicy
        obtain ⟨declared, hdeclared, -⟩ := declares_of_probePolicy hpolicy
        change (seed _ _ _ _).1.actors[i]? = some b at hb
        rw [actors_of_core (core_seed _ _ _ _), getElem?_live, Option.map_eq_some_iff] at hb
        obtain ⟨a, ha, rfl⟩ := hb
        unfold managerFor at ha ⊢
        cases hlookup : w.registered.lookup policy.name with
        | some k =>
          simp only [hlookup] at ha
          exact (absent ha).elim
        | none =>
          simp only [hlookup] at ha ⊢
          rw [List.getElem?_append_right (List.getElem?_eq_none_iff.1 hnone)] at ha
          have hlast := (List.getElem?_eq_some_iff.1 ha).1
          obtain rfl := List.mem_singleton.1 (List.mem_of_getElem? ha)
          have hi : w.actors.length = i := by
            rw [List.length_singleton] at hlast
            exact Nat.le_antisymm (List.getElem?_eq_none_iff.1 hnone) (by omega)
          rw [if_pos hi]
          exact ⟨rfl, rfl, rfl, rfl, rfl, reply, [], declared, rfl, hdeclared⟩
  · exact (absent hb).elim

/-- A manager that was not there before is fresh. -/
theorem made_fresh (hnone : w.actors[i]? = none) (hb : (w.step m).1.actors[i]? = some b) :
    b.Newborn := by
  cases m with
  | endProbe e result => exact endProbe_fresh hnone e result hb
  | _ =>
    rw [step_makes_none rfl hnone] at hb
    cases hb

/-- What is true of every fresh manager and outlasts every deed is true of every manager of a run. -/
theorem outlasting_run {P : Actor → Prop} (fresh : ∀ {a}, a.Newborn → P a)
    (fed : ∀ {a} cs connected, P a → P { a with mailbox := a.mailbox ++ cs, connected })
    (undergo : ∀ {a} d, P a → P (a.undergo d)) (hactors : w.actors = []) (ms : List Move)
    (ha : (w.after ms).actors[i]? = some a) : P a := by
  induction ms using List.reverseRecOn generalizing a with
  | nil =>
    rw [after_nil, hactors] at ha
    cases ha
  | append_singleton ms m ih =>
    rw [after_append] at ha
    change ((w.after ms).step m).1.actors[i]? = some a at ha
    cases step_touches (w.after ms) m i ha with
    | fed hb hm cs connected hseeds => exact fed cs connected (ih hb)
    | made name hnone hm cs connected => exact fresh (made_fresh hnone ha)
    | acted hb hm hd => exact undergo _ (ih hb)

/-- What outlasts every deed and is true of a manager once is true of it ever after. -/
theorem outlasting_later {P : Actor → Prop}
    (fed : ∀ {a} cs connected, P a → P { a with mailbox := a.mailbox ++ cs, connected })
    (undergo : ∀ {a} d, P a → P (a.undergo d)) (ha : w.actors[i]? = some a) (h : P a)
    (ms : List Move) : ∃ b, (w.after ms).actors[i]? = some b ∧ P b := by
  induction ms generalizing w a with
  | nil => exact ⟨a, ha, h⟩
  | cons m ms ih =>
    obtain ⟨b, hb⟩ := step_keeps w m ha
    refine ih hb ?_
    cases step_touches w m i hb with
    | fed hc hm cs connected hseeds =>
      obtain rfl := Option.some.inj (ha.symm.trans hc)
      exact fed cs connected h
    | made name hnone hm cs connected => exact nomatch hnone.symm.trans ha
    | acted hc hm hd =>
      obtain rfl := Option.some.inj (ha.symm.trans hc)
      exact undergo _ h

/-- What a manager `a` of a run knows when it holds requests. -/
structure Briefed (w : Limiter) (ms : List Move) (i : Nat) (a : Actor) : Prop where
  /-- A request is held by a well-formed policy only. -/
  policy : a.manager.queue ≠ [] ∨ a.manager.active ≠ none → a.manager.policy.WellFormed
  /-- The history has room for all that any policy allowed which the manager had. -/
  capacity : ∀ front back b, ms = front ++ back → (w.after front).actors[i]? = some b →
    b.manager.policy.maximumHits ≤ a.manager.history.capacity
  /-- The history holds a date, unless none of these policies allowed anything. -/
  dated : a.manager.history.entries = [] → ∀ front back b, ms = front ++ back →
    (w.after front).actors[i]? = some b → b.manager.policy.maximumHits = 0

/-- In every state of a limiter, every manager that holds a request has a well-formed policy to
schedule it by, and a history for it. -/
theorem briefed_run (config : Config) (authorizer : Authorizer) (now : Moment) (ms : List Move)
    (ha : ((new config authorizer now).after ms).actors[i]? = some a) :
    Briefed (new config authorizer now) ms i a := by
  have roomy {ns : List Move} {b : Actor}
      (hb : ((new config authorizer now).after ns).actors[i]? = some b) : b.manager.Roomy :=
    outlasting_run (P := fun a => a.manager.Roomy)
      (fun h => by rw [h.manager]; exact Manager.roomy_new _) (fun _ _ h => h)
      (fun d h => (undergo_learns _ d).roomy h) rfl ns hb
  have capacity (front back : List Move) (b : Actor) (hms : ms = front ++ back)
      (hb : ((new config authorizer now).after front).actors[i]? = some b) :
      b.manager.policy.maximumHits ≤ a.manager.history.capacity := by
    subst hms
    rw [after_append] at ha
    obtain ⟨c, hc, hle⟩ := outlasting_later
      (P := fun a => b.manager.policy.maximumHits ≤ a.manager.history.capacity)
      (fun _ _ h => h) (fun d h => Nat.le_trans h (undergo_learns _ d).capacity_le) hb
      (roomy hb).capacity back
    obtain rfl := Option.some.inj (ha.symm.trans hc)
    exact hle
  refine ⟨?_, capacity, fun hnone front back b hms hb => ?_⟩
  · exact (outlasting_run (P := Schooled) .fresh (fun cs connected h => h.fed cs connected)
      (fun d h => h.undergo d) rfl ms ha).wellFormed
  · have hle := capacity front back b hms hb
    rw [(roomy ha).entries hnone] at hle
    exact Nat.eq_zero_of_le_zero hle

/-- A reply at the start that declares a policy of so many hits in ten seconds. -/
def allowingReply (limit : UInt32) : Reply :=
  let allowing : Policy := .ofRules ⟨"a", by decide⟩ [⟨"r", [⟨⟨limit, 10, 60⟩, ⟨1, 10, 0⟩⟩]⟩]
  { status := 200, headers := allowing.toHeaders, body := [], date := 0 }

/-- A probe finds a policy of five hits. -/
def widerRun : List Move :=
  [.submit plainEndpoint plainRequest, .submit plainEndpoint plainRequest,
    .startProbe plainEndpoint, .endProbe plainEndpoint (.ok (allowingReply 5)), .settle plainEndpoint,
    .command 0, .command 0, .command 0]

/-- The probe of another endpoint says that the policy allows two. -/
def narrowerRun : List Move :=
  [.submit otherEndpoint plainRequest, .startProbe otherEndpoint,
    .endProbe otherEndpoint (.ok (allowingReply 2)), .command 0]

/-- One request has the active place, the other one is in the queue. The history keeps room for five
dates. -/
theorem briefed_run_narrowerRun :
    ∃ a b, ((new .default .none 0).after (widerRun ++ narrowerRun)).actors[0]? = some a ∧
      Briefed (new .default .none 0) (widerRun ++ narrowerRun) 0 a ∧
      a.manager.queue.map (·.id) = [2] ∧ a.manager.active.map (·.id) = some 1 ∧
      a.manager.policy.maximumHits = 2 ∧
      ((new .default .none 0).after widerRun).actors[0]? = some b ∧
      b.manager.policy.maximumHits = 5 ∧ 5 ≤ a.manager.history.capacity := by
  have hsome : ((new .default .none 0).after (widerRun ++ narrowerRun)).actors[0]?.isSome = true := by
    decide +kernel
  have hbefore : ((new .default .none 0).after widerRun).actors[0]?.isSome = true := by
    decide +kernel
  obtain ⟨a, ha⟩ := Option.isSome_iff_exists.1 hsome
  obtain ⟨b, hb⟩ := Option.isSome_iff_exists.1 hbefore
  have hholds : (((new .default .none 0).after (widerRun ++ narrowerRun)).actors[0]?).map (fun a =>
      (a.manager.queue.map (·.id), a.manager.active.map (·.id), a.manager.policy.maximumHits)) =
      some ([2], some 1, 2) := by decide +kernel
  have hwide : (((new .default .none 0).after widerRun).actors[0]?).map
      (·.manager.policy.maximumHits) = some 5 := by decide +kernel
  rw [ha] at hholds
  rw [hb] at hwide
  obtain ⟨hqueue, hactive, hnarrow⟩ : a.manager.queue.map (·.id) = [2] ∧
      a.manager.active.map (·.id) = some 1 ∧ a.manager.policy.maximumHits = 2 := by
    simpa using hholds
  have hfive : b.manager.policy.maximumHits = 5 := Option.some.inj hwide
  have hbriefed := briefed_run .default .none 0 (widerRun ++ narrowerRun) ha
  have hroom := hbriefed.capacity widerRun narrowerRun b rfl hb
  rw [hfive] at hroom
  exact ⟨a, b, ha, hbriefed, hqueue, hactive, hnarrow, hb, hfive, hroom⟩

end Limiter

end Throttle
