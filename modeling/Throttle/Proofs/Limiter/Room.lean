import Throttle.Proofs.Limiter.Fifo
import Throttle.Proofs.Limiter.Later
import Throttle.Proofs.Manager.Planning

/-!
  Room in the windows when a request leaves. A send is planned when its request becomes the active
  one, at an instant from which every window has room for what the manager knows then. The plan is
  not made anew when other endpoints' probes teach the manager more. `planned_run` finds the plan
  of every send in the run; `room_when_sent` says what is true when the request leaves: there is
  room for what was known when it was planned, and the manager has learned since what the probes
  said that it took in, no more. Without such a probe there is room.
-/

namespace Throttle

open Http Actor

namespace Limiter

variable {w : Limiter} {m : Move} {ms : List Move} {i : Nat} {a b : Actor} {t : Moment}

/-! ## Every manager of a run -/

theorem sound_run (hactors : w.actors = []) (ms : List Move)
    (ha : (w.after ms).actors[i]? = some a) : Sound (w.after ms).now a :=
  managers_induction (P := fun s a => Sound s.now a) (fun s name => sound_new s.now name)
    (fun h hle => h.mono hle.now) (fun _ _ h => ⟨h.wired, h.settled⟩)
    (fun h hc hat => hc.sound h (by rintro t rfl; exact Int.le_of_eq hat)) hactors ms ha

theorem tidy_run (hactors : w.actors = []) (ms : List Move)
    (ha : (w.after ms).actors[i]? = some a) (hstage : a.stage = .running) :
    a.manager.history.Tidy :=
  managers_induction (P := fun _ a => a.stage = .running → a.manager.history.Tidy)
    (fun _ _ _ => History.tidy_empty 0) (fun h _ => h) (fun _ _ h => h)
    (fun h hc _ => hc.tidy h) hactors ms ha hstage

/-! ## Plans -/

/-- The replies to probes that a manager takes in with a move. -/
def seedsTaken (w : Limiter) (i : Nat) : Move → List Reply
  | .command k => if k = i then (w.actors[i]?).elim [] nextSeed else []
  | _ => []

/-- The replies to probes that a manager takes in with some moves, in order. -/
def seedsOver (w : Limiter) (i : Nat) : List Move → List Reply
  | [] => []
  | m :: ms => w.seedsTaken i m ++ (w.step m).1.seedsOver i ms

theorem seedsOver_snoc (w : Limiter) (i : Nat) (ms : List Move) (m : Move) :
    w.seedsOver i (ms ++ [m]) = w.seedsOver i ms ++ (w.after ms).seedsTaken i m := by
  induction ms generalizing w with
  | nil => exact List.append_nil _
  | cons n ms ih => rw [List.cons_append, seedsOver, ih, seedsOver, List.append_assoc]; rfl

theorem seedsTaken_of_other (h : m.actor? ≠ some i) : w.seedsTaken i m = [] := by
  cases m with
  | command k => exact if_neg fun hk => h (congrArg some hk)
  | _ => rfl

theorem seedsTaken_of_acted {d : Deed} (ha : w.actors[i]? = some a) (hm : m.actor? = some i)
    (hd : m.deed? w.surroundings = some d) : w.seedsTaken i m = a.seeds d := by
  cases m with
  | command k =>
    cases hd
    cases hm
    simp only [seedsTaken, if_true, ha]
    rfl
  | signal k => cases hd; rfl
  | ring k => cases hd; rfl
  | returned k id result => cases hd; rfl
  | _ => cases hm

/-- A move plans a send of a manager: the manager sets its alarm anew, for the instant `t`. -/
structure Plan (w : Limiter) (m : Move) (i : Nat) (t : Moment) (b : Actor) : Prop where
  after : (w.step m).1.actors[i]? = some b
  phase : b.manager.phase = .activating t
  anew : ∃ a, w.actors[i]? = some a ∧ a.manager.generation < b.manager.generation

/-- What a manager was told by probes. -/
def hear (m : Manager) (replies : List Reply) : Manager := replies.foldl (fun m r => m.heard r) m

/-- The send that a manager `a` waits for was planned in the move `m`, which left it as `b`. There
is room for what it knew then, and it has learned since only what the probes said that it took in
during the moves `between`. -/
structure Planned (w : Limiter) (m : Move) (between : List Move) (i : Nat) (t : Moment)
    (b a : Actor) : Prop where
  plan : w.Plan m i t b
  generation : a.manager.generation = b.manager.generation
  room : ∀ u, t ≤ u → b.manager.history.Room b.manager.policy u
  knows : a.manager.KnowsAs (hear b.manager ((w.step m).1.seedsOver i between))

/-- A plan stays the plan of a manager that goes on waiting. -/
theorem Planned.snoc {between : List Move} (h : Planned w m between i t b a) {n : Move} {c : Actor}
    (hgeneration : c.manager.generation = a.manager.generation)
    (hknows : c.manager.KnowsAs
      (hear a.manager (((w.step m).1.after between).seedsTaken i n))) :
    Planned w m (between ++ [n]) i t b c where
  plan := h.plan
  generation := hgeneration.trans h.generation
  room := h.room
  knows := by
    have hheard := h.knows.foldl_heard (((w.step m).1.after between).seedsTaken i n)
    rw [seedsOver_snoc, hear, List.foldl_append]
    exact ⟨hknows.policy.trans hheard.policy, hknows.history.trans hheard.history⟩

/-- Every send that a manager of a run waits for was planned in the run. -/
theorem planned_run (hactors : w.actors = []) (ms : List Move)
    (ha : (w.after ms).actors[i]? = some a) (hstage : a.stage = .running)
    (hphase : a.manager.phase = .activating t) :
    ∃ before m between b, ms = before ++ m :: between ∧
      Planned (w.after before) m between i t b a := by
  induction ms using List.reverseRecOn generalizing a with
  | nil =>
    rw [after_nil, hactors] at ha
    cases ha
  | append_singleton ms n ih =>
    -- a plan of the run so far, for a manager that goes on waiting
    have later {c : Actor} (hc : (w.after ms).actors[i]? = some c) (hrunning : c.stage = .running)
        (hwaits : c.manager.phase = .activating t)
        (hgeneration : a.manager.generation = c.manager.generation)
        (hknows : a.manager.KnowsAs (hear c.manager ((w.after ms).seedsTaken i n))) :
        ∃ before m between b, ms ++ [n] = before ++ m :: between ∧
          Planned (w.after before) m between i t b a := by
      obtain ⟨before, m, between, b, rfl, hplanned⟩ := ih hc hrunning hwaits
      refine ⟨before, m, between ++ [n], b, by simp, hplanned.snoc hgeneration ?_⟩
      rwa [after_append] at hknows
    have hstep : ((w.after ms).step n).1.actors[i]? = some a := by
      rwa [after_append] at ha
    cases step_touches (w.after ms) n i hstep with
    | @fed c hc hn cs connected hseeds =>
      refine later hc hstage hphase rfl ?_
      rw [seedsTaken_of_other hn]
      exact .refl _
    | made name hnone hm cs connected => cases hphase
    | @acted c d hc hn hd =>
      have hchange := undergo_change c d
      rcases hchange.plans (tidy_run hactors ms hc) hstage hphase with
        ⟨hrunning, ⟨hwaits, hgeneration, hknows⟩ | ⟨hgeneration, hroom⟩⟩
      · refine later hc hrunning hwaits hgeneration ?_
        rw [seedsTaken_of_acted hc hn hd]
        exact hknows
      · exact ⟨ms, n, [], c.undergo d, rfl, ⟨hstep, hphase, c, hc, hgeneration⟩, rfl, hroom, .refl _⟩

/-- When a request leaves for the first time, there is room in every window for what the manager
knew when it planned the send; probes may have taught it more since. If it took in no reply of a
probe, there is room for all it knows. -/
theorem room_when_sent (config : Config) (authorizer : Authorizer) (now : Moment) (ms : List Move)
    (m : Move) {id : Nat} (ha : ((new config authorizer now).after ms).actors[i]? = some a)
    (hphase : a.manager.phase = .activating t)
    (hsent : id ∈ sentBy i (((new config authorizer now).after ms).step m).2) :
    ∃ before plan between b, ms = before ++ plan :: between ∧
      Planned ((new config authorizer now).after before) plan between i t b a ∧
      b.manager.history.Room b.manager.policy ((new config authorizer now).after ms).now ∧
      (((new config authorizer now).after (before ++ [plan])).seedsOver i between = [] →
        a.manager.history.Room a.manager.policy ((new config authorizer now).after ms).now) := by
  obtain ⟨-, d, hd, hmark⟩ := mark_of_sentBy ha hsent
  have hsound := sound_run (w := new config authorizer now) rfl ms ha
  obtain ⟨hrunning, -, u, hu, hdue⟩ := (undergo_change a d).sends_due hsound hmark
  rw [hphase] at hu
  cases hu
  obtain ⟨before, plan, between, b, hms, hplanned⟩ :=
    planned_run (w := new config authorizer now) rfl ms ha hrunning hphase
  have hroom := hplanned.room _ hdue
  refine ⟨before, plan, between, b, hms, hplanned, hroom, ?_⟩
  intro hnone
  have hknows := hplanned.knows
  rw [after_append] at hnone
  change (((new config authorizer now).after before).step plan).1.seedsOver i between = [] at hnone
  rw [hnone] at hknows
  rw [hknows.policy, hknows.history]
  exact hroom

/-- A path beside that of `plainEndpoint`. -/
def otherEndpoint : Endpoint := ⟨"/b", rfl⟩

/-- A reply at the start that declares a policy `s` of two hits in ten seconds, with the hits so
far. -/
def sharedReply (hits : UInt32) : Reply :=
  let shared : Policy := .ofRules ⟨"s", by decide⟩ [⟨"r", [⟨⟨2, 10, 60⟩, ⟨hits, 10, 0⟩⟩]⟩]
  { status := 200, headers := shared.toHeaders, body := [], date := 0 }

/-- A refusal that declares the policy of `sharedReply` with its hits used up. It asks for the
penalty of the policy, which is a minute. -/
def refusedReply : Reply := { sharedReply 2 with status := 429 }

/-- Two endpoints share the policy. The request to the first one waits for its alarm when the reply
to the probe of the second one, dated at the start too, is taken in. -/
def sharedRun : List Move :=
  [.submit plainEndpoint plainRequest, .submit otherEndpoint plainRequest,
    .startProbe plainEndpoint, .startProbe otherEndpoint,
    .endProbe plainEndpoint (.ok (sharedReply 1)), .settle plainEndpoint, .command 0, .command 0,
    .endProbe otherEndpoint (.ok (sharedReply 2)), .settle otherEndpoint, .command 0,
    .elapse 2000000000, .ring 0]

/-- The request leaves in spite of the two hits in the window. -/
theorem room_when_sent_sharedRun :
    ∃ a t, ((new .default .none 0).after sharedRun).actors[0]? = some a ∧
      a.manager.phase = .activating t ∧
      1 ∈ sentBy 0 (((new .default .none 0).after sharedRun).step (.signal 0)).2 ∧
      ¬ a.manager.history.Room a.manager.policy ((new .default .none 0).after sharedRun).now ∧
      ∃ before plan between b, sharedRun = before ++ plan :: between ∧
        Planned ((new .default .none 0).after before) plan between 0 t b a ∧
        b.manager.history.Room b.manager.policy ((new .default .none 0).after sharedRun).now := by
  have hsome : ((new .default .none 0).after sharedRun).actors[0]?.isSome = true := by
    decide +kernel
  obtain ⟨a, ha⟩ := Option.isSome_iff_exists.1 hsome
  have hphase : (((new .default .none 0).after sharedRun).actors[0]?).map (·.manager.phase) =
      some (.activating 2000000000) := by decide +kernel
  have hfull : (((new .default .none 0).after sharedRun).actors[0]?).map (fun a =>
      decide (a.manager.history.Room a.manager.policy
        ((new .default .none 0).after sharedRun).now)) = some false := by decide +kernel
  have hsent : 1 ∈ sentBy 0 (((new .default .none 0).after sharedRun).step (.signal 0)).2 := by
    decide +kernel
  rw [ha] at hphase hfull
  have hwaits : a.manager.phase = .activating 2000000000 := Option.some.inj hphase
  obtain ⟨before, plan, between, b, hms, hplanned, hroom, -⟩ :=
    room_when_sent .default .none 0 sharedRun (.signal 0) ha hwaits hsent
  exact ⟨a, _, ha, hwaits, hsent, of_decide_eq_false (Option.some.inj hfull),
    before, plan, between, b, hms, hplanned, hroom⟩

end Limiter

end Throttle
