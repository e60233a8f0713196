import Throttle.Proofs.Limiter.Registry
import Throttle.Proofs.Limiter.Room
import Throttle.Proofs.Manager.Naming

/-!
  Managers whose policies have one name. The register finds a manager under the name for which it
  was made, but a manager takes over whatever policy a reply declares, its name included. As long as
  the limiter takes submissions, a probe is answered for one manager only, which was made for the
  name that its reply declares (`seeds_step`); so the name of a policy strays from the name of its
  manager only with a reply to a request of the manager's own (`Renamed`). Two managers hold
  policies of one name only after such a reply, or if one of them was made when the limiter had been
  told to stop (`policies_distinct`); it can come to that (`policies_distinct_renamedRun`).
-/

namespace Throttle

open Http Actor

namespace Limiter

variable {w : Limiter} {m : Move} {i j k : Nat} {a b : Actor} {name : PolicyName} {reply : Reply}

/-! ## The register in every state -/

/-- The register has every manager under the name for which it was made. -/
def Filed (w : Limiter) : Prop := ∀ x ∈ w.registered, w.names[x.2]? = some x.1

theorem filed_new (config : Config) (authorizer : Authorizer) (now : Moment) :
    (new config authorizer now).Filed := nofun

theorem filed_step (h : w.Filed) (m : Move) : (w.step m).1.Filed := by
  cases step_enlists w m with
  | same hsame =>
    have hnames : (w.step m).1.names = w.names := congrArg Prod.fst hsame
    have hregistered : (w.step m).1.registered = w.registered := congrArg Prod.snd hsame
    unfold Filed
    rw [hnames, hregistered]
    exact h
  | left hnames hcleared habandoned =>
    unfold Filed
    rw [hcleared]
    exact nofun
  | shut hnames hcleared hclosed =>
    unfold Filed
    rw [hcleared]
    exact nofun
  | @made name hm hnew hsearch hmade =>
    have hnames : (w.step m).1.names = w.names ++ [name] := congrArg Prod.fst hmade
    have hregistered : (w.step m).1.registered = w.registered ++ [(name, w.names.length)] :=
      congrArg Prod.snd hmade
    unfold Filed
    rw [hnames, hregistered]
    refine List.forall_mem_append.2 ⟨fun x hx => ?_, List.forall_mem_singleton.2 ?_⟩
    · rw [List.getElem?_append_left (List.getElem?_eq_some_iff.1 (h x hx)).1]
      exact h x hx
    · exact List.getElem?_concat_length

theorem filed_run (config : Config) (authorizer : Authorizer) (now : Moment) (ms : List Move) :
    ((new config authorizer now).after ms).Filed := by
  induction ms using List.reverseRecOn with
  | nil => exact filed_new config authorizer now
  | append_singleton ms m ih =>
    rw [after_append]
    exact filed_step ih m

/-! ## Replies of probes -/

/-- The register leads to a manager that was made for the name. -/
theorem managerFor_name (h : w.Filed) (span : Span) (name : PolicyName) :
    (w.managerFor span name).1.names[(w.managerFor span name).2.2]? = some name := by
  unfold managerFor
  split
  · rename_i hlookup
    obtain ⟨l₁, l₂, hsplit, -⟩ := List.lookup_eq_some_iff.1 hlookup
    refine h (name, _) ?_
    rw [hsplit]
    exact List.mem_append_right _ List.mem_cons_self
  · show (List.map Actor.name (w.actors ++ [Actor.new name]))[w.actors.length]? = some name
    rw [List.map_append, ← length_names]
    exact List.getElem?_concat_length

/-- The policy of a probe is the one that its reply declares. -/
theorem declares_of_probePolicy {e : Endpoint} {signed : Request} {policy : Policy}
    (h : probePolicy e signed reply = .ok policy) : Manager.Declares reply policy.name := by
  unfold probePolicy at h
  split at h
  · cases h
  · split at h
    · cases h
    · rename_i hnamed
      split at h <;> cases h
      rename_i hpolicy
      refine ⟨policy, ?_, rfl⟩
      unfold Manager.declaration
      rw [if_pos (by simpa using hnamed), hpolicy]

/-- A manager that is made has an empty mailbox. -/
theorem managerFor_mailbox (span : Span) (name : PolicyName) {c : Command}
    (ha : (w.managerFor span name).1.actors[i]? = some a) (hc : c ∈ a.mailbox) :
    ∃ a', w.actors[i]? = some a' ∧ c ∈ a'.mailbox := by
  unfold managerFor at ha
  split at ha
  · exact ⟨a, ha, hc⟩
  · by_cases hlt : i < w.actors.length
    · rw [List.getElem?_append_left hlt] at ha
      exact ⟨a, ha, hc⟩
    · rw [List.getElem?_append_right (Nat.le_of_not_lt hlt)] at ha
      obtain rfl := List.mem_singleton.1 (List.mem_of_getElem? ha)
      cases hc

/-- A probe's reply goes to a manager that was made for the name that it declares. -/
theorem endProbe_seeds (h : w.Filed) (e : Endpoint) (result : Except TransportFailure Reply)
    (hb : (w.endProbe e result).1.actors[i]? = some b) (hseed : .seed reply ∈ b.mailbox) :
    (∃ a, w.actors[i]? = some a ∧ .seed reply ∈ a.mailbox) ∨ Manager.Declares reply b.name := by
  unfold endProbe at hb
  split at hb
  · split at hb
    · exact .inl ⟨b, hb, hseed⟩
    · rename_i probed
      dsimp only at hb
      split at hb
      · exact .inl ⟨b, hb, hseed⟩
      · rename_i policy hpolicy
        have hname := managerFor_name h (discoverySpan e) policy.name
        change (seed _ _ _ _).1.actors[i]? = some b at hb
        rw [actors_of_core (core_seed _ _ _ _), getElem?_live, Option.map_eq_some_iff] at hb
        obtain ⟨a, ha, rfl⟩ := hb
        have hold (hmem : .seed reply ∈ a.mailbox) := managerFor_mailbox _ _ ha hmem
        split at hseed
        · rename_i hki
          rw [hki, names_getElem? ha] at hname
          rw [if_pos hki, Actor.live_name, Option.some.inj hname]
          change .seed reply ∈ (if a.isOpen then a.post (.seed probed) else a).mailbox at hseed
          split at hseed
          · rcases List.mem_append.1 hseed with hmem | hnew
            · exact .inl (hold hmem)
            · obtain rfl := Command.seed.inj (List.mem_singleton.1 hnew)
              exact .inr (declares_of_probePolicy hpolicy)
          · exact .inl (hold hseed)
        · exact .inl (hold hseed)
  · exact .inl ⟨b, hb, hseed⟩

/-- The reply to a probe that a mailbox holds was there before, or declares the name of its
manager. -/
theorem seeds_step (h : w.Filed) (m : Move) (hb : (w.step m).1.actors[i]? = some b)
    (hseed : .seed reply ∈ b.mailbox) :
    (∃ a, w.actors[i]? = some a ∧ .seed reply ∈ a.mailbox) ∨ Manager.Declares reply b.name := by
  by_cases hprobe : ∃ e result, m = .endProbe e result
  · obtain ⟨e, result, rfl⟩ := hprobe
    exact endProbe_seeds h e result hb hseed
  · have hnone : m.probeReply? = none := by
      cases m with
      | endProbe e result => exact absurd ⟨e, result, rfl⟩ hprobe
      | _ => rfl
    cases step_touches w m i hb with
    | @fed a ha hm cs connected hseeds =>
      refine .inl ⟨a, ha, (List.mem_append.1 hseed).resolve_right fun hmem => ?_⟩
      exact nomatch hnone.symm.trans (hseeds reply hmem)
    | made name hfree hreply cs connected => exact absurd hnone hreply
    | @acted a d ha hm hd =>
      exact .inl ⟨a, ha, (undergo_change a d).mem_mailbox (not_feeds_of_deed? hd) hseed⟩

/-! ## Names -/

/-- In a run, a reply to a request of its own gave a manager a policy of a name, which is not the one
for which the manager was made. -/
def Renamed (w : Limiter) (ms : List Move) (i : Nat) (name : PolicyName) : Prop :=
  ∃ front back a reply, ms = front ++ .signal i :: back ∧ (w.after front).actors[i]? = some a ∧
    a.nextReply = some reply ∧ Manager.Declares reply name ∧ name ≠ a.name

/-- In a run, a manager was made when the limiter had been told to stop. -/
def MadeLate (w : Limiter) (ms : List Move) (i : Nat) : Prop :=
  ∃ front back, ms = front ++ back ∧ (w.after front).closed = true ∧
    (w.after front).actors[i]? = none

theorem Renamed.snoc {ms : List Move} (h : Renamed w ms i name) (m : Move) :
    Renamed w (ms ++ [m]) i name := by
  obtain ⟨front, back, a, reply, rfl, ha, hreply, hdeclares⟩ := h
  exact ⟨front, back ++ [m], a, reply, by simp, ha, hreply, hdeclares⟩

theorem MadeLate.snoc {ms : List Move} (h : MadeLate w ms i) (m : Move) :
    MadeLate w (ms ++ [m]) i := by
  obtain ⟨front, back, rfl, hclosed, hnone⟩ := h
  exact ⟨front, back ++ [m], by simp, hclosed, hnone⟩

/-- Two managers were made for one name only if the limiter had been told to stop before the second
was made. -/
theorem madeLate_of_names (config : Config) (authorizer : Authorizer) (now : Moment)
    (ms : List Move) (hi : ((new config authorizer now).after ms).names[i]? = some name)
    (hj : ((new config authorizer now).after ms).names[j]? = some name) (hij : i < j) :
    MadeLate (new config authorizer now) ms j := by
  induction ms using List.reverseRecOn with
  | nil => cases hi
  | append_singleton ms m ih =>
    generalize hw : (new config authorizer now).after ms = w at ih
    rw [after_append, hw] at hi hj
    change (w.step m).1.names[i]? = some name at hi
    change (w.step m).1.names[j]? = some name at hj
    have same (hnames : (w.step m).1.names = w.names) :
        MadeLate (new config authorizer now) (ms ++ [m]) j :=
      (ih (hnames ▸ hi) (hnames ▸ hj)).snoc m
    cases step_enlists w m with
    | same hsame => exact same (congrArg Prod.fst hsame)
    | left hnames hcleared habandoned => exact same hnames
    | shut hnames hcleared hclosed => exact same hnames
    | @made fresh hm hnew hsearch hmade =>
      have hnames : (w.step m).1.names = w.names ++ [fresh] := congrArg Prod.fst hmade
      rw [hnames] at hi hj
      by_cases hlt : j < w.names.length
      · rw [List.getElem?_append_left hlt] at hj
        rw [List.getElem?_append_left (Nat.lt_trans hij hlt)] at hi
        exact (ih hi hj).snoc m
      · have hlast : j = w.names.length := by
          have hbound := (List.getElem?_eq_some_iff.1 hj).1
          rw [List.length_append] at hbound
          exact Nat.le_antisymm (Nat.le_of_lt_succ hbound) (Nat.le_of_not_lt hlt)
        subst hlast
        rw [List.getElem?_concat_length] at hj
        rw [List.getElem?_append_left hij] at hi
        refine ⟨ms, [m], rfl, ?_, ?_⟩
        · rw [hw]
          by_contra hopen
          have hopen' := eq_false_of_ne_true hopen
          have hlisted : w.Listed := hw ▸ listed_run config authorizer now ms (hw ▸ hopen')
          rw [hlisted.listed.resolve_left fun h => hsearch h.discoveries] at hnew
          obtain rfl := Option.some.inj hj
          exact not_mem_of_lookup hnew (List.mem_of_getElem? hi)
        · rw [hw, List.getElem?_eq_none_iff, length_names]

/-- A manager's policy has the name for which the manager was made, unless a reply to a request of
its own declared another one; and the replies of probes that wait for it declare that name. -/
structure Labelled (w : Limiter) (ms : List Move) (i : Nat) (a : Actor) : Prop where
  seeded : ∀ reply, .seed reply ∈ a.mailbox → Manager.Declares reply a.name
  named : a.manager.policy.name = a.name ∨ Renamed w ms i a.manager.policy.name

theorem labelled_step {ms : List Move} (hfiled : (w.after ms).Filed)
    (h : ∀ a, (w.after ms).actors[i]? = some a → Labelled w ms i a) (m : Move)
    (hb : (w.after (ms ++ [m])).actors[i]? = some b) : Labelled w (ms ++ [m]) i b := by
  have hmove := hb
  rw [after_append] at hmove
  change ((w.after ms).step m).1.actors[i]? = some b at hmove
  constructor
  · intro reply hseed
    rcases seeds_step hfiled m hmove hseed with ⟨a, ha, hold⟩ | hdeclares
    · have hname := names_step (names_getElem? ha) m
      rw [names_getElem? hmove] at hname
      rw [Option.some.inj hname]
      exact (h a ha).seeded reply hold
    · exact hdeclares
  · cases step_touches _ m i hmove with
    | fed ha hm cs connected hseeds => exact (h _ ha).named.imp_right (·.snoc m)
    | made name hnone hm cs connected => exact .inl rfl
    | @acted a d ha hm hd =>
      rcases undergo_name a d with hsame | ⟨reply, hseed, hdeclares⟩ |
        ⟨s, reply, rfl, hreply, hdeclares⟩
      · rw [hsame, (undergo_change a d).name]
        exact (h a ha).named.imp_right (·.snoc m)
      · left
        rw [Manager.Declares.unique hdeclares ((h a ha).seeded reply hseed), (undergo_change a d).name]
      · obtain rfl : m = .signal i := by
          cases m <;> cases hd
          cases hm
          rfl
        rw [(undergo_change a _).name]
        by_cases hname : (a.undergo (.signal s)).manager.policy.name = a.name
        · exact .inl hname
        · exact .inr ⟨ms, [], a, reply, rfl, ha, hreply, hdeclares, hname⟩

theorem labelled_run (config : Config) (authorizer : Authorizer) (now : Moment) (ms : List Move)
    (ha : ((new config authorizer now).after ms).actors[i]? = some a) :
    Labelled (new config authorizer now) ms i a := by
  induction ms using List.reverseRecOn generalizing a with
  | nil => cases ha
  | append_singleton ms m ih =>
    exact labelled_step (filed_run config authorizer now ms) (fun _ => ih) m ha

/-- Two managers hold policies of one name only if a reply to a request of one of them declared
that name in place of its own, or both were made for the name, the second of them when the limiter
had been told to stop. -/
theorem policies_distinct (config : Config) (authorizer : Authorizer) (now : Moment)
    (ms : List Move) (ha : ((new config authorizer now).after ms).actors[i]? = some a)
    (hb : ((new config authorizer now).after ms).actors[j]? = some b) (hij : i < j)
    (hsame : b.manager.policy.name = a.manager.policy.name) :
    Renamed (new config authorizer now) ms i a.manager.policy.name ∨
      Renamed (new config authorizer now) ms j a.manager.policy.name ∨
      a.manager.policy.name = a.name ∧ b.name = a.name ∧
        MadeLate (new config authorizer now) ms j := by
  rcases (labelled_run config authorizer now ms ha).named with ha' | hrenamed
  · rcases (labelled_run config authorizer now ms hb).named with hb' | hrenamed
    · have hnames : b.name = a.name := hb'.symm.trans (hsame.trans ha')
      have hj := names_getElem? hb
      rw [hnames] at hj
      exact .inr (.inr ⟨ha', hnames,
        madeLate_of_names config authorizer now ms (names_getElem? ha) hj hij⟩)
    · rw [hsame] at hrenamed
      exact .inr (.inl hrenamed)
  · exact .inl hrenamed

/-- A reply at the start that declares another policy, `t`, with its hits used up. -/
def renamingReply : Reply :=
  let renamed : Policy := .ofRules ⟨"t", by decide⟩ [⟨"r", [⟨⟨2, 10, 60⟩, ⟨2, 10, 0⟩⟩]⟩]
  { sharedReply 2 with headers := renamed.toHeaders }

/-- The reply to the first request declares the policy `t` in place of `s`. After that the probe of
another endpoint finds `t` too. -/
def renamedRun : List Move :=
  [.submit plainEndpoint plainRequest, .startProbe plainEndpoint,
    .endProbe plainEndpoint (.ok (sharedReply 1)), .settle plainEndpoint, .command 0, .command 0,
    .elapse 2000000000, .ring 0, .signal 0, .returned 0 1 (.ok renamingReply), .signal 0,
    .submit otherEndpoint plainRequest, .startProbe otherEndpoint,
    .endProbe otherEndpoint (.ok renamingReply), .settle otherEndpoint, .command 1, .command 1]

/-- Both managers hold the policy `t`, each with a history of its own. -/
theorem policies_distinct_renamedRun :
    ∃ a b, ((new .default .none 0).after renamedRun).actors[0]? = some a ∧
      ((new .default .none 0).after renamedRun).actors[1]? = some b ∧
      b.manager.policy.name = a.manager.policy.name ∧ a.stage = .running ∧ b.stage = .running ∧
      a.manager.history ≠ b.manager.history ∧
      Renamed (new .default .none 0) renamedRun 0 a.manager.policy.name := by
  have hsome : ((new .default .none 0).after renamedRun).actors[0]?.isSome = true ∧
      ((new .default .none 0).after renamedRun).actors[1]?.isSome = true := by decide +kernel
  obtain ⟨a, ha⟩ := Option.isSome_iff_exists.1 hsome.1
  obtain ⟨b, hb⟩ := Option.isSome_iff_exists.1 hsome.2
  have hnames : (((new .default .none 0).after renamedRun).actors[1]?).map
        (·.manager.policy.name) =
      (((new .default .none 0).after renamedRun).actors[0]?).map (·.manager.policy.name) := by
    decide +kernel
  have hstages : ((new .default .none 0).after renamedRun).actors.map (·.stage) =
      [.running, .running] := by decide +kernel
  have hhistories : (((new .default .none 0).after renamedRun).actors[0]?).map
        (·.manager.history) ≠
      (((new .default .none 0).after renamedRun).actors[1]?).map (·.manager.history) := by
    decide +kernel
  have hopen : ((new .default .none 0).after renamedRun).closed = false := by decide +kernel
  -- the one reply to a request that is taken in comes to the first manager
  have hsignals : ∀ front back, renamedRun ≠ front ++ .signal 1 :: back := by
    intro front back heq
    have hmem : Move.signal 1 ∈ renamedRun := by simp [heq]
    simp [renamedRun] at hmem
  rw [ha, hb] at hnames hhistories
  replace hnames : b.manager.policy.name = a.manager.policy.name := Option.some.inj hnames
  refine ⟨a, b, ha, hb, hnames, ?_, ?_, fun heq => hhistories (congrArg some heq), ?_⟩
  · have hstage := congrArg (·[0]?) hstages
    simp only [List.getElem?_map, ha] at hstage
    exact Option.some.inj hstage
  · have hstage := congrArg (·[1]?) hstages
    simp only [List.getElem?_map, hb] at hstage
    exact Option.some.inj hstage
  · rcases policies_distinct .default .none 0 renamedRun ha hb Nat.zero_lt_one hnames with
      hrenamed | ⟨front, back, _, _, heq, -⟩ | ⟨-, -, front, back, heq, hclosed, -⟩
    · exact hrenamed
    · exact absurd heq (hsignals front back)
    · rw [open_front (heq ▸ hopen)] at hclosed
      cases hclosed

end Limiter

end Throttle
