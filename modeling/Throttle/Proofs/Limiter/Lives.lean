import Mathlib.Data.List.Induction
import Throttle.Proofs.Limiter.Frame
import Throttle.Proofs.Manager.Marks

/-!
  The lives of the managers in a run. A move lets one manager do one deed (`acting_step`), or others
  feed the managers; `step_touches` says what a manager is after a move. So every manager of every
  run has had a life (`run_lives`), and what can be seen of it from outside, `passages`, is the
  record of that life.
-/

namespace Throttle

open Http Actor

/-- The request that one manager handed to the transport. -/
def Sender.by? (i : Nat) : Sender → Option Nat
  | .manager j id => if j = i then some id else none
  | .probe _ => none

namespace Limiter

variable {w v : Limiter} {m : Move} {i k : Nat}

/-- The requests that a manager hands to the transport, among some happenings. -/
def sentBy (i : Nat) (hs : List Happening) : List Nat := (senders hs).filterMap (Sender.by? i)

theorem sentBy_of_senders {hs : List Happening} {ids : List Nat}
    (h : senders hs = ids.map (.manager k)) (i : Nat) :
    sentBy i hs = if i = k then ids else [] := by
  unfold sentBy
  rw [h, List.filterMap_map]
  split
  · rename_i hik
    subst hik
    refine (List.filterMap_congr ?_).trans List.filterMap_some
    intro id _
    exact if_pos rfl
  · rename_i hik
    exact List.filterMap_eq_nil_iff.2 fun id _ => if_neg (Ne.symm hik)

/-- In a move in which no manager acts, no manager sends. -/
theorem sentBy_of_feeding (h : m.actor? = none) (w : Limiter) (i : Nat) :
    sentBy i (w.step m).2 = [] := by
  unfold sentBy
  rcases (feeding_step h w).2 with hnone | ⟨e, -, hprobe⟩
  · rw [hnone]
    rfl
  · rw [hprobe]
    rfl

/-! ## Moves in which a manager acts -/

/-- The mailbox of a manager. -/
def mailbox (w : Limiter) (i : Nat) : List Command := (w.actors[i]?).elim [] Actor.mailbox

/-- The requests that entered the mailbox of a manager from one state to a later one, as long as
nothing was taken from it. -/
def arrivals (w v : Limiter) (i : Nat) : List Nat :=
  (Actor.queuedIn ((v.mailbox i).drop (w.mailbox i).length)).map (·.id)

/-- The transmission of a manager that a move brings to an end. -/
def comebacks (w : Limiter) (i : Nat) : Move → List Actor.Mark
  | .returned k id result =>
    if k = i ∧ id ∈ (w.actors[i]?).elim [] Actor.outstanding then
      [.returned id (Actor.refused result)]
    else []
  | _ => []

/-- What passes a manager in one move: requests that enter its mailbox, requests that it hands to
the transport, replies that come back. -/
def passages (w : Limiter) (m : Move) (i : Nat) : List Actor.Mark :=
  (w.arrivals (w.step m).1 i).map .entered ++
    ((sentBy i (w.step m).2).map .sent ++ w.comebacks i m)

theorem arrivals_of_length_le (h : (v.mailbox i).length ≤ (w.mailbox i).length) :
    w.arrivals v i = [] := by
  unfold arrivals
  rw [List.drop_eq_nil_of_le h]
  rfl

theorem getElem?_live (w : Limiter) (k : Nat) (ds : List Actor.Deed) (i : Nat) :
    (w.live k ds).actors[i]? = (w.actors[i]?).map fun a => if k = i then a.live ds else a := by
  unfold live
  rw [List.getElem?_modify]
  rfl

/-- One deed that is not done by others adds nothing to any mailbox. -/
theorem arrivals_of_acting {d : Actor.Deed} (hd : ¬ d.Feeds)
    (h : v.core = (w.live k [d]).core) (i : Nat) : w.arrivals v i = [] := by
  apply arrivals_of_length_le
  unfold mailbox
  rw [actors_of_core h, getElem?_live]
  cases w.actors[i]? with
  | none => exact Nat.le_refl _
  | some a =>
    simp only [Option.map_some, Option.elim_some]
    split
    · exact (Actor.undergo_change a d).mailbox_length_le hd
    · exact Nat.le_refl _

section Stepping

variable {f : Surroundings → Actor → Option Actor.Step} {d : Actor.Deed}

/-- In one step of its own, a manager sends what is on the record of the deed. -/
theorem senders_stepping (w : Limiter) (k : Nat)
    (hmarks : ∀ a, a.marks d =
      (f w.surroundings a).elim [] fun step => (sends step.outputs).map .sent) :
    senders (w.withActor k f).2 =
      ((w.actors[k]?).elim [] fun a => sentIn (a.marks d)).map (.manager k) := by
  refine (senders_withActor k).trans (congrArg _ ?_)
  cases w.actors[k]? with
  | none => rfl
  | some a =>
    simp only [Option.elim_some, hmarks]
    cases f w.surroundings a with
    | none => rfl
    | some step => exact (sentIn_sent _).symm

/-- In a step of its own that is not the end of a transmission, nothing passes a manager but what it
sends. -/
theorem passages_stepping (hd : ¬ d.Feeds) (hstep : w.step m = w.withActor k f)
    (hcore : (w.step m).1.core = (w.live k [d]).core) (hback : ∀ i, w.comebacks i m = [])
    (hmarks : ∀ a, a.marks d =
      (f w.surroundings a).elim [] fun step => (sends step.outputs).map .sent) (i : Nat) :
    w.passages m i = if i = k then (w.actors[k]?).elim [] fun a => a.marks d else [] := by
  unfold passages
  rw [arrivals_of_acting hd hcore, hback, List.append_nil, hstep,
    sentBy_of_senders (senders_withActor k)]
  split
  · cases w.actors[k]? with
    | none => rfl
    | some a =>
      simp only [Option.elim_some, hmarks]
      cases f w.surroundings a <;> rfl
  · rfl

end Stepping

/-- A move in which a manager acts is one deed of that manager, which sends what is on the record of
the deed, and nothing passes another. -/
theorem acting_step (h : m.actor? = some k) (w : Limiter) :
    ∃ d, m.deed? w.surroundings = some d ∧ (w.step m).1.core = (w.live k [d]).core ∧
      (senders (w.step m).2 =
        ((w.actors[k]?).elim [] fun a => sentIn (a.marks d)).map (.manager k)) ∧
      ∀ i, w.passages m i =
        if i = k then (w.actors[k]?).elim [] fun a => a.marks d else [] := by
  -- a deed in which nothing is sent
  have silent {d : Deed} (hnone : ∀ a : Actor, sentIn (a.marks d) = []) :
      [] = ((w.actors[k]?).elim [] fun a => sentIn (a.marks d)).map (Sender.manager k) := by
    cases w.actors[k]? with
    | none => rfl
    | some a => rw [Option.elim_some, hnone]; rfl
  cases m with
  | command j =>
    obtain rfl := Option.some.inj h
    have hcore : (w.step (.command j)).1.core = (w.live j [.command w.surroundings]).core :=
      core_withActor (fun a => rfl) j
    have hmarks (a : Actor) : a.marks (.command w.surroundings) =
        (a.command w.surroundings).elim [] fun step => (sends step.outputs).map .sent := rfl
    exact ⟨.command w.surroundings, rfl, hcore, senders_stepping w j hmarks,
      passages_stepping id rfl hcore (fun _ => rfl) hmarks⟩
  | signal j =>
    obtain rfl := Option.some.inj h
    have hcore : (w.step (.signal j)).1.core = (w.live j [.signal w.surroundings]).core :=
      core_withActor (fun a => rfl) j
    have hmarks (a : Actor) : a.marks (.signal w.surroundings) =
        (a.signal w.surroundings).elim [] fun step => (sends step.outputs).map .sent := rfl
    exact ⟨.signal w.surroundings, rfl, hcore, senders_stepping w j hmarks,
      passages_stepping id rfl hcore (fun _ => rfl) hmarks⟩
  | ring j =>
    obtain rfl := Option.some.inj h
    have hcore : (w.step (.ring j)).1.core = (w.live j [.ring w.now]).core :=
      core_updateActor (fun a => rfl) w j
    refine ⟨.ring w.now, rfl, hcore, silent fun _ => rfl, ?_⟩
    intro i
    unfold passages
    rw [arrivals_of_acting (d := .ring w.now) id hcore]
    cases w.actors[j]? with
    | none => exact (ite_self _).symm
    | some a => exact (ite_self _).symm
  | returned j id result =>
    obtain rfl := Option.some.inj h
    have hcore : (w.step (.returned j id result)).1.core = (w.live j [.returned id result]).core :=
      core_updateActor (fun a => rfl) w j
    refine ⟨.returned id result, rfl, hcore, silent ?_, ?_⟩
    · intro a
      simp only [marks]
      split <;> rfl
    · intro i
      unfold passages
      rw [arrivals_of_acting (d := .returned id result) (fun hfeeds => hfeeds) hcore]
      show w.comebacks i (.returned j id result) = _
      unfold comebacks
      by_cases hi : i = j
      · subst hi
        simp only [true_and, if_true]
        cases w.actors[i]? with
        | none => exact if_neg (List.not_mem_nil)
        | some a => rfl
      · simp only [Ne.symm hi, hi, false_and, if_false]
  | _ => cases h

/-! ## Every step, every run -/

/-- The manager that a place holds before a move, or the one that the move can put there. -/
def Before (w : Limiter) (i : Nat) (a : Actor) : Prop :=
  w.actors[i]? = some a ∨ w.actors[i]? = none ∧ ∃ name, a = Actor.new name

theorem deed_at {s : Surroundings} {d : Actor.Deed} (h : m.deed? s = some d) : d.At s := by
  cases m <;> cases h <;> first | rfl | trivial

/-- A manager handles a message in the surroundings of its limiter. -/
theorem surroundings_of_deed {d : Actor.Deed} (h : m.deed? w.surroundings = some d)
    {s : Surroundings} (hs : d = .command s ∨ d = .signal s) : s = w.surroundings := by
  have hat := deed_at h
  rcases hs with rfl | rfl <;> exact hat

/-- What enters the mailbox of a fed manager is on the record, and was handed to it. -/
theorem arrivals_of_feeding {a : Actor} {ds : List Actor.Deed} (hbefore : w.Before i a)
    (hds : ∀ d ∈ ds, d.Feeds) (hafter : v.actors[i]? = some (a.live ds)) :
    (w.arrivals v i).map .entered = a.record ds ∧
      (w.arrivals v i).Sublist ((Actor.queuedBy ds).map (·.id)) := by
  obtain ⟨cs, connected, hlive, hrecord, hsub, -⟩ := Actor.live_of_feeds hds a
  have hmailbox : w.mailbox i = a.mailbox := by
    unfold mailbox
    rcases hbefore with ha | ⟨ha, name, rfl⟩ <;> rw [ha] <;> rfl
  have hlater : v.mailbox i = a.mailbox ++ cs := by
    unfold mailbox
    rw [hafter, hlive]
    rfl
  unfold arrivals
  rw [hmailbox, hlater, List.drop_left, hrecord, List.map_map]
  exact ⟨rfl, hsub.map _⟩

theorem passages_of_feeding (hm : m.actor? = none) :
    w.passages m i = (w.arrivals (w.step m).1 i).map .entered := by
  have hcomebacks : w.comebacks i m = [] := by
    cases m <;> first | rfl | cases hm
  unfold passages
  rw [sentBy_of_feeding hm, hcomebacks]
  exact List.append_nil _

theorem not_feeds_of_deed? {s : Surroundings} {d : Actor.Deed} (h : m.deed? s = some d) :
    ¬ d.Feeds := by
  cases m <;> cases h <;> exact id

/-- A request enters the mailbox of a manager only if the move hands it to that manager. -/
theorem arrivals_sublist (w : Limiter) (m : Move) (i : Nat) :
    (w.arrivals (w.step m).1 i).Sublist ((w.handed m i).map (·.id)) := by
  cases hm : m.actor? with
  | some k =>
    obtain ⟨d, hd, hcore, -⟩ := acting_step hm w
    rw [arrivals_of_acting (not_feeds_of_deed? hd) hcore]
    exact List.nil_sublist _
  | none =>
    have hfed := (feeding_step hm w).1 i
    cases hx : w.actors[i]? with
    | none =>
      generalize hy : (w.step m).1.actors[i]? = y
      rw [hx, hy] at hfed
      cases hfed with
      | absent =>
        rw [arrivals_of_length_le (by unfold mailbox; rw [hy]; exact Nat.zero_le _)]
        exact List.nil_sublist _
      | made name hreply hds =>
        exact (arrivals_of_feeding (.inr ⟨hx, name, rfl⟩) hds.feeds hy).2.trans
          (hds.queued.map _)
    | some a =>
      generalize hy : (w.step m).1.actors[i]? = y
      rw [hx, hy] at hfed
      cases hfed with
      | kept _ hds =>
        exact (arrivals_of_feeding (.inl hx) hds.feeds hy).2.trans (hds.queued.map _)

/-- The deeds of a manager in a move: what others do to it, or the one deed in which it acts. -/
def Does (w : Limiter) (m : Move) (i : Nat) (ds : List Actor.Deed) : Prop :=
  (∀ d ∈ ds, d.Feeds) ∨
    m.actor? = some i ∧ ∃ d, m.deed? w.surroundings = some d ∧ ds = [d]

/-- Whatever a move does to a manager, the manager has gone through some deeds, and what passed it
is on their record. -/
theorem step_lives (w : Limiter) (m : Move) (i : Nat) {b : Actor}
    (hb : (w.step m).1.actors[i]? = some b) :
    ∃ a ds, w.Before i a ∧ w.Does m i ds ∧ b = a.live ds ∧ w.passages m i = a.record ds := by
  cases hm : m.actor? with
  | none =>
    have hfed := (feeding_step hm w).1 i
    rw [hb] at hfed
    cases hx : w.actors[i]? with
    | none =>
      rw [hx] at hfed
      cases hfed with
      | @made name ds hreply hds =>
        have hbefore : w.Before i (.new name) := .inr ⟨hx, name, rfl⟩
        refine ⟨_, ds, hbefore, .inl hds.feeds, rfl, ?_⟩
        exact (passages_of_feeding hm).trans (arrivals_of_feeding hbefore hds.feeds hb).1
    | some a =>
      rw [hx] at hfed
      cases hfed with
      | @kept _ ds hds =>
        have hbefore : w.Before i a := .inl hx
        refine ⟨a, ds, hbefore, .inl hds.feeds, rfl, ?_⟩
        exact (passages_of_feeding hm).trans (arrivals_of_feeding hbefore hds.feeds hb).1
  | some k =>
    obtain ⟨d, hd, hcore, -, hpassages⟩ := acting_step hm w
    rw [actors_of_core hcore, getElem?_live, Option.map_eq_some_iff] at hb
    obtain ⟨a, ha, rfl⟩ := hb
    have hp := hpassages i
    by_cases hik : k = i
    · subst hik
      rw [if_pos rfl, ha] at hp
      refine ⟨a, [d], .inl ha, .inr ⟨hm, d, hd, rfl⟩, if_pos rfl, ?_⟩
      exact hp.trans (List.append_nil _).symm
    · rw [if_neg (Ne.symm hik)] at hp
      exact ⟨a, [], .inl ha, .inl (List.forall_mem_nil _), if_neg hik, hp⟩

/-- What a move makes of the manager at a place. Only the reply of a probe makes a manager, and only
such a reply is written to a mailbox as one. -/
inductive Touch (w : Limiter) (m : Move) (i : Nat) : Actor → Prop where
  | fed {a : Actor} (ha : w.actors[i]? = some a) (hm : m.actor? ≠ some i) (cs : List Command)
      (connected : Bool) (hseeds : ∀ reply, .seed reply ∈ cs → m.probeReply? = some reply) :
      Touch w m i { a with mailbox := a.mailbox ++ cs, connected }
  | made (name : PolicyName) (hnone : w.actors[i]? = none) (hm : m.probeReply? ≠ none)
      (cs : List Command) (connected : Bool)
      (hseeds : ∀ reply, .seed reply ∈ cs → m.probeReply? = some reply) :
      Touch w m i { Actor.new name with mailbox := cs, connected }
  | acted {a : Actor} {d : Deed} (ha : w.actors[i]? = some a) (hm : m.actor? = some i)
      (hd : m.deed? w.surroundings = some d) : Touch w m i (a.undergo d)

theorem step_touches (w : Limiter) (m : Move) (i : Nat) {b : Actor}
    (hb : (w.step m).1.actors[i]? = some b) : Touch w m i b := by
  cases hm : m.actor? with
  | none =>
    have hother : m.actor? ≠ some i := by
      rw [hm]
      nofun
    have hfed := (feeding_step hm w).1 i
    rw [hb] at hfed
    generalize hx : w.actors[i]? = x at hfed
    cases hfed with
    | kept a hds =>
      obtain ⟨cs, connected, hlive, -, -, hposted⟩ := live_of_feeds hds.feeds a
      rw [hlive]
      exact .fed hx hother cs connected fun reply hmem => hds.seeded reply (hposted _ hmem)
    | made name hreply hds =>
      obtain ⟨cs, connected, hlive, -, -, hposted⟩ := live_of_feeds hds.feeds (Actor.new name)
      rw [hlive]
      exact .made name hx hreply cs connected fun reply hmem => hds.seeded reply (hposted _ hmem)
  | some k =>
    obtain ⟨d, hd, hcore, -⟩ := acting_step hm w
    rw [actors_of_core hcore, getElem?_live, Option.map_eq_some_iff] at hb
    obtain ⟨a, ha, rfl⟩ := hb
    by_cases hik : k = i
    · rw [if_pos hik]
      exact .acted ha (hik ▸ hm) hd
    · rw [if_neg hik]
      have hother : m.actor? ≠ some i := by
        rw [hm]
        exact fun heq => hik (Option.some.inj heq)
      have hfed := Touch.fed ha hother [] a.connected fun _ h => nomatch h
      rwa [List.append_nil] at hfed

/-- A manager that is there stays there. -/
theorem step_keeps (w : Limiter) (m : Move) {a : Actor} (ha : w.actors[i]? = some a) :
    ∃ b, (w.step m).1.actors[i]? = some b := by
  cases hm : m.actor? with
  | none =>
    have hfed := (feeding_step hm w).1 i
    rw [ha] at hfed
    generalize hy : (w.step m).1.actors[i]? = y at hfed
    cases hfed with
    | kept _ hds => exact ⟨_, rfl⟩
  | some k =>
    obtain ⟨d, -, hcore, -⟩ := acting_step hm w
    rw [actors_of_core hcore, getElem?_live, ha]
    exact ⟨_, rfl⟩

/-- Only the reply of a probe makes a manager. -/
theorem step_makes_none (hm : m.probeReply? = none) (hnone : w.actors[i]? = none) :
    (w.step m).1.actors[i]? = none := by
  cases hb : (w.step m).1.actors[i]? with
  | none => rfl
  | some b =>
    cases step_touches w m i hb with
    | fed ha hother cs connected hseeds => exact nomatch hnone.symm.trans ha
    | made name hfree hreply cs connected => exact absurd hm hreply
    | acted ha hacts hd => exact nomatch hnone.symm.trans ha

/-- Nothing passes a manager that is not there. -/
theorem passages_of_none (h : (w.step m).1.actors[i]? = none) : w.passages m i = [] := by
  cases hm : m.actor? with
  | none =>
    rw [passages_of_feeding hm, arrivals_of_length_le]
    · rfl
    · unfold mailbox
      rw [h]
      exact Nat.zero_le _
  | some k =>
    obtain ⟨d, -, hcore, -, hpassages⟩ := acting_step hm w
    rw [actors_of_core hcore, getElem?_live, Option.map_eq_none_iff] at h
    rw [hpassages i]
    split
    · rename_i hik
      subst hik
      rw [h]
      rfl
    · rfl

theorem enteredIn_passages (w : Limiter) (m : Move) (i : Nat) :
    enteredIn (w.passages m i) = w.arrivals (w.step m).1 i := by
  have hcomebacks : enteredIn (w.comebacks i m) = [] := by
    unfold comebacks
    split
    · split <;> rfl
    · rfl
  unfold passages
  rw [enteredIn_append, enteredIn_append, hcomebacks, enteredIn_entered, enteredIn_sent]
  exact List.append_nil _

theorem sentIn_passages (w : Limiter) (m : Move) (i : Nat) :
    sentIn (w.passages m i) = sentBy i (w.step m).2 := by
  have hcomebacks : sentIn (w.comebacks i m) = [] := by
    unfold comebacks
    split
    · split <;> rfl
    · rfl
  unfold passages
  rw [sentIn_append, sentIn_append, hcomebacks, sentIn_entered, sentIn_sent]
  exact List.append_nil _

/-- Only the manager that acts in a move sends something. -/
theorem sentBy_of_other (h : m.actor? ≠ some i) : sentBy i (w.step m).2 = [] := by
  cases hm : m.actor? with
  | none => exact sentBy_of_feeding hm w i
  | some k =>
    obtain ⟨d, -, -, hsenders, -⟩ := acting_step hm w
    rw [sentBy_of_senders hsenders]
    exact if_neg fun hik => h (hm.trans (congrArg some hik.symm))

/-- What a manager sends in a move is on the record of its deed. -/
theorem mark_of_sentBy {id : Nat} (ha : w.actors[i]? = some a)
    (hsent : id ∈ sentBy i (w.step m).2) :
    m.actor? = some i ∧ ∃ d, m.deed? w.surroundings = some d ∧ id ∈ sentIn (a.marks d) := by
  have hm : m.actor? = some i := by
    by_contra hother
    rw [sentBy_of_other hother] at hsent
    cases hsent
  obtain ⟨d, hd, -, -, hpassages⟩ := acting_step hm w
  have hpassed := hpassages i
  rw [if_pos rfl, ha] at hpassed
  rw [← sentIn_passages, hpassed] at hsent
  exact ⟨hm, d, hd, hsent⟩

/-- A limiter after some moves. -/
def after (w : Limiter) (ms : List Move) : Limiter := (w.run ms).1

@[simp] theorem after_nil (w : Limiter) : w.after [] = w := rfl

@[simp] theorem after_cons (w : Limiter) (m : Move) (ms : List Move) :
    w.after (m :: ms) = (w.step m).1.after ms := rfl

theorem after_append (w : Limiter) (ms ns : List Move) :
    w.after (ms ++ ns) = (w.after ms).after ns := by
  induction ms generalizing w with
  | nil => rfl
  | cons m ms ih => exact ih _

/-- What passes a manager in some moves. -/
def passagesOver (w : Limiter) (i : Nat) : List Move → List Actor.Mark
  | [] => []
  | m :: ms => w.passages m i ++ (w.step m).1.passagesOver i ms

theorem passagesOver_append (w : Limiter) (i : Nat) (ms ns : List Move) :
    w.passagesOver i (ms ++ ns) = w.passagesOver i ms ++ (w.after ms).passagesOver i ns := by
  induction ms generalizing w with
  | nil => rfl
  | cons m ms ih => simp [passagesOver, ih]

/-- Nothing has ever passed a manager that is not there. -/
theorem passagesOver_of_none {ms : List Move} (h : (w.after ms).actors[i]? = none) :
    w.passagesOver i ms = [] := by
  induction ms using List.reverseRecOn with
  | nil => rfl
  | append_singleton ms m ih =>
    rw [after_append] at h
    have hbefore : (w.after ms).actors[i]? = none := by
      cases ha : (w.after ms).actors[i]? with
      | none => rfl
      | some a =>
        obtain ⟨b, hb⟩ := step_keeps (w.after ms) m ha
        exact absurd (hb.symm.trans h) nofun
    rw [passagesOver_append, ih hbefore]
    exact (List.append_nil _).trans (passages_of_none h)

/-- Every manager of a run that began without managers has had a life, and what passed it is on
the record of that life. -/
theorem run_lives (hw : w.actors = []) (ms : List Move) {b : Actor}
    (hb : (w.after ms).actors[i]? = some b) :
    ∃ name ds, b = (Actor.new name).live ds ∧ w.passagesOver i ms = (Actor.new name).record ds := by
  induction ms using List.reverseRecOn generalizing b with
  | nil =>
    rw [after_nil, hw] at hb
    cases hb
  | append_singleton ms m ih =>
    rw [after_append] at hb
    obtain ⟨a, ds, hbefore, -, rfl, hpassages⟩ := step_lives (w.after ms) m i hb
    have hsnoc : w.passagesOver i (ms ++ [m]) = w.passagesOver i ms ++ a.record ds := by
      rw [passagesOver_append, ← hpassages]
      exact congrArg _ (List.append_nil _)
    rcases hbefore with ha | ⟨hnone, name, rfl⟩
    · obtain ⟨name, es, rfl, hover⟩ := ih ha
      refine ⟨name, es ++ ds, (Actor.live_append _ es ds).symm, ?_⟩
      rw [hsnoc, hover, Actor.record_append]
    · refine ⟨name, ds, rfl, ?_⟩
      rw [hsnoc, passagesOver_of_none hnone]
      rfl

end Limiter

end Throttle
