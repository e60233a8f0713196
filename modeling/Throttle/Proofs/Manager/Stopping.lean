import Throttle.Proofs.Manager.Breakdown
import Throttle.Proofs.Manager.Restriction
import Throttle.Proofs.Manager.Sending

/-!
  The end of an actor, over its life. With its last command it fails all that it holds but the
  request under way (`Stops.results_eq`), and it sends nothing from then on (`silent_of_ended`). For
  the request under way it waits until the transmission has come back: `Expects`, then `HasBack`, and
  when the signals ahead of the reply are handled, `HasGiven`. A reply is that of the request under
  way (`cameBack_of_reply`), and there is only one (`CameBack.unique`). What an actor holds and what
  it has given results to was handed to it once each (`live_balance`).
-/

namespace Throttle

open Http

namespace Actor

variable {s : Surroundings} {a b : Actor} {d : Deed} {ds es : List Deed} {p : Pending} {m : Manager}
  {r : Except TransportFailure Reply} {id n : Nat} {name : PolicyName}

/-! ## Results -/

/-- The results that an actor gives with a deed. -/
def results (a : Actor) : Deed → List (Nat × Except Failure Reply)
  | .command s => (a.command s).elim [] fun step => answers step.outputs
  | .signal s => (a.signal s).elim [] fun step => answers step.outputs
  | _ => []

/-- The results that an actor gives with some deeds, in order. -/
def resultsOver (a : Actor) : List Deed → List (Nat × Except Failure Reply)
  | [] => []
  | d :: ds => a.results d ++ (a.undergo d).resultsOver ds

theorem resultsOver_append (a : Actor) (ds es : List Deed) :
    a.resultsOver (ds ++ es) = a.resultsOver ds ++ (a.live ds).resultsOver es := by
  induction ds generalizing a with
  | nil => rfl
  | cons d ds ih => simp [resultsOver, ih]

theorem resultsOver_snoc (a : Actor) (ds : List Deed) (d : Deed) :
    a.resultsOver (ds ++ [d]) = a.resultsOver ds ++ (a.live ds).results d := by
  rw [resultsOver_append]
  exact congrArg _ (List.append_nil _)

/-- How often an actor gives a request a result. -/
def resolutions (a : Actor) (ds : List Deed) (id : Nat) : Nat :=
  ((a.resultsOver ds).map (·.1)).count id

theorem answers_sublist_ends (os : List Output) : ((answers os).map (·.1)).Sublist (ends os) := by
  induction os with
  | nil => exact .slnil
  | cons o os ih =>
    unfold answers ends at ih ⊢
    cases o with
    | answer id result => exact ih.cons_cons id
    | notice n =>
      rw [List.filterMap_cons_none rfl, List.filterMap_cons]
      split
      · exact ih
      · exact ih.cons _
    | _ => exact ih

theorem Course.balance {step : Step} (h : Course s a step) (hstage : step.actor.stage ≠ .failed)
    (id : Nat) :
    step.actor.custody.count id + ((answers step.outputs).map (·.1)).count id ≤
      a.custody.count id := by
  have hcount := (h.accounts hstage).2.balance.count_eq id
  have hle := (answers_sublist_ends step.outputs).count_le id
  rw [List.count_append] at hcount
  omega

/-- A message that need not come leaves the balance as it is when it does not. -/
theorem elim_balance {step? : Option Step} (h : ∀ step, step? = some step → Course s a step)
    (hstage : (step?.elim a (·.actor)).stage ≠ .failed) (id : Nat) :
    (step?.elim a (·.actor)).custody.count id +
        ((step?.elim [] fun step => answers step.outputs).map (·.1)).count id ≤
      a.custody.count id := by
  cases step? with
  | none => exact Nat.le_refl _
  | some step => exact (h step rfl).balance hstage id

/-- What an actor holds after a deed and what it gives a result with it, it held before, or it is
handed to it. -/
theorem undergo_balance (hstage : (a.undergo d).stage ≠ .failed) (id : Nat) :
    (a.undergo d).custody.count id + ((a.results d).map (·.1)).count id ≤
      a.custody.count id + (enteredIn (a.marks d)).count id := by
  cases d with
  | post c =>
    by_cases hopen : a.isOpen
    · simp only [undergo, marks, results, if_pos hopen] at hstage ⊢
      have hpost : (a.post c).custody = a.custody ++ (queuedIn [c]).map (·.id) := by
        rw [custody_eq, custody_eq, List.append_assoc, ← List.map_append, ← queuedIn_append]
        rfl
      have hmarks : (queuedIn [c]).map (fun p => Mark.entered p.id) =
          ((queuedIn [c]).map (·.id)).map .entered := List.map_map.symm
      rw [hpost, hmarks, enteredIn_entered, List.count_append]
      exact Nat.le_refl _
    · simp only [undergo, marks, results, if_neg hopen]
      exact Nat.le_refl _
  | command s =>
    simp only [undergo, results] at hstage ⊢
    exact Nat.le_trans (elim_balance (fun step => command_course) hstage id) (Nat.le_add_right _ _)
  | signal s =>
    simp only [undergo, results] at hstage ⊢
    exact Nat.le_trans (elim_balance (fun step => signal_course) hstage id) (Nat.le_add_right _ _)
  | ring now =>
    have hsame : (a.undergo (.ring now)).custody = a.custody := by
      simp only [undergo, ring]
      cases a.alarm.filter fun x => decide (x.due ≤ now) <;> rfl
    rw [hsame]
    exact Nat.le_add_right _ _
  | returned id result =>
    have hsame : (a.undergo (.returned id result)).custody = a.custody := by
      simp only [undergo, returned]
      split <;> rfl
    rw [hsame]
    exact Nat.le_add_right _ _
  | disconnect => exact Nat.le_refl _

/-- What an actor holds in the end and what it has given results to was handed to it. -/
theorem live_balance (hstage : (a.live ds).stage ≠ .failed) (id : Nat) :
    (a.live ds).custody.count id + a.resolutions ds id ≤
      a.custody.count id + (enteredIn (a.record ds)).count id := by
  induction ds generalizing a with
  | nil => exact Nat.le_refl _
  | cons d ds ih =>
    have hfirst := undergo_balance (a := a) (d := d) (fun hfailed =>
      hstage ((live_of_over (.inl hfailed) ds).1.trans hfailed)) id
    have hrest := ih hstage
    rw [live_cons, record, enteredIn_append, List.count_append]
    unfold resolutions at hrest ⊢
    rw [resultsOver, List.map_append, List.count_append]
    omega

/-- Whoever is handed to a new actor once gets at most one result, and none while it is held. -/
theorem balance_new (hstage : ((new name).live ds).stage ≠ .failed)
    (hapart : (enteredIn ((new name).record ds)).Nodup) (id : Nat) :
    ((new name).live ds).custody.count id + (new name).resolutions ds id ≤ 1 := by
  have hbalance := live_balance hstage id
  have hnone : (new name).custody.count id = 0 := rfl
  have hone := List.nodup_iff_count.1 hapart id
  omega

/-! ## The last command -/

/-- The next thing that an actor does is to stop: it is told to, or nobody can write to it any more
and all commands are handled. -/
structure Stops (a : Actor) : Prop where
  running : a.stage = .running
  told : (∃ rest, a.mailbox = .shutdown :: rest) ∨ a.mailbox = [] ∧ a.connected = false

/-- A request that an actor holds, and that is not under way. -/
inductive Waiting (a : Actor) (p : Pending) : Prop where
  | queued (h : p ∈ a.manager.queue)
  /-- It leaves when the alarm goes off. -/
  | scheduled {t : Moment} (hphase : a.manager.phase = .activating t)
      (h : a.manager.active = some p)
  /-- It was refused, and leaves again when the alarm goes off. -/
  | refused {t : Moment} (hphase : a.manager.phase = .violationWait t)
      (h : a.manager.active = some p)
  | unread (h : .queue p ∈ a.mailbox)

/-- The request that an actor has under way. -/
structure UnderWay (a : Actor) (p : Pending) : Prop where
  sending : a.manager.phase = .sending
  active : a.manager.active = some p

theorem mem_queuedIn {cs : List Command} : p ∈ queuedIn cs ↔ .queue p ∈ cs := by
  unfold queuedIn
  rw [List.mem_filterMap]
  constructor
  · rintro ⟨c, hc, heq⟩
    cases c <;> cases heq
    exact hc
  · exact fun h => ⟨_, h, rfl⟩

theorem Waiting.mem (h : a.Waiting p) : p ∈ a.manager.unsent ++ queuedIn a.mailbox := by
  -- the active request fails unless it is under way
  have active {phase : Phase} (hphase : a.manager.phase = phase) (hne : phase ≠ .sending)
      (hactive : a.manager.active = some p) : p ∈ a.manager.unsent := by
    have hidle : a.manager.inFlight = false := by
      unfold Manager.inFlight
      rw [hphase, beq_eq_false_iff_ne.2 hne, Bool.false_and]
    unfold Manager.unsent
    rw [hidle, hactive]
    exact .head _
  cases h with
  | queued h => exact List.mem_append_left _ (List.mem_append_right _ h)
  | scheduled hphase h => exact List.mem_append_left _ (active hphase nofun h)
  | refused hphase h => exact List.mem_append_left _ (active hphase nofun h)
  | unread h => exact List.mem_append_right _ (mem_queuedIn.2 h)

theorem UnderWay.inFlight (h : a.UnderWay p) : a.manager.inFlight = true := by
  unfold Manager.inFlight
  rw [h.sending, h.active]
  rfl

theorem Stops.command_eq (h : a.Stops) (s : Surroundings) : a.command s = some a.close := by
  unfold command
  rw [if_neg fun hne => hne h.running]
  rcases h.told with ⟨rest, hmailbox⟩ | ⟨hmailbox, hconnected⟩
  · rw [hmailbox]
    dsimp only
    unfold close
    rw [hmailbox]
    rfl
  · rw [hmailbox]
    dsimp only
    rw [hconnected]
    rfl

/-- The actor after its last command. -/
theorem Stops.undergo_eq (h : a.Stops) (s : Surroundings) :
    a.undergo (.command s) =
      a.deaf.after (if a.manager.inFlight then .closing else .stopped) a.manager.ending
        (a.manager.close (queuedIn a.mailbox)).outputs := by
  simp only [undergo, h.command_eq, Option.elim_some, close_eq]

/-- The last command fails what the actor holds but the request under way, in its order. -/
theorem Stops.results_eq (h : a.Stops) (s : Surroundings) :
    a.results (.command s) =
      (a.manager.unsent ++ queuedIn a.mailbox).map fun p => (p.id, .error .shutdown) := by
  simp only [results, h.command_eq, Option.elim_some, close_eq, Manager.close_answers]

theorem Stops.ends (h : a.Stops) (s : Surroundings) :
    (a.undergo (.command s)).stage ≠ .running ∧ (a.undergo (.command s)).stage ≠ .failed := by
  rw [h.undergo_eq, after_stage]
  split <;> exact ⟨nofun, nofun⟩

/-! ## Afterwards -/

/-- An actor that does not run will not run again. -/
theorem undergo_of_ended (h : a.stage ≠ .running) (d : Deed) : (a.undergo d).stage ≠ .running :=
  fun hstage => h ((undergo_change a d).takes hstage).1

theorem live_of_ended (h : a.stage ≠ .running) (es : List Deed) : (a.live es).stage ≠ .running := by
  induction es generalizing a with
  | nil => exact h
  | cons d es ih => exact ih (undergo_of_ended h d)

/-- An actor sends nothing with a deed after which it does not run. -/
theorem silent_of_ended (hlife : ∃ now, Sound now a) (h : (a.undergo d).stage ≠ .running) :
    sentIn (a.marks d) = [] := by
  obtain ⟨now, hsound⟩ := hlife
  refine List.eq_nil_iff_forall_not_mem.2 fun id hid => ?_
  exact h ((undergo_change a d).sends_due hsound hid).2.1

theorem silent_after (h : a.stage ≠ .running) (es : List Deed) : sentIn (a.record es) = [] := by
  induction es generalizing a with
  | nil => rfl
  | cons d es ih =>
    have hlater := undergo_of_ended h d
    rw [record, sentIn_append, silent_of_ended ⟨0, sound_of_ended h⟩ hlater, ih hlater]
    rfl

/-! ## Transmissions that have come back -/

/-- The transmission of a request has come to an end, and its actor has sent nothing since. -/
def CameBack (a : Actor) (ds : List Deed) (id : Nat) (r : Except TransportFailure Reply) : Prop :=
  ∃ front back, ds = front ++ .returned id r :: back ∧ id ∈ (a.live front).outstanding ∧
    sentIn ((a.live (front ++ [.returned id r])).record back) = []

theorem cameBack_returned (h : id ∈ (a.live ds).outstanding) (r : Except TransportFailure Reply) :
    a.CameBack (ds ++ [.returned id r]) id r :=
  ⟨ds, [], rfl, h, rfl⟩

theorem CameBack.append (h : a.CameBack ds id r) (hnone : sentIn ((a.live ds).record es) = []) :
    a.CameBack (ds ++ es) id r := by
  obtain ⟨front, back, rfl, hout, hsilent⟩ := h
  refine ⟨front, back ++ es, by simp, hout, ?_⟩
  rw [record_append, sentIn_append, hsilent, ← live_append]
  simpa using hnone

theorem CameBack.snoc (h : a.CameBack ds id r) (hnone : sentIn ((a.live ds).marks d) = []) :
    a.CameBack (ds ++ [d]) id r := by
  refine h.append ?_
  rw [record, sentIn_append, hnone]
  rfl

/-- While it runs the phase says how many transmissions it has, and afterwards it sends nothing. -/
theorem Change.length_outstanding_le {now : Moment} {ns : List Mark} (hc : Change a d b ns)
    (hs : Sound now a) (hle : a.outstanding.length ≤ 1) (hring : ∀ t, d = .ring t → t ≤ now) :
    b.outstanding.length ≤ 1 := by
  by_cases hback : ∃ id result, d = .returned id result
  · obtain ⟨id, result, rfl⟩ := hback
    cases hc with
    | none d hseeds => exact hle
    | returned result hid => exact Nat.le_trans (List.erase_sublist.length_le) hle
  · by_cases hstage : b.stage = .running
    · obtain ⟨-, -, hcount, -⟩ := ((hc.sound hs hring).wired hstage).counts
      split at hcount <;> omega
    · have hnone : sentIn ns = [] := by
        refine List.eq_nil_iff_forall_not_mem.2 fun id hid => ?_
        exact hstage (hc.sends_due hs hid).2.1
      rw [hc.outstanding_eq fun id result heq => hback ⟨id, result, heq⟩, hnone, List.append_nil]
      exact hle

/-- An actor has one transmission at a time. -/
theorem length_outstanding_le (name : PolicyName) (ds : List Deed) :
    ((new name).live ds).outstanding.length ≤ 1 := by
  obtain ⟨now, -, hle⟩ := @live_induction (fun now a _ => Sound now a ∧ a.outstanding.length ≤ 1)
    (fun h hle => ⟨h.1.mono hle, h.2⟩)
    (fun h hc hring => ⟨hc.sound h.1 hring, hc.length_outstanding_le h.1 h.2 hring⟩)
    0 (new name) [] ⟨sound_new 0 name, Nat.zero_le 1⟩ ds
  exact hle

/-- As long as an actor sends nothing, it has nothing new under way. -/
theorem outstanding_of_silent (hnone : a.outstanding = []) (hsilent : sentIn (a.record es) = []) :
    (a.live es).outstanding = [] := by
  induction es generalizing a with
  | nil => exact hnone
  | cons d es ih =>
    rw [record, sentIn_append, List.append_eq_nil_iff] at hsilent
    refine ih ?_ hsilent.2
    by_cases hback : ∃ id result, d = .returned id result
    · obtain ⟨id, result, rfl⟩ := hback
      have hsame : a.returned id result = none := if_neg (by rw [hnone]; exact List.not_mem_nil)
      simp only [undergo, hsame, Option.getD_none]
      exact hnone
    · rw [(undergo_change a d).outstanding_eq fun id result heq => hback ⟨id, result, heq⟩, hnone,
        hsilent.1]
      rfl

/-- When the transmission has come back, nothing is under way. -/
theorem CameBack.outstanding_eq (h : (new name).CameBack ds id r) :
    ((new name).live ds).outstanding = [] := by
  obtain ⟨front, back, rfl, hout, hsilent⟩ := h
  have hone := length_outstanding_le name front
  have hsole : ((new name).live front).outstanding = [id] := by
    generalize ((new name).live front).outstanding = l at hout hone
    match l, hout, hone with
    | [x], hout, _ => rw [List.mem_singleton.1 hout]
  have hback : ((new name).live (front ++ [.returned id r])).outstanding = [] := by
    rw [live_append, live_cons, live_nil]
    simp only [undergo, returned, if_pos hout, Option.getD_some]
    rw [hsole, List.erase_cons_head]
  have hlater := outstanding_of_silent hback hsilent
  rw [← live_append] at hlater
  simpa using hlater

/-- A transmission comes back once. -/
theorem CameBack.unique {r' : Except TransportFailure Reply} (h : (new name).CameBack ds id r)
    (h' : (new name).CameBack ds id r') : r = r' := by
  -- of two returns, the later one has no transmission to end
  have later {front back front' back' : List Deed} {r r' : Except TransportFailure Reply}
      {c : List Deed} (hout : id ∈ ((new name).live front).outstanding)
      (hsilent : sentIn (((new name).live (front ++ [.returned id r])).record back) = [])
      (hout' : id ∈ ((new name).live front').outstanding) (hfront : front' = front ++ c)
      (hback : .returned id r :: back = c ++ .returned id r' :: back') : r = r' := by
    cases c with
    | nil => cases hback; rfl
    | cons x c =>
      rw [List.cons_append, List.cons_eq_cons] at hback
      obtain ⟨rfl, rfl⟩ := hback
      rw [record_append, sentIn_append, List.append_eq_nil_iff] at hsilent
      have hcame : (new name).CameBack front' id r := ⟨front, c, hfront, hout, hsilent.1⟩
      rw [hcame.outstanding_eq] at hout'
      cases hout'
  obtain ⟨front, back, rfl, hout, hsilent⟩ := h
  obtain ⟨front', back', heq, hout', hsilent'⟩ := h'
  rcases List.append_eq_append_iff.1 heq with ⟨c, hfront, hback⟩ | ⟨c, hfront, hback⟩
  · exact later hout hsilent hout' hfront hback
  · exact (later hout' hsilent' hout hfront hback).symm

/-- A message that an actor handles while a reply is left in its inbox changes nothing about the
request under way. -/
theorem Advance.keeps_active {os : List Output} {now : Moment} (h : Advance s a b os)
    (hstage : b.stage = .running) (hs : Sound now a) (hsending : b.manager.phase = .sending)
    (hr : .reply r ∈ b.inbox) :
    a.stage = .running ∧ .reply r ∈ a.inbox ∧ b.manager.active = a.manager.active ∧
      sends os = [] := by
  obtain ⟨hbefore, msg, c, m', htakes, hhandled, rfl⟩ := h.running hstage
  have hold : .reply r ∈ a.inbox := by
    rw [htakes.inbox_eq]
    exact List.mem_append_right _ hr
  have hother (result : Except TransportFailure Reply) : msg ≠ .reply result := by
    rintro rfl
    have hwired := hs.wired hbefore
    rw [htakes.inbox_eq] at hwired
    obtain ⟨-, -, -, -, -, hnone⟩ := hwired.of_reply
    exact absurd hnone (Nat.ne_of_gt (replies_pos hr))
  have hsends := hhandled.sends_of_sending ((hs.coupled hbefore).expected r hold).1
  refine ⟨hbefore, hold, ?_, hsends⟩
  rcases hhandled.under_way (.inl hsending) with
    ⟨-, hactive, -⟩ | ⟨p, -, hsent, -⟩ | ⟨reply, t, hmsg, -⟩
  · exact hactive
  · exact nomatch hsends.symm.trans hsent
  · exact absurd hmsg (hother _)

/-- The reply in the inbox of a running actor is that to the request under way. -/
theorem cameBack_of_reply (hstage : ((new name).live ds).stage = .running)
    (hr : .reply r ∈ ((new name).live ds).inbox) :
    ∃ p, ((new name).live ds).UnderWay p ∧ (new name).CameBack ds p.id r := by
  induction ds using List.reverseRecOn with
  | nil => cases hr
  | append_singleton ds d ih =>
    obtain ⟨now, hsound⟩ := sound_live name ds
    obtain ⟨now', hsound'⟩ := sound_live name (ds ++ [d])
    have hexpected := (hsound'.coupled hstage).expected r hr
    rw [live_append, live_cons, live_nil] at hstage hr hexpected ⊢
    have hchange := undergo_change ((new name).live ds) d
    -- the reply was there before, the request stays, and nothing is sent
    have kept (hbefore : ((new name).live ds).stage = .running)
        (hold : .reply r ∈ ((new name).live ds).inbox)
        (hactive : (((new name).live ds).undergo d).manager.active =
          ((new name).live ds).manager.active)
        (hsilent : sentIn (((new name).live ds).marks d) = []) :
        ∃ p, (((new name).live ds).undergo d).UnderWay p ∧
          (new name).CameBack (ds ++ [d]) p.id r := by
      obtain ⟨p, hunder, hback⟩ := ih hbefore hold
      exact ⟨p, ⟨hexpected.1, hactive.trans hunder.active⟩, hback.snoc hsilent⟩
    generalize ((new name).live ds).marks d = ns at hchange kept
    generalize ((new name).live ds).undergo d = b at hchange kept hstage hr hexpected ⊢
    -- a message that is not the reply
    have handled {s : Surroundings} {os : List Output} (h : Advance s ((new name).live ds) b os)
        (hns : ns = (sends os).map .sent) :
        ∃ p, b.UnderWay p ∧ (new name).CameBack (ds ++ [d]) p.id r := by
      obtain ⟨hbefore, hold, hactive, hsends⟩ := h.keeps_active hstage hsound hexpected.1 hr
      exact kept hbefore hold hactive (by rw [hns, sentIn_sent, hsends])
    cases hchange with
    | none d hseeds => exact kept hstage hr rfl rfl
    | posted c hrunning => exact kept hrunning hr rfl (by cases c <;> rfl)
    | commanded h hinbox => exact handled h rfl
    | signaled h hmailbox => exact handled h rfl
    | rang halarm hdue =>
      rcases List.mem_append.1 hr with hold | hnew
      · exact kept hstage hold rfl rfl
      · cases List.mem_singleton.1 hnew
    | @returned id result hid =>
      rcases List.mem_append.1 hr with hold | hnew
      · exact kept hstage hold rfl rfl
      · cases List.mem_singleton.1 hnew
        obtain ⟨hsending, p, hactive, rfl⟩ := (hsound.wired hstage).of_outstanding hid
        exact ⟨p, ⟨hsending, hactive⟩, cameBack_returned hid r⟩
    | disconnected => exact kept hstage hr rfl rfl

/-! ## The last transmission -/

/-- What a deed makes of an actor that waits for the end of its last transmission. -/
inductive Parting (a : Actor) : Deed → Actor → Prop where
  | same (d : Deed) (connected : Bool) (hd : ∀ s, d = .signal s → a.inbox = []) :
      Parting a d { a with connected }
  | skipped {s : Surroundings} {generation : Nat} {rest : List Signal}
      (h : a.inbox = .fire generation :: rest) : Parting a (.signal s) { a with inbox := rest }
  | concluded {s : Surroundings} {r : Except TransportFailure Reply} {rest : List Signal}
      (h : a.inbox = .reply r :: rest)
      (hresults : a.results (.signal s) =
        a.manager.active.toList.map fun p => (p.id, a.manager.lastResult r)) :
      Parting a (.signal s)
        ({ a with inbox := rest }.after .stopped (a.manager.concluded r)
          (a.manager.conclude s r).outputs)
  | rang {now : Moment} (generation : Nat) :
      Parting a (.ring now) { a with alarm := none, inbox := a.inbox ++ [.fire generation] }
  | returned {id : Nat} (r : Except TransportFailure Reply) (h : id ∈ a.outstanding) :
      Parting a (.returned id r)
        { a with outstanding := a.outstanding.erase id, inbox := a.inbox ++ [.reply r] }

/-- It passes over the alarms and concludes with the reply. -/
theorem signal_of_closing (h : a.stage = .closing) (s : Surroundings) :
    Parting a (.signal s) (a.undergo (.signal s)) := by
  cases hinbox : a.inbox with
  | nil =>
    have hnone : a.signal s = none := by
      unfold signal
      rw [hinbox]
    simp only [undergo, hnone, Option.elim_none]
    exact .same _ a.connected fun _ _ => hinbox
  | cons x rest =>
    cases x with
    | fire generation =>
      have hsignal : a.signal s = some ⟨{ a with inbox := rest }, [], []⟩ := by
        unfold signal
        rw [hinbox, h]
      simp only [undergo, hsignal, Option.elim_some]
      exact .skipped hinbox
    | reply r =>
      have hsignal : a.signal s = some ({ a with inbox := rest }.finish .stopped []
          (a.manager.conclude s r)) := by
        unfold signal
        rw [hinbox, h]
      rw [conclude_eq] at hsignal
      have hresults : a.results (.signal s) =
          a.manager.active.toList.map fun p => (p.id, a.manager.lastResult r) := by
        simp only [results, hsignal, Option.elim_some]
        exact (Manager.conclude_yields s r a.manager).answers
      simp only [undergo, hsignal, Option.elim_some]
      exact .concluded hinbox hresults

theorem undergo_of_closing (h : a.stage = .closing) (d : Deed) : Parting a d (a.undergo d) := by
  have hended : a.stage ≠ .running := by
    rw [h]
    intro hrunning
    cases hrunning
  cases d with
  | post c =>
    have hsame : a.undergo (.post c) = a := if_neg fun hopen => hended (beq_iff_eq.1 hopen)
    rw [hsame]
    exact .same _ a.connected fun s hs => by cases hs
  | command s =>
    have hnone : a.command s = none := if_pos hended
    simp only [undergo, hnone, Option.elim_none]
    exact .same _ a.connected fun s hs => by cases hs
  | signal s => exact signal_of_closing h s
  | ring now =>
    simp only [undergo, ring]
    cases a.alarm.filter fun x => decide (x.due ≤ now) with
    | none => exact .same _ a.connected fun s hs => by cases hs
    | some x => exact .rang x.generation
  | returned id r =>
    simp only [undergo, returned]
    split
    · rename_i hid
      exact .returned r hid
    · exact .same _ a.connected fun s hs => by cases hs
  | disconnect => exact .same _ false fun s hs => by cases hs

/-- An actor that stopped as the manager `m` waits for the end of its last transmission. -/
structure Lingers (m : Manager) (a : Actor) : Prop where
  closing : a.stage = .closing
  manager : a.manager = m.ending

/-- The transmission has not come to an end. -/
structure Expects (m : Manager) (p : Pending) (a : Actor) : Prop extends Lingers m a where
  outstanding : a.outstanding = [p.id]
  unanswered : replies a.inbox = 0

/-- It has come back, and `n` signals are to be handled before. -/
structure HasBack (m : Manager) (r : Except TransportFailure Reply) (n : Nat) (a : Actor) : Prop
    extends Lingers m a where
  inbox : ∃ xs ys, a.inbox = xs ++ .reply r :: ys ∧ replies xs = 0 ∧ xs.length = n

/-- The actor handles a signal. -/
def Deed.isSignal : Deed → Bool
  | .signal _ => true
  | _ => false

theorem Expects.undergo (h : a.Expects m p) (d : Deed) :
    (a.undergo d).Expects m p ∨
      ∃ r, d = .returned p.id r ∧ (a.undergo d).HasBack m r a.inbox.length := by
  have hparting := undergo_of_closing h.closing d
  generalize a.undergo d = b at hparting ⊢
  have hnone := h.unanswered
  cases hparting with
  | same d connected hd => exact .inl ⟨⟨h.closing, h.manager⟩, h.outstanding, hnone⟩
  | skipped hinbox =>
    rw [hinbox, replies_fire] at hnone
    exact .inl ⟨⟨h.closing, h.manager⟩, h.outstanding, hnone⟩
  | concluded hinbox hresults =>
    rw [hinbox, replies_reply] at hnone
    cases hnone
  | rang generation =>
    refine .inl ⟨⟨h.closing, h.manager⟩, h.outstanding, ?_⟩
    rw [replies_append, hnone]
    rfl
  | returned r hid =>
    rw [h.outstanding, List.mem_singleton] at hid
    subst hid
    exact .inr ⟨r, rfl, ⟨h.closing, h.manager⟩, a.inbox, [], rfl, hnone, rfl⟩

/-- Each signal brings the reply nearer, until it is handled itself. -/
theorem HasBack.undergo (h : a.HasBack m r n) (d : Deed) :
    (∃ k, (a.undergo d).HasBack m r k ∧ k + [d].countP Deed.isSignal = n) ∨
      n = 0 ∧ (a.undergo d).stage = .stopped ∧
        a.results d = m.ending.active.toList.map fun p => (p.id, m.ending.lastResult r) := by
  obtain ⟨xs, ys, hinbox, hnone, hlength⟩ := h.inbox
  have hparting := undergo_of_closing h.closing d
  -- a deed that puts something at the end of the inbox, or nothing
  have behind {b : Actor} (zs : List Signal) (hb : b.Lingers m) (hzs : b.inbox = a.inbox ++ zs)
      (hd : [d].countP Deed.isSignal = 0) :
      ∃ k, b.HasBack m r k ∧ k + [d].countP Deed.isSignal = n :=
    ⟨n, ⟨hb, xs, ys ++ zs, by rw [hzs, hinbox]; simp, hnone, hlength⟩, by rw [hd]; rfl⟩
  generalize a.undergo d = b at hparting ⊢
  cases hparting with
  | same d connected hd =>
    refine .inl (behind [] ⟨h.closing, h.manager⟩ (List.append_nil _).symm ?_)
    cases d with
    | signal s =>
      rw [hd s rfl] at hinbox
      exact absurd hinbox.symm (by simp)
    | _ => rfl
  | skipped hfire =>
    rw [hfire] at hinbox
    cases xs with
    | nil => cases hinbox
    | cons x xs =>
      rw [List.cons_append, List.cons_eq_cons] at hinbox
      obtain ⟨rfl, rfl⟩ := hinbox
      rw [replies_fire] at hnone
      exact .inl ⟨xs.length, ⟨⟨h.closing, h.manager⟩, xs, ys, rfl, hnone, rfl⟩, hlength⟩
  | concluded hreply hresults =>
    rw [hreply] at hinbox
    cases xs with
    | nil =>
      cases hinbox
      rw [h.manager] at hresults
      exact .inr ⟨hlength.symm, rfl, hresults⟩
    | cons x xs =>
      rw [List.cons_append, List.cons_eq_cons] at hinbox
      obtain ⟨rfl, -⟩ := hinbox
      rw [replies_reply] at hnone
      cases hnone
  | rang generation =>
    exact .inl (behind _ ⟨h.closing, h.manager⟩ rfl rfl)
  | returned r hid =>
    exact .inl (behind _ ⟨h.closing, h.manager⟩ rfl rfl)

/-- The request that was under way when the actor stopped, as the manager `m`, got the result of its
own reply. -/
structure HasGiven (name : PolicyName) (ds : List Deed) (m : Manager) (p : Pending)
    (r : Except TransportFailure Reply) : Prop where
  cameBack : (new name).CameBack ds p.id r
  ended : ((new name).live ds).stage ≠ .running
  given : (p.id, m.lastResult r) ∈ (new name).resultsOver ds

theorem HasGiven.append (h : HasGiven name ds m p r) (es : List Deed) :
    HasGiven name (ds ++ es) m p r where
  cameBack := h.cameBack.append (silent_after h.ended es)
  ended := by
    rw [live_append]
    exact live_of_ended h.ended es
  given := by
    rw [resultsOver_append]
    exact List.mem_append_left _ h.given

theorem Lingers.ended (h : a.Lingers m) : a.stage ≠ .running := by
  rw [h.closing]
  nofun

/-- Nothing is sent while the reply is on its way. -/
theorem Lingers.silent (h : a.Lingers m) (d : Deed) : sentIn (a.marks d) = [] :=
  silent_of_ended ⟨0, sound_of_ended h.ended⟩ (undergo_of_ended h.ended d)

theorem lastResult_ending (m : Manager) (r : Except TransportFailure Reply) :
    m.ending.lastResult r = m.lastResult r := by
  cases r <;> rfl

theorem active_ending (h : m.inFlight = true) : m.ending.active = m.active := if_pos h

theorem HasBack.snoc (h : ((new name).live ds).HasBack m r n)
    (hback : (new name).CameBack ds p.id r) (hactive : m.ending.active = some p) (d : Deed) :
    (∃ k, ((new name).live (ds ++ [d])).HasBack m r k ∧ (new name).CameBack (ds ++ [d]) p.id r ∧
        k + [d].countP Deed.isSignal = n) ∨
      HasGiven name (ds ++ [d]) m p r := by
  have hlive : (new name).live (ds ++ [d]) = ((new name).live ds).undergo d := live_append _ _ _
  have hback' := hback.snoc (h.silent d)
  rcases h.undergo d with ⟨k, hk, hcount⟩ | ⟨-, hstage, hresults⟩
  · exact .inl ⟨k, hlive ▸ hk, hback', hcount⟩
  · refine .inr ⟨hback', ?_, ?_⟩
    · rw [hlive, hstage]
      nofun
    · rw [resultsOver_snoc, hresults, hactive, lastResult_ending]
      exact List.mem_append_right _ (List.mem_singleton_self _)

/-- When all signals before it are handled, the reply is handled. -/
theorem HasBack.given (h : ((new name).live ds).HasBack m r n)
    (hback : (new name).CameBack ds p.id r) (hactive : m.ending.active = some p)
    (hcount : n < es.countP Deed.isSignal) : HasGiven name (ds ++ es) m p r := by
  induction es generalizing ds n with
  | nil => cases hcount
  | cons d es ih =>
    have hsplit : ds ++ d :: es = (ds ++ [d]) ++ es := by simp
    rw [hsplit]
    rcases h.snoc hback hactive d with ⟨k, hk, hback', hkn⟩ | hgiven
    · refine ih hk hback' ?_
      rw [← List.singleton_append, List.countP_append] at hcount
      omega
    · exact hgiven.append es

theorem HasBack.lt (h : a.HasBack m r n) : n < a.inbox.length := by
  obtain ⟨xs, ys, hinbox, -, rfl⟩ := h.inbox
  rw [hinbox, List.length_append, List.length_cons]
  omega

/-- What has become of the request that was under way when the actor stopped, as the manager `m`. -/
inductive Fate (name : PolicyName) (ds : List Deed) (m : Manager) (p : Pending) : Prop where
  | expected (h : ((new name).live ds).Expects m p)
  | back {r : Except TransportFailure Reply} {n : Nat} (h : ((new name).live ds).HasBack m r n)
      (hback : (new name).CameBack ds p.id r)
  | given {r : Except TransportFailure Reply} (h : HasGiven name ds m p r)

theorem Fate.snoc (h : Fate name ds m p) (hactive : m.ending.active = some p) (d : Deed) :
    Fate name (ds ++ [d]) m p := by
  have hlive : (new name).live (ds ++ [d]) = ((new name).live ds).undergo d := live_append _ _ _
  cases h with
  | expected h =>
    rcases h.undergo d with hexpected | ⟨r, rfl, hback⟩
    · exact .expected (hlive ▸ hexpected)
    · refine .back (hlive ▸ hback) (cameBack_returned ?_ r)
      rw [h.outstanding]
      exact List.mem_singleton_self _
  | back h hback =>
    rcases h.snoc hback hactive d with ⟨k, hk, hback', -⟩ | hgiven
    · exact .back hk hback'
    · exact .given hgiven
  | given h => exact .given (h.append [d])

theorem exists_reply {inbox : List Signal} (h : 0 < replies inbox) :
    ∃ xs r ys, inbox = xs ++ .reply r :: ys ∧ replies xs = 0 := by
  induction inbox with
  | nil => cases h
  | cons x inbox ih =>
    cases x with
    | fire generation =>
      rw [replies_fire] at h
      obtain ⟨xs, r, ys, rfl, hnone⟩ := ih h
      exact ⟨.fire generation :: xs, r, ys, rfl, by rwa [replies_fire]⟩
    | reply r => exact ⟨[], r, inbox, rfl, rfl⟩

/-- An actor that stops with a request under way waits for its reply, or has it already. -/
theorem fate_stop (hstops : ((new name).live ds).Stops)
    (hunder : ((new name).live ds).UnderWay p) (s : Surroundings) :
    Fate name (ds ++ [.command s]) ((new name).live ds).manager p := by
  obtain ⟨now, hsound⟩ := sound_live name ds
  have hsilent := silent_of_ended ⟨now, hsound⟩ (hstops.ends s).1
  have hlive : (new name).live (ds ++ [.command s]) =
      ((new name).live ds).undergo (.command s) := live_append _ _ _
  have hout : (((new name).live ds).undergo (.command s)).outstanding =
      ((new name).live ds).outstanding := by
    rw [(undergo_change _ (.command s)).outstanding_eq (fun _ _ heq => nomatch heq), hsilent,
      List.append_nil]
  have hlingers :
      (((new name).live ds).undergo (.command s)).Lingers ((new name).live ds).manager := by
    rw [hstops.undergo_eq, hunder.inFlight]
    exact ⟨rfl, rfl⟩
  have hinbox : (((new name).live ds).undergo (.command s)).inbox =
      ((new name).live ds).inbox := by
    rw [hstops.undergo_eq]
    rfl
  have hback {r : Except TransportFailure Reply} (hr : .reply r ∈ ((new name).live ds).inbox) :
      (new name).CameBack (ds ++ [.command s]) p.id r := by
    obtain ⟨q, hq, hcame⟩ := cameBack_of_reply hstops.running hr
    obtain rfl := Option.some.inj (hunder.active.symm.trans hq.active)
    exact hcame.snoc hsilent
  have hwired := hsound.wired hstops.running
  rw [hunder.sending, hunder.active] at hwired
  generalize ((new name).live ds).alarm = alarm at hwired
  generalize houtstanding : ((new name).live ds).outstanding = outstanding at hwired
  cases hwired with
  | armed hdue => cases hdue
  | fired hdue => cases hdue
  | sending hfires hreplies =>
    refine .expected (hlive ▸ ⟨hlingers, hout.trans houtstanding, ?_⟩)
    rw [hinbox, hreplies]
  | replied hfires hreplies =>
    obtain ⟨xs, r, ys, hsplit, hnone⟩ := exists_reply (by rw [hreplies]; exact Nat.one_pos)
    have hhas : (((new name).live ds).undergo (.command s)).HasBack ((new name).live ds).manager r
        xs.length := ⟨hlingers, xs, ys, hinbox.trans hsplit, hnone, rfl⟩
    refine .back (hlive ▸ hhas) (hback ?_)
    rw [hsplit]
    exact List.mem_append_right _ (.head _)

/-- Whatever comes, the actor waits for the reply, or has it, or has given its result. -/
theorem fate_run (hstops : ((new name).live ds).Stops)
    (hunder : ((new name).live ds).UnderWay p) (s : Surroundings) (es : List Deed) :
    Fate name (ds ++ .command s :: es) ((new name).live ds).manager p := by
  induction es using List.reverseRecOn with
  | nil => exact fate_stop hstops hunder s
  | append_singleton es d ih =>
    have hactive := (active_ending hunder.inFlight).trans hunder.active
    have hsplit : ds ++ .command s :: (es ++ [d]) = (ds ++ .command s :: es) ++ [d] := by simp
    rw [hsplit]
    exact ih.snoc hactive d

end Actor

end Throttle
