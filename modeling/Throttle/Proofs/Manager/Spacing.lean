import Throttle.Proofs.Manager.Absorption
import Throttle.Proofs.Manager.Stopping

/-!
  How far apart the sends are that one manager schedules. A send is scheduled when a request becomes
  the active one, and then it is put after the minimum interval; or when a refusal is handled, and
  then it is put after the wait that the refusal asks for and the margin, with no regard to the
  interval (`Handling.schedules`). What was scheduled last is past by then (`Paced`). So of two sends
  that are scheduled one after the other the second one keeps the interval, or it repeats a refused
  request (`scheduled_apart`); whether that one keeps it is a matter of the margin.
-/

namespace Throttle

open Http

/-- The instant for which a phase has a send scheduled. -/
def Phase.sendAt? : Phase → Option Moment
  | .idle => none
  | .activating t => some t
  | .sending => none
  | .violationWait t => some t
  | .suspended _ => none

theorem Phase.due_of_sendAt {phase : Phase} {t : Moment} (h : phase.sendAt? = some t) :
    phase.due? = some t := by
  cases phase with
  | idle => cases h
  | activating u => exact h
  | sending => cases h
  | violationWait u => exact h
  | suspended u => cases h

namespace Manager

variable {s : Surroundings} {m m' n : Manager} {msg : Message} {os : List Output} {t : Moment}

/-! ## One message -/

/-- What a message does to the sends that a manager schedules. -/
inductive Schedules (s : Surroundings) (m : Manager) (msg : Message) (m' : Manager) : Prop where
  /-- No send is scheduled, and only the alarm that counts ends the wait for one. -/
  | kept (hlast : m'.lastSend = m.lastSend)
      (hnone : m'.generation = m.generation ∨ m'.phase.sendAt? = none)
      (hphase : ∀ t, m.phase.sendAt? = some t →
        m'.phase.sendAt? = some t ∨ msg = .fire m.generation)
  /-- A request that became the active one is to leave after the minimum interval. -/
  | first {t : Moment} (hgeneration : m.generation < m'.generation)
      (hphase : m'.phase = .activating t) (hlast : m'.lastSend = some t)
      (hspaced : ∀ x, m.lastSend = some x → x + (s.config.minimumInterval : Int) ≤ t)
  /-- A refused request is to leave again after the wait and the margin. -/
  | again {reply : Reply} {t : Moment} (hmsg : msg = .reply (.ok reply))
      (hsending : m.phase = .sending) (hrefused : reply.isViolation = true)
      (hgeneration : m.generation < m'.generation) (hphase : m'.phase = .violationWait t)
      (hlast : m'.lastSend = some t)
      (hsend : t = s.now + ((m.heard reply).violationWait s reply : Delay) +
        s.config.violationBuffer)

/-- A manager that turns to its queue keeps the minimum interval. -/
theorem Activation.schedules (h : Activation s n m' os) (hlast : n.lastSend = m.lastSend)
    (hgeneration : n.generation = m.generation)
    (hphase : ∀ t, m.phase.sendAt? = some t →
      n.phase.sendAt? = some t ∨ msg = .fire m.generation) : Schedules s m msg m' := by
  cases h with
  | busy hbusy => exact .kept hlast (.inl hgeneration) hphase
  | drained hactive hidle hgone => exact .kept hlast (.inl hgeneration) hphase
  | planned gone rest p sendAt hactive hidle hqueue hgone hlive hsend =>
    refine .first ?_ rfl rfl fun x hx => ?_
    · rw [← hgeneration]
      exact Nat.lt_succ_self _
    · obtain ⟨safe, allowed, -, -, ⟨hnone, -⟩ | ⟨last, spaced, hsome, hspaced, rfl⟩⟩ :=
        sendTime_eq_ok hsend
      · exact nomatch hnone.symm.trans (hlast.trans hx)
      · obtain rfl := Option.some.inj (hsome.symm.trans (hlast.trans hx))
        obtain ⟨-, rfl⟩ := Moment.after_eq_ok_iff.1 hspaced
        exact Int.le_max_right allowed _

/-- A message schedules one send at most. -/
theorem Handling.schedules (h : Handling s m msg m' os) : Schedules s m msg m' := by
  -- a manager that waits for its reply has no send scheduled
  have clear {phase : Phase} {P : Moment → Prop} (hphase : m.phase = phase)
      (hnone : phase.sendAt? = none) (t : Moment) (ht : m.phase.sendAt? = some t) : P t := by
    rw [hphase, hnone] at ht
    cases ht
  cases h with
  | seeded haccepted next => exact next.schedules rfl rfl fun t ht => .inl ht
  | seedRefused hrefused hpaused hlapse next => exact next.schedules rfl rfl fun t ht => .inl ht
  | joinedGone hgone => exact .kept rfl (.inl rfl) fun t ht => .inl ht
  | joined hlive next => exact next.schedules rfl rfl fun t ht => .inl ht
  | fireStale hstale => exact .kept rfl (.inl rfl) fun t ht => .inl ht
  | fireIdle hphase => exact .kept rfl (.inl rfl) fun t ht => .inl ht
  | resumed hphase next => exact next.schedules rfl rfl (clear hphase rfl)
  | fireEmpty hphase hactive next => exact next.schedules rfl rfl fun t ht => .inr rfl
  | skipped hphase hactive hgone next => exact next.schedules rfl rfl fun t ht => .inr rfl
  | unsigned hphase hactive hlive hsigned next => exact next.schedules rfl rfl fun t ht => .inr rfl
  | sent hphase hactive hlive hsigned => exact .kept rfl (.inl rfl) fun t ht => .inr rfl
  | stray hphase => exact .kept rfl (.inl rfl) fun t ht => .inl ht
  | lost hphase next => exact next.schedules rfl rfl (clear hphase rfl)
  | passed hphase haccepted hclear next => exact next.schedules rfl rfl (clear hphase rfl)
  | suspended hphase haccepted hmalformed hresume => exact .kept rfl (.inr rfl) (clear hphase rfl)
  | refused hphase hrefused hlapse next =>
    cases next with
    | empty hactive next => exact next.schedules rfl rfl (clear hphase rfl)
    | skipped hactive hgone next => exact next.schedules rfl rfl (clear hphase rfl)
    | again hactive hlive hsend =>
      obtain ⟨-, rfl⟩ := Moment.after_eq_ok_iff.1 hlapse
      obtain ⟨-, rfl⟩ := Moment.after_eq_ok_iff.1 hsend
      exact .again rfl hphase hrefused (Nat.lt_succ_self _) rfl rfl rfl

/-- The send that was scheduled last is past, or it is the one that the manager waits for. -/
def Paced (now : Moment) (m : Manager) : Prop :=
  ∀ t, m.lastSend = some t → t ≤ now ∨ m.phase.sendAt? = some t

theorem Paced.mono {now now' : Moment} (h : m.Paced now) (hle : now ≤ now') : m.Paced now' :=
  fun t ht => (h t ht).imp_left fun hpast => Int.le_trans hpast hle

theorem Schedules.paced (h : Schedules s m msg m') (hm : m.Paced s.now)
    (hdue : msg = .fire m.generation → ∃ t, m.phase.due? = some t ∧ t ≤ s.now) :
    m'.Paced s.now := by
  cases h with
  | kept hlast hnone hphase =>
    intro t ht
    rcases hm t (hlast ▸ ht) with hpast | hahead
    · exact .inl hpast
    · rcases hphase t hahead with hwaits | hmsg
      · exact .inr hwaits
      · obtain ⟨u, hu, hle⟩ := hdue hmsg
        obtain rfl := Option.some.inj (hu.symm.trans (Phase.due_of_sendAt hahead))
        exact .inl hle
  | first hgeneration hphase hlast hspaced =>
    intro t ht
    rw [hphase, ← ht, hlast]
    exact .inr rfl
  | again hmsg hsending hrefused hgeneration hphase hlast hsend =>
    intro t ht
    rw [hphase, ← ht, hlast]
    exact .inr rfl

end Manager

/-! ## One clock -/

namespace Actor

variable {s : Surroundings} {now x y : Moment} {a b : Actor} {d e : Deed} {ns : List Mark}
  {config : Config} {ds es : List Deed}

/-- What the actor sees around it when it takes a message. -/
def Deed.surroundings? : Deed → Option Surroundings
  | .post _ => none
  | .command s => some s
  | .signal s => some s
  | .ring _ => none
  | .returned _ _ => none
  | .disconnect => none

/-- The instant at which a deed happens, if it looks at the clock. -/
def Deed.time? : Deed → Option Moment
  | .ring now => some now
  | d => d.surroundings?.map Surroundings.now

/-- What the clock shows after a deed. -/
def Deed.clock (now : Moment) (d : Deed) : Moment := d.time?.getD now

/-- The deeds happen by a clock that starts at an instant and never goes back. -/
def Clocked : Moment → List Deed → Prop
  | _, [] => True
  | now, d :: ds => now ≤ d.clock now ∧ Clocked (d.clock now) ds

instance Clocked.decidable : ∀ now ds, Decidable (Clocked now ds)
  | _, [] => isTrue trivial
  | now, d :: ds =>
    have := Clocked.decidable (d.clock now) ds
    inferInstanceAs (Decidable (now ≤ d.clock now ∧ Clocked (d.clock now) ds))

/-- What the clock shows after some deeds. -/
def clockAfter (now : Moment) (ds : List Deed) : Moment := ds.foldl Deed.clock now

theorem clocked_append {now : Moment} :
    Clocked now (ds ++ es) ↔
      Clocked now ds ∧ Clocked (clockAfter now ds) es := by
  induction ds generalizing now with
  | nil => exact (true_and _).to_iff.symm
  | cons d ds ih =>
    show _ ∧ Clocked _ (ds ++ es) ↔ (_ ∧ _) ∧ _
    rw [ih, and_assoc]
    exact Iff.rfl

/-- A running actor whose last send is past or is waited for. -/
structure Paced (now : Moment) (a : Actor) : Prop where
  sound : Sound now a
  paced : a.stage = .running → a.manager.Paced now

theorem paced_new (now : Moment) (name : PolicyName) : Paced now (new name) where
  sound := sound_new now name
  paced _ t ht := by cases ht

theorem Paced.undergo (h : Paced now a) (d : Deed) (hle : now ≤ d.clock now) :
    Paced (d.clock now) (a.undergo d) where
  sound := by
    refine (undergo_change a d).sound (h.sound.mono hle) fun t ht => ?_
    subst ht
    exact Int.le_refl t
  paced hstage := by
    obtain ⟨hrunning, ⟨hsame, -⟩ | ⟨s, msg, c, os, hs, htakes, hhandled, -⟩⟩ :=
      (undergo_change a d).takes hstage
    · rw [hsame]
      exact (h.paced hrunning).mono hle
    · have hnow : d.clock now = s.now := by rcases hs with rfl | rfl <;> rfl
      rw [hnow] at hle ⊢
      exact hhandled.schedules.paced ((h.paced hrunning).mono hle)
        fun hmsg => (h.sound.mono hle).due hrunning htakes hmsg

theorem Paced.live (h : Paced now a) (hclock : Clocked now ds) :
    Paced (clockAfter now ds) (a.live ds) := by
  induction ds generalizing now a with
  | nil => exact h
  | cons d ds ih => exact ih (h.undergo d hclock.1) hclock.2

/-! ## Two sends -/

/-- The instant for which a deed schedules a send: the manager sets its alarm anew, and a request
leaves when the alarm goes off. -/
def schedule? (a : Actor) (d : Deed) : Option Moment :=
  if (a.undergo d).manager.generation = a.manager.generation then none
  else (a.undergo d).manager.phase.sendAt?

/-- The instants for which some deeds schedule sends, in order. -/
def schedules (a : Actor) : List Deed → List Moment
  | [] => []
  | d :: ds => (a.schedule? d).toList ++ (a.undergo d).schedules ds

theorem schedule?_of_kept (h : (a.undergo d).manager.generation = a.manager.generation ∨
    (a.undergo d).manager.phase.sendAt? = none) : a.schedule? d = none := by
  unfold schedule?
  split
  · rfl
  · rename_i hanew
    exact h.resolve_left hanew

theorem schedule?_of_anew (h : a.manager.generation < (a.undergo d).manager.generation) :
    a.schedule? d = (a.undergo d).manager.phase.sendAt? :=
  if_neg (Nat.ne_of_gt h)

/-- Only a manager that goes on schedules a send. -/
theorem running_of_schedule (h : a.schedule? d = some x) : (a.undergo d).stage = .running := by
  unfold schedule? at h
  split at h
  · cases h
  · rename_i hanew
    obtain ⟨ns, hchange⟩ : ∃ ns, Change a d (a.undergo d) ns := ⟨_, undergo_change a d⟩
    generalize a.undergo d = b at h hanew hchange
    have advance {s : Surroundings} {os : List Output} (hadvance : Advance s a b os) :
        b.stage = .running := by
      cases hadvance with
      | handled hrunning htakes hhandled => rfl
      | broke hquiet => exact absurd rfl hanew
      | stopped hrunning hquiet => exact absurd rfl hanew
      | concluded hclosing hinbox hquiet hactive hphase hqueue =>
        rw [after_manager, hphase] at h
        cases h
      | ignored hended hinbox => exact absurd rfl hanew
    cases hchange with
    | none d hseeds => exact absurd rfl hanew
    | posted c hrunning => exact absurd rfl hanew
    | commanded hadvance hinbox => exact advance hadvance
    | signaled hadvance hmailbox => exact advance hadvance
    | rang halarm hdue => exact absurd rfl hanew
    | returned result hid => exact absurd rfl hanew
    | disconnected => exact absurd rfl hanew

/-- What a running actor remembers as its last send is what it scheduled last. -/
theorem lastSend_undergo (a : Actor) (d : Deed) (hstage : (a.undergo d).stage = .running) :
    (a.undergo d).manager.lastSend = (a.schedule? d).or a.manager.lastSend := by
  obtain ⟨-, ⟨hsame, -⟩ | ⟨s, msg, c, os, hs, htakes, hhandled, -⟩⟩ :=
    (undergo_change a d).takes hstage
  · rw [schedule?_of_kept (.inl (congrArg _ hsame)), hsame]
    rfl
  · cases hhandled.schedules with
    | kept hlast hnone hphase =>
      rw [schedule?_of_kept hnone, hlast]
      rfl
    | first hgeneration hphase hlast hspaced =>
      rw [schedule?_of_anew hgeneration, hphase, hlast]
      rfl
    | again hmsg hsending hrefused hgeneration hphase hlast hsend =>
      rw [schedule?_of_anew hgeneration, hphase, hlast]
      rfl

theorem running_of_live (h : (a.live ds).stage = .running) : a.stage = .running := by
  by_contra hended
  exact live_of_ended hended ds h

theorem lastSend_live (hnone : a.schedules ds = []) (hstage : (a.live ds).stage = .running) :
    (a.live ds).manager.lastSend = a.manager.lastSend := by
  induction ds generalizing a with
  | nil => rfl
  | cons d ds ih =>
    obtain ⟨hfirst, hrest⟩ := List.append_eq_nil_iff.1 hnone
    have hgoes : (a.undergo d).stage = .running := running_of_live hstage
    rw [live_cons, ih hrest hstage, lastSend_undergo a d hgoes, Option.toList_eq_nil_iff.1 hfirst]
    rfl

/-- In a deed the active request was refused, and it is to leave again at `y`, when the wait that the
refusal asks for and the margin are over. The send that was scheduled for `x` is past then. -/
inductive Resent (config : Config) (a : Actor) (d : Deed) (x y : Moment) : Prop where
  | intro {reply : Reply} {rest : List Signal} {t : Moment} {wait : Delay}
      (hsending : a.manager.phase = .sending) (hinbox : a.inbox = .reply (.ok reply) :: rest)
      (hrefused : reply.isViolation = true) (htime : d.time? = some t) (hpast : x ≤ t)
      (hwait : Manager.Asks config (a.manager.policyAfter reply) reply wait)
      (hsend : y = t + wait + config.violationBuffer)

/-- A refused request leaves again after the margin. -/
theorem Resent.margin_le (h : Resent config a d x y) : x + (config.violationBuffer : Int) ≤ y := by
  cases h with
  | @intro reply rest t wait hsending hinbox hrefused htime hpast hwait hsend =>
    have hlong : t ≤ t + (wait : Int) := Int.le_add_of_nonneg_right (Int.natCast_nonneg wait)
    rw [hsend]
    exact Int.add_le_add_right (Int.le_trans hpast hlong) _

/-- A deed schedules a send after the minimum interval, or it has a refused request leave again. -/
theorem Paced.schedule (h : Paced now a) (hlast : a.manager.lastSend = some x)
    (hle : now ≤ d.clock now) (hconfig : ∀ s ∈ d.surroundings?, s.config = config)
    (hy : a.schedule? d = some y) :
    x + (config.minimumInterval : Int) ≤ y ∨ Resent config a d x y := by
  have hstage := running_of_schedule hy
  obtain ⟨hrunning, ⟨hsame, -⟩ | ⟨s, msg, c, os, hs, htakes, hhandled, -⟩⟩ :=
    (undergo_change a d).takes hstage
  · rw [schedule?_of_kept (.inl (congrArg _ hsame))] at hy
    cases hy
  · have htime : d.time? = some s.now := by rcases hs with rfl | rfl <;> rfl
    obtain rfl : s.config = config := hconfig s (by rcases hs with rfl | rfl <;> rfl)
    cases hhandled.schedules with
    | kept hkept hnone hphase =>
      rw [schedule?_of_kept hnone] at hy
      cases hy
    | first hgeneration hphase hfirst hspaced =>
      rw [schedule?_of_anew hgeneration, hphase] at hy
      obtain rfl := Option.some.inj hy
      exact .inl (hspaced x hlast)
    | @again reply t hmsg hsending hrefused hgeneration hphase hagain hsend =>
      rw [schedule?_of_anew hgeneration, hphase] at hy
      obtain rfl : t = y := Option.some.inj hy
      subst hmsg
      cases htakes with
      | reply hinbox =>
        have hclock : d.clock now = s.now := by rw [Deed.clock, htime, Option.getD_some]
        rw [hclock] at hle
        have hpast : x ≤ s.now := by
          rcases (h.paced hrunning).mono hle x hlast with hpast | hahead
          · exact hpast
          · rw [hsending] at hahead
            cases hahead
        have hwait : Manager.Asks s.config (a.manager.heard reply).policy reply _ :=
          Manager.asks_iff.2 rfl
        exact .inr (.intro hsending hinbox hrefused htime hpast hwait hsend)

/-- Of two sends that a manager schedules one after the other, the second one is after the minimum
interval, or it repeats a refused request. It is after the minimum interval in any case if the
margin after a refusal is as long. -/
theorem scheduled_apart (name : PolicyName) {front between : List Deed}
    (hclock : Clocked now (front ++ d :: (between ++ [e])))
    (hconfig : ∀ s ∈ e.surroundings?, s.config = config)
    (hx : ((new name).live front).schedule? d = some x)
    (hnone : ((new name).live (front ++ [d])).schedules between = [])
    (hy : ((new name).live (front ++ d :: between)).schedule? e = some y) :
    (x + (config.minimumInterval : Int) ≤ y ∨
        Resent config ((new name).live (front ++ d :: between)) e x y) ∧
      (config.minimumInterval ≤ config.violationBuffer →
        x + (config.minimumInterval : Int) ≤ y) := by
  have hsplit : front ++ d :: (between ++ [e]) = (front ++ d :: between) ++ [e] := by
    rw [List.append_assoc, List.cons_append]
  rw [hsplit, clocked_append] at hclock
  obtain ⟨hbefore, hle, -⟩ := hclock
  have hpaced := (paced_new now name).live hbefore
  have hlives : (new name).live (front ++ d :: between) =
      ((new name).live (front ++ [d])).live between := by
    rw [← live_append, List.append_assoc, List.singleton_append]
  -- the first of the two sends is remembered until the second one is scheduled
  have hlast : ((new name).live (front ++ d :: between)).manager.lastSend = some x := by
    have hnext : (((new name).live (front ++ d :: between)).live [e]).stage = .running :=
      running_of_schedule hy
    have hgoes := running_of_live hnext
    rw [hlives] at hgoes ⊢
    rw [lastSend_live hnone hgoes, live_append]
    have hfirst := running_of_schedule hx
    exact (lastSend_undergo _ d hfirst).trans (by rw [hx]; rfl)
  have hapart := hpaced.schedule hlast hle hconfig hy
  refine ⟨hapart, fun hmargin => ?_⟩
  rcases hapart with hspaced | hresent
  · exact hspaced
  · exact Int.le_trans (Int.add_le_add_left (Int.ofNat_le.2 hmargin) x) hresent.margin_le

/-- The default settings, but a margin of a tenth of a second after a refusal. -/
def hastyConfig : Config := Config.default.set .violationBuffer 100

def hastySurroundings (now : Moment) : Surroundings :=
  { plainSurroundings now with config := hastyConfig }

/-- A refusal that asks for no wait. -/
def waitlessReply : Reply :=
  { status := 429
    headers := Headers.empty.insert ⟨"retry-after"⟩ ⟨[48], false⟩
    body := []
    date := 0 }

/-- A request comes. -/
def hastyStart : List Deed := [.post (.queue ⟨1, plainEndpoint, plainRequest⟩)]

/-- It leaves as it was scheduled, and is refused at once. -/
def hastyWait : List Deed :=
  [.ring 250000000, .signal (hastySurroundings 250000000), .returned 1 (.ok waitlessReply)]

/-- The request is to leave again a tenth of a second after the first time. -/
theorem scheduled_apart_hastyRun :
    hastyConfig.Valid ∧
      Clocked 0 (hastyStart ++ .command (hastySurroundings 0) ::
        (hastyWait ++ [.signal (hastySurroundings 250000000)])) ∧
      (∀ s ∈ (Deed.signal (hastySurroundings 250000000)).surroundings?, s.config = hastyConfig) ∧
      ((new ⟨"p", rfl⟩).live hastyStart).schedule? (.command (hastySurroundings 0)) =
        some 250000000 ∧
      ((new ⟨"p", rfl⟩).live (hastyStart ++ [.command (hastySurroundings 0)])).schedules
        hastyWait = [] ∧
      ((new ⟨"p", rfl⟩).live (hastyStart ++ .command (hastySurroundings 0) :: hastyWait)).schedule?
        (.signal (hastySurroundings 250000000)) = some 350000000 ∧
      Resent hastyConfig
        ((new ⟨"p", rfl⟩).live (hastyStart ++ .command (hastySurroundings 0) :: hastyWait))
        (.signal (hastySurroundings 250000000)) 250000000 350000000 ∧
      ¬ (250000000 : Moment) + (hastyConfig.minimumInterval : Int) ≤ 350000000 := by
  have hclock : Clocked 0 (hastyStart ++ .command (hastySurroundings 0) ::
      (hastyWait ++ [.signal (hastySurroundings 250000000)])) := by decide +kernel
  have hvalid : hastyConfig.fault? = none := by decide +kernel
  have hconfig : ∀ s ∈ (Deed.signal (hastySurroundings 250000000)).surroundings?,
      s.config = hastyConfig := by
    rintro s ⟨⟩
    rfl
  have hfirst : ((new ⟨"p", rfl⟩).live hastyStart).schedule? (.command (hastySurroundings 0)) =
      some 250000000 := by decide +kernel
  have hbetween : ((new ⟨"p", rfl⟩).live (hastyStart ++ [.command (hastySurroundings 0)])).schedules
      hastyWait = [] := by decide +kernel
  have hsecond : ((new ⟨"p", rfl⟩).live
      (hastyStart ++ .command (hastySurroundings 0) :: hastyWait)).schedule?
        (.signal (hastySurroundings 250000000)) = some 350000000 := by decide +kernel
  have hclose : ¬ (250000000 : Moment) + (hastyConfig.minimumInterval : Int) ≤ 350000000 := by
    decide +kernel
  have hapart := scheduled_apart ⟨"p", rfl⟩ hclock hconfig hfirst hbetween hsecond
  exact ⟨hvalid, hclock, hconfig, hfirst, hbetween, hsecond, hapart.1.resolve_left hclose, hclose⟩

end Actor

end Throttle
