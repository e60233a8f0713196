import Throttle.Proofs.Manager.Life
import Throttle.Proofs.Manager.Wiring

/-!
  The coupling of a running manager's phase with its active request, its queue, its alarm and its
  transmission. `Sound` says that an actor is wired in one of the ways of `Wired` and that its
  queue is empty while it is idle. Every deed keeps it (`Change.sound`), so it holds of every life
  (`sound_live`). `Coupled` says what follows for what can be counted: the alarms that still count
  and the transmissions that are not handled yet.
-/

namespace Throttle

open Http

namespace Actor

variable {now : Moment} {s : Surroundings} {a b : Actor}

/-! ## The invariant -/

/-- A running actor is wired, and its queue is empty while it is idle. -/
structure Sound (now : Moment) (a : Actor) : Prop where
  wired : a.stage = .running →
    Wired now a.manager.generation a.inbox a.manager.phase a.manager.active a.alarm a.outstanding
  settled : a.stage = .running → a.manager.phase = .idle → a.manager.queue = []

theorem sound_new (now : Moment) (name : PolicyName) : Sound now (new name) where
  wired _ := .idle (List.forall_mem_nil _) rfl
  settled _ _ := rfl

theorem sound_of_ended (h : a.stage ≠ .running) : Sound now a where
  wired hstage := absurd hstage h
  settled hstage := absurd hstage h

theorem Sound.mono {now' : Moment} (h : Sound now a) (hle : now ≤ now') : Sound now' a where
  wired hstage := (h.wired hstage).mono hle
  settled := h.settled

/-- The message that an actor takes is the first signal of its inbox, or none of them. -/
theorem Takes.inbox_eq {msg : Manager.Message} (h : a.Takes msg b) :
    a.inbox = msg.signals ++ b.inbox := by
  cases h with
  | seed hmailbox => rfl
  | queue hmailbox => rfl
  | fire hinbox => exact hinbox
  | reply hinbox => exact hinbox

theorem Takes.alarm_eq {msg : Manager.Message} (h : a.Takes msg b) : b.alarm = a.alarm := by
  cases h <;> rfl

theorem Takes.outstanding_eq {msg : Manager.Message} (h : a.Takes msg b) :
    b.outstanding = a.outstanding := by
  cases h <;> rfl

theorem Advance.sound {os : List Output} (h : Advance s a b os) (hs : Sound now a) :
    Sound now b := by
  cases h with
  | @handled msg b m' _ hstage htakes h =>
    have hw := hs.wired hstage
    rw [htakes.inbox_eq, ← htakes.alarm_eq, ← htakes.outstanding_eq] at hw
    obtain ⟨hwired, hsettled⟩ := h.wired hw (hs.settled hstage)
    exact ⟨fun _ => hwired, fun _ => hsettled⟩
  | broke hquiet => exact sound_of_ended nofun
  | stopped hstage hquiet =>
    apply sound_of_ended
    rw [after_stage]
    split <;> nofun
  | concluded hstage hinbox hquiet hactive hphase hqueue => exact sound_of_ended nofun
  | ignored hstage hinbox => exact sound_of_ended hstage

/-- A deed keeps a running actor wired. -/
theorem Change.sound {d : Deed} {ms : List Mark} (h : Change a d b ms) (hs : Sound now a)
    (hring : ∀ t, d = .ring t → t ≤ now) : Sound now b := by
  cases h with
  | none => exact hs
  | posted c hstage => exact ⟨hs.wired, hs.settled⟩
  | commanded h => exact h.sound hs
  | signaled h => exact h.sound hs
  | rang halarm hdue =>
    refine ⟨?_, hs.settled⟩
    intro hstage
    have hw := hs.wired hstage
    rw [halarm] at hw
    exact hw.ring (Int.le_trans hdue (hring _ rfl))
  | returned result hid => exact ⟨fun hstage => (hs.wired hstage).returned result hid, hs.settled⟩
  | disconnected => exact ⟨hs.wired, hs.settled⟩

/-- Whatever an actor goes through, and whenever, it is sound in the end. -/
theorem sound_live (name : PolicyName) (ds : List Deed) : ∃ now, Sound now ((new name).live ds) :=
  @live_induction (fun now a _ => Sound now a) (fun h hle => h.mono hle)
    (fun h hc hring => hc.sound h hring) 0 (new name) [] (sound_new 0 name) ds

/-! ## What can be counted -/

/-- How many rings of the alarm as it was set last are still to be handled: one that has not come,
and those in the inbox. -/
def pendingTimers (a : Actor) : Nat :=
  (a.alarm.toList.map (·.generation) ++ fires a.inbox).count a.manager.generation

/-- How many transmissions are under way or have come back without being handled. -/
def transmissions (a : Actor) : Nat := a.outstanding.length + replies a.inbox

/-- The coupling of phase, active request, queue, timers and transmissions. -/
structure Coupled (a : Actor) : Prop where
  /-- Each phase goes with its own counts. -/
  phase : match a.manager.phase with
    | .idle => a.manager.active = none ∧ a.manager.queue = [] ∧ a.alarm = none ∧
        a.pendingTimers = 0 ∧ a.transmissions = 0
    | .activating _ | .violationWait _ => a.manager.active ≠ none ∧ a.pendingTimers = 1 ∧
        a.transmissions = 0
    | .suspended _ => a.manager.active = none ∧ a.pendingTimers = 1 ∧ a.transmissions = 0
    | .sending => a.manager.active ≠ none ∧ a.transmissions = 1 ∧ a.pendingTimers = 0
  /-- At most one request is in flight. -/
  single : a.transmissions ≤ 1
  /-- A queue does not wait for nothing. -/
  awake : a.manager.queue ≠ [] → a.pendingTimers = 1 ∨ a.transmissions = 1
  /-- A reply belongs to the active request, which was sent. -/
  expected : ∀ result, .reply result ∈ a.inbox →
    a.manager.phase = .sending ∧ a.manager.active ≠ none
  /-- An alarm that counts is waited for; if it is to send, there is a request to send. -/
  awaited : .fire a.manager.generation ∈ a.inbox →
    a.manager.phase.due? ≠ none ∧
      ∀ t, a.manager.phase = .activating t ∨ a.manager.phase = .violationWait t →
        a.manager.active ≠ none

theorem mem_fires {g : Nat} {inbox : List Signal} : g ∈ fires inbox ↔ .fire g ∈ inbox := by
  unfold fires
  rw [List.mem_filterMap]
  constructor
  · rintro ⟨x, hx, hg⟩
    cases x with
    | fire f =>
      cases hg
      exact hx
    | reply result => cases hg
  · exact fun h => ⟨_, h, rfl⟩

theorem replies_pos {result : Except TransportFailure Reply} {inbox : List Signal}
    (h : .reply result ∈ inbox) : 0 < replies inbox :=
  List.countP_pos_iff.2 ⟨_, h, rfl⟩

end Actor

theorem count_fires_of_lt {g : Nat} {inbox : List Signal} (h : ∀ f ∈ fires inbox, f < g) :
    (fires inbox).count g = 0 :=
  List.count_eq_zero_of_not_mem fun hm => Nat.lt_irrefl g (h g hm)

/-- Whether a request is active, how many timers count and how many transmissions are open can be
told from the phase. -/
theorem Wired.counts {now : Moment} {g : Nat} {inbox : List Signal} {phase : Phase}
    {active : Option Pending} {alarm : Option Alarm} {outstanding : List Nat}
    (h : Wired now g inbox phase active alarm outstanding) :
    active.isSome = phase.holds ∧
      (alarm.toList.map (·.generation) ++ fires inbox).count g = phase.due?.toList.length ∧
      outstanding.length + replies inbox = (if phase = .sending then 1 else 0) ∧
      (phase = .idle → alarm = none) := by
  have sending_ne {t : Moment} (hdue : phase.due? = some t) : phase ≠ .sending := by
    rintro rfl
    cases hdue
  cases h with
  | idle hfires hreplies =>
    refine ⟨rfl, ?_, ?_, fun _ => rfl⟩
    · exact count_fires_of_lt hfires
    · rw [hreplies]
      rfl
  | armed hdue hactive hfires hreplies =>
    refine ⟨hactive, ?_, ?_, ?_⟩
    · rw [hdue, List.count_append, count_fires_of_lt hfires]
      simp
    · rw [if_neg (sending_ne hdue), hreplies]
      rfl
    · rintro rfl
      cases hdue
  | fired hdue hcame hactive hfires hcount hreplies =>
    refine ⟨hactive, ?_, ?_, fun _ => rfl⟩
    · rw [hdue]
      exact hcount
    · rw [if_neg (sending_ne hdue), hreplies]
      rfl
  | sending hfires hreplies =>
    refine ⟨rfl, count_fires_of_lt hfires, ?_, nofun⟩
    rw [hreplies]
    rfl
  | replied hfires hreplies =>
    refine ⟨rfl, count_fires_of_lt hfires, ?_, nofun⟩
    rw [hreplies]
    rfl

namespace Actor

variable {now : Moment} {a : Actor}

theorem Sound.coupled (h : Sound now a) (hstage : a.stage = .running) : Coupled a := by
  obtain ⟨hactive, htimers, hopen, halarm⟩ := (h.wired hstage).counts
  have hsettled := h.settled hstage
  change a.pendingTimers = _ at htimers
  change a.transmissions = _ at hopen
  refine ⟨?_, ?_, ?_, ?_, ?_⟩
  · cases hp : a.manager.phase <;>
      simp_all [Phase.holds, Phase.due?, Option.isSome_iff_ne_none]
  · rw [hopen]
    split <;> omega
  · intro hqueue
    cases hp : a.manager.phase <;> simp_all [Phase.due?]
  · intro result hmem
    have hpos := replies_pos hmem
    have hphase : a.manager.phase = .sending := by
      by_contra hne
      rw [if_neg hne] at hopen
      unfold transmissions at hopen
      omega
    rw [hphase] at hactive
    exact ⟨hphase, Option.isSome_iff_ne_none.1 hactive⟩
  · intro hmem
    refine ⟨?_, ?_⟩
    · intro hdue
      have hpos := List.count_pos_iff.2 (mem_fires.2 hmem)
      rw [hdue] at htimers
      unfold pendingTimers at htimers
      rw [List.count_append] at htimers
      have : (none : Option Moment).toList.length = 0 := rfl
      omega
    · intro t hphase
      rcases hphase with hphase | hphase <;>
      · rw [hphase] at hactive
        exact Option.isSome_iff_ne_none.1 hactive

/-- A manager that is running is coupled, whatever it went through: replies to probes, requests,
alarms and replies in any order, with callers that stop waiting and requests that are not signed. -/
theorem coupled_of_running (name : PolicyName) (ds : List Deed)
    (h : ((new name).live ds).stage = .running) : Coupled ((new name).live ds) := by
  obtain ⟨now, hs⟩ := sound_live name ds
  exact hs.coupled h

/-- A path of one segment. -/
def plainEndpoint : Endpoint := ⟨"/a", rfl⟩

/-- A request for the root of an address. -/
def plainRequest : Request :=
  { method := "GET"
    url := ⟨"https", none, .segments [""], none, none⟩
    headers := .empty
    body := [] }

/-- Surroundings in which nobody gives up and everything is signed. -/
def plainSurroundings (now : Moment) : Surroundings :=
  { now
    config := .default
    authorizer := .none
    gone := fun _ => false
    violations := 0 }

/-- Two requests come, and the first of them leaves when its alarm goes off. -/
def twoRequests : List Deed :=
  [.post (.queue ⟨1, plainEndpoint, plainRequest⟩),
    .post (.queue ⟨2, plainEndpoint, plainRequest⟩),
    .command (plainSurroundings 0), .command (plainSurroundings 0), .ring 250000000,
    .signal (plainSurroundings 250000000)]

theorem coupled_twoRequests :
    ((new ⟨"p", rfl⟩).live twoRequests).outstanding = [1] ∧
      ((new ⟨"p", rfl⟩).live twoRequests).stage = .running ∧
      Coupled ((new ⟨"p", rfl⟩).live twoRequests) :=
  ⟨rfl, rfl, coupled_of_running ⟨"p", rfl⟩ twoRequests rfl⟩

end Actor

end Throttle
