import Throttle.Proofs.Manager.Handling

/-!
  How the phase of a manager is tied to its active place, its alarm and its transmission.

  `Wired` has one constructor for each way in which they go together: nothing to do, an alarm set,
  an alarm gone off and not handled, a request under way, a reply not handled. Handling a message
  leads from one to another (`Handling.wired`), and the queue of an idle manager is empty
  afterwards. Alarms are told apart by their generation: an alarm that was set anew may still have
  an earlier one in the inbox, which counts for nothing.
-/

namespace Throttle

open Http

/-! ## Signals on their way -/

/-- The generation of an alarm that went off. -/
def Signal.fire? : Signal → Option Nat
  | .fire generation => some generation
  | .reply _ => none

def Signal.isReply : Signal → Bool
  | .fire _ => false
  | .reply _ => true

/-- The alarms in an inbox that went off, by generation. -/
def fires (inbox : List Signal) : List Nat := inbox.filterMap Signal.fire?

/-- How many transmissions in an inbox have come to an end. -/
def replies (inbox : List Signal) : Nat := inbox.countP Signal.isReply

@[simp] theorem fires_fire (g : Nat) (inbox : List Signal) :
    fires (.fire g :: inbox) = g :: fires inbox := rfl

@[simp] theorem fires_reply (r : Except TransportFailure Reply) (inbox : List Signal) :
    fires (.reply r :: inbox) = fires inbox := rfl

@[simp] theorem fires_append (xs ys : List Signal) : fires (xs ++ ys) = fires xs ++ fires ys :=
  List.filterMap_append

@[simp] theorem replies_fire (g : Nat) (inbox : List Signal) :
    replies (.fire g :: inbox) = replies inbox :=
  List.countP_cons_of_neg (by simp [Signal.isReply])

@[simp] theorem replies_reply (r : Except TransportFailure Reply) (inbox : List Signal) :
    replies (.reply r :: inbox) = replies inbox + 1 :=
  List.countP_cons_of_pos rfl

@[simp] theorem replies_append (xs ys : List Signal) :
    replies (xs ++ ys) = replies xs + replies ys :=
  List.countP_append

/-- A request has the active place. -/
def Phase.holds : Phase → Bool
  | .idle => false
  | .activating _ => true
  | .sending => true
  | .violationWait _ => true
  | .suspended _ => false

/-- The signal by which a message comes, if it does not come through the mailbox. -/
def Manager.Message.signals : Manager.Message → List Signal
  | .seed _ => []
  | .queue _ => []
  | .fire generation => [.fire generation]
  | .reply result => [.reply result]

/-! ## The ways in which they go together -/

/-- A manager of generation `g` at an instant: its inbox, phase, active request, alarm, and the
transmissions that have not come to an end. -/
inductive Wired (now : Moment) (g : Nat) (inbox : List Signal) :
    Phase → Option Pending → Option Alarm → List Nat → Prop where
  | idle (hfires : ∀ f ∈ fires inbox, f < g) (hreplies : replies inbox = 0) :
      Wired now g inbox .idle none none []
  | armed {phase : Phase} {active : Option Pending} {t : Moment} (hdue : phase.due? = some t)
      (hactive : active.isSome = phase.holds) (hfires : ∀ f ∈ fires inbox, f < g)
      (hreplies : replies inbox = 0) :
      Wired now g inbox phase active (some ⟨g, t⟩) []
  | fired {phase : Phase} {active : Option Pending} {t : Moment} (hdue : phase.due? = some t)
      (hcame : t ≤ now) (hactive : active.isSome = phase.holds) (hfires : ∀ f ∈ fires inbox, f ≤ g)
      (hcount : (fires inbox).count g = 1) (hreplies : replies inbox = 0) :
      Wired now g inbox phase active none []
  | sending {p : Pending} (hfires : ∀ f ∈ fires inbox, f < g) (hreplies : replies inbox = 0) :
      Wired now g inbox .sending (some p) none [p.id]
  | replied {p : Pending} (hfires : ∀ f ∈ fires inbox, f < g) (hreplies : replies inbox = 1) :
      Wired now g inbox .sending (some p) none []

namespace Wired

variable {now now' : Moment} {g : Nat} {inbox : List Signal} {phase : Phase}
  {active : Option Pending} {alarm : Option Alarm} {outstanding : List Nat}

theorem mono (h : Wired now g inbox phase active alarm outstanding) (hle : now ≤ now') :
    Wired now' g inbox phase active alarm outstanding := by
  cases h with
  | idle hfires hreplies => exact .idle hfires hreplies
  | armed hdue hactive hfires hreplies => exact .armed hdue hactive hfires hreplies
  | fired hdue hcame hactive hfires hcount hreplies =>
    exact .fired hdue (Int.le_trans hcame hle) hactive hfires hcount hreplies
  | sending hfires hreplies => exact .sending hfires hreplies
  | replied hfires hreplies => exact .replied hfires hreplies

/-- Setting the alarm anew puts an end to all that went off before. -/
theorem arm {t : Moment} (hdue : phase.due? = some t) (hactive : active.isSome = phase.holds)
    (hfires : ∀ f ∈ fires inbox, f < g) (hreplies : replies inbox = 0) :
    Wired now (g + 1) inbox phase active (some ⟨g + 1, t⟩) [] :=
  .armed hdue hactive (fun f hf => Nat.lt_succ_of_lt (hfires f hf)) hreplies

/-- The alarm goes off. -/
theorem ring {x : Alarm} (h : Wired now g inbox phase active (some x) outstanding)
    (hcame : x.due ≤ now) :
    Wired now g (inbox ++ [.fire x.generation]) phase active none outstanding := by
  cases h with
  | armed hdue hactive hfires hreplies =>
    refine .fired hdue hcame hactive ?_ ?_ ?_
    · intro f hf
      rw [fires_append, List.mem_append] at hf
      rcases hf with hf | hf
      · exact Nat.le_of_lt (hfires f hf)
      · exact Nat.le_of_eq (List.mem_singleton.1 hf)
    · rw [fires_append, List.count_append, fires_fire,
        List.count_eq_zero_of_not_mem fun hm => Nat.lt_irrefl _ (hfires _ hm)]
      simp [fires]
    · rw [replies_append, hreplies]
      rfl

/-- A transmission that has not come to an end is that of the active request. -/
theorem of_outstanding {id : Nat} (h : Wired now g inbox phase active alarm outstanding)
    (hid : id ∈ outstanding) :
    phase = .sending ∧ ∃ p, active = some p ∧ id = p.id := by
  cases h with
  | idle => cases hid
  | armed => cases hid
  | fired => cases hid
  | replied => cases hid
  | sending hfires hreplies => exact ⟨rfl, _, rfl, List.mem_singleton.1 hid⟩

/-- The transmission comes to an end. -/
theorem returned {id : Nat} (result : Except TransportFailure Reply)
    (h : Wired now g inbox phase active alarm outstanding) (hid : id ∈ outstanding) :
    Wired now g (inbox ++ [.reply result]) phase active alarm (outstanding.erase id) := by
  cases h with
  | idle => cases hid
  | armed => cases hid
  | fired => cases hid
  | replied => cases hid
  | sending hfires hreplies =>
    obtain rfl := List.mem_singleton.1 hid
    rw [List.erase_cons_head]
    refine .replied ?_ ?_
    · intro f hf
      rw [fires_append, List.mem_append] at hf
      rcases hf with hf | hf
      · exact hfires f hf
      · cases hf
    · rw [replies_append, hreplies]
      rfl

/-- An alarm that does not count any more is thrown away. -/
theorem drop_stale {f : Nat} (h : Wired now g (.fire f :: inbox) phase active alarm outstanding)
    (hstale : f ≠ g) : Wired now g inbox phase active alarm outstanding := by
  have tail {P : Nat → Prop} (hP : ∀ x ∈ fires (.fire f :: inbox), P x) :
      ∀ x ∈ fires inbox, P x :=
    fun x hx => hP x (List.mem_cons_of_mem _ hx)
  cases h with
  | idle hfires hreplies => exact .idle (tail hfires) (by simpa using hreplies)
  | armed hdue hactive hfires hreplies =>
    exact .armed hdue hactive (tail hfires) (by simpa using hreplies)
  | fired hdue hcame hactive hfires hcount hreplies =>
    rw [fires_fire, List.count_cons_of_ne hstale] at hcount
    exact .fired hdue hcame hactive (tail hfires) hcount (by simpa using hreplies)
  | sending hfires hreplies => exact .sending (tail hfires) (by simpa using hreplies)
  | replied hfires hreplies => exact .replied (tail hfires) (by simpa using hreplies)

/-- Nothing at all is under way to an idle manager. -/
theorem of_idle (h : Wired now g inbox .idle active alarm outstanding) :
    active = none ∧ alarm = none ∧ outstanding = [] ∧ (∀ f ∈ fires inbox, f < g) ∧
      replies inbox = 0 := by
  cases h with
  | idle hfires hreplies => exact ⟨rfl, rfl, rfl, hfires, hreplies⟩
  | armed hdue => cases hdue
  | fired hdue => cases hdue

/-- An alarm that counts has gone off: its manager waits for it, and nothing is under way. -/
theorem of_fire (h : Wired now g (.fire g :: inbox) phase active alarm outstanding) :
    (∃ t, phase.due? = some t ∧ t ≤ now) ∧ active.isSome = phase.holds ∧ alarm = none ∧
      outstanding = [] ∧ (∀ f ∈ fires inbox, f < g) ∧ replies inbox = 0 := by
  have current {P : Prop} (hfires : ∀ f ∈ fires (.fire g :: inbox), f < g) : P :=
    absurd (hfires g List.mem_cons_self) (Nat.lt_irrefl g)
  cases h with
  | idle hfires => exact current hfires
  | armed hdue hactive hfires => exact current hfires
  | sending hfires => exact current hfires
  | replied hfires => exact current hfires
  | fired hdue hcame hactive hfires hcount hreplies =>
    refine ⟨⟨_, hdue, hcame⟩, hactive, rfl, rfl, ?_, by simpa using hreplies⟩
    intro f hf
    refine Nat.lt_of_le_of_ne (hfires f (List.mem_cons_of_mem _ hf)) ?_
    rintro rfl
    rw [fires_fire, List.count_cons_self] at hcount
    have := List.count_pos_iff.2 hf
    omega

/-- A transmission has come to an end: it was that of the active request, and nothing else is
under way. -/
theorem of_reply {result : Except TransportFailure Reply}
    (h : Wired now g (.reply result :: inbox) phase active alarm outstanding) :
    phase = .sending ∧ active ≠ none ∧ alarm = none ∧ outstanding = [] ∧
      (∀ f ∈ fires inbox, f < g) ∧ replies inbox = 0 := by
  have none_left {P : Prop} (hreplies : replies (.reply result :: inbox) = 0) : P := by
    rw [replies_reply] at hreplies
    exact absurd hreplies (Nat.succ_ne_zero _)
  cases h with
  | idle _ hreplies => exact none_left hreplies
  | armed _ _ _ hreplies => exact none_left hreplies
  | fired _ _ _ _ _ hreplies => exact none_left hreplies
  | sending _ hreplies => exact none_left hreplies
  | replied hfires hreplies =>
    rw [replies_reply] at hreplies
    exact ⟨rfl, nofun, rfl, rfl, hfires, Nat.succ.inj hreplies⟩

end Wired

/-! ## Handling keeps the wiring -/

open Manager

variable {s : Surroundings} {m m' : Manager} {os : List Output} {now : Moment}
  {inbox : List Signal} {alarm : Option Alarm} {outstanding : List Nat}

/-- Turning to the queue keeps the wiring, and leaves an idle manager with an empty queue. -/
theorem Manager.Activation.wired (h : Activation s m m' os)
    (hw : Wired now m.generation inbox m.phase m.active alarm outstanding) :
    Wired now m'.generation inbox m'.phase m'.active (alarmAfter os alarm)
        (outstanding ++ sends os) ∧
      (m'.phase = .idle → m'.queue = []) := by
  cases h with
  | busy hbusy =>
    rw [sends_nil, List.append_nil]
    refine ⟨hw, ?_⟩
    intro hidle
    rw [hidle] at hw hbusy
    rcases hbusy with hne | hne
    · exact absurd hw.of_idle.1 hne
    · exact absurd rfl hne
  | drained hactive hphase hgone =>
    have hq : AllQuiet (if m.queue ≠ [] then [{ m with queue := [] : Manager }.queueUpdated]
        else []) :=
      allQuiet_ite (allQuiet_cons trivial allQuiet_nil)
    rw [sends_append, alarmAfter_append, hq.alarmAfter_eq, hq.sends_eq]
    simp only [flatMap_abandon_quiet, AllQuiet.alarmAfter_eq, AllQuiet.sends_eq, List.append_nil]
    exact ⟨hw, fun _ => trivial⟩
  | planned gone rest p sendAt hactive hphase hqueue hgone hlive hsend =>
    rw [hphase] at hw
    obtain ⟨-, rfl, rfl, hfires, hreplies⟩ := hw.of_idle
    refine ⟨?_, ?_⟩
    · simp only [sends_append, alarmAfter_append, flatMap_abandon_quiet, AllQuiet.sends_eq,
        AllQuiet.alarmAfter_eq, queueUpdated, sends_event, alarmAfter_event, sends_planOutputs,
        alarmAfter_planOutputs, List.append_nil]
      exact .arm rfl rfl hfires hreplies
    · intro hidle
      cases hidle

/-- Turning to the queue with nothing under way. -/
theorem Manager.Activation.wired_of_clear (h : Activation s m m' os) (hphase : m.phase = .idle)
    (hactive : m.active = none) (hfires : ∀ f ∈ fires inbox, f < m.generation)
    (hreplies : replies inbox = 0) :
    Wired now m'.generation inbox m'.phase m'.active (alarmAfter os none) (sends os) ∧
      (m'.phase = .idle → m'.queue = []) := by
  have hw : Wired now m.generation inbox m.phase m.active none [] := by
    rw [hphase, hactive]
    exact .idle hfires hreplies
  exact h.wired hw

/-- Handling a message keeps the wiring, and leaves an idle manager with an empty queue. -/
theorem Manager.Handling.wired {msg : Message} (h : Handling s m msg m' os)
    (hw : Wired now m.generation (msg.signals ++ inbox) m.phase m.active alarm outstanding)
    (hidle : m.phase = .idle → m.queue = []) :
    Wired now m'.generation inbox m'.phase m'.active (alarmAfter os alarm)
        (outstanding ++ sends os) ∧
      (m'.phase = .idle → m'.queue = []) := by
  cases h with
  | seeded haccepted next =>
    have hw : Wired now m.generation inbox m.phase m.active alarm outstanding := hw
    simpa using next.wired hw
  | seedRefused hrefused hpaused hlapse next =>
    have hw : Wired now m.generation inbox m.phase m.active alarm outstanding := hw
    simpa using next.wired hw
  | joinedGone hgone => simpa using ⟨hw, hidle⟩
  | joined hlive next =>
    have hw : Wired now m.generation inbox m.phase m.active alarm outstanding := hw
    simpa [queueUpdated] using next.wired hw
  | fireStale hstale => simpa using ⟨hw.drop_stale hstale, hidle⟩
  | fireIdle hphase =>
    obtain ⟨⟨t, hdue, -⟩, -⟩ := hw.of_fire
    rcases hphase with hphase | hphase <;> rw [hphase] at hdue <;> cases hdue
  | resumed hphase next =>
    obtain ⟨-, hactive, rfl, rfl, hfires, hreplies⟩ := hw.of_fire
    have hnone : m.active = none := by
      rw [hphase] at hactive
      simpa [Phase.holds] using hactive
    simpa using next.wired_of_clear rfl hnone hfires hreplies
  | fireEmpty hphase hnone next =>
    obtain ⟨-, hactive, -⟩ := hw.of_fire
    obtain ⟨t, hphase | hphase⟩ := hphase <;> rw [hphase, hnone] at hactive <;> cases hactive
  | skipped hphase hactive hgone next =>
    obtain ⟨-, -, rfl, rfl, hfires, hreplies⟩ := hw.of_fire
    simpa using next.wired_of_clear rfl rfl hfires hreplies
  | unsigned hphase hactive hlive hsigned next =>
    obtain ⟨-, -, rfl, rfl, hfires, hreplies⟩ := hw.of_fire
    simpa using next.wired_of_clear rfl rfl hfires hreplies
  | sent hphase hactive hlive hsigned =>
    obtain ⟨-, -, rfl, rfl, hfires, hreplies⟩ := hw.of_fire
    refine ⟨?_, ?_⟩
    · rw [hactive]
      exact .sending hfires hreplies
    · intro hidle
      cases hidle
  | stray hphase => exact absurd hw.of_reply.1 hphase
  | lost hphase next =>
    obtain ⟨-, -, rfl, rfl, hfires, hreplies⟩ := hw.of_reply
    simpa using next.wired_of_clear rfl rfl hfires hreplies
  | passed hphase haccepted hclear next =>
    obtain ⟨-, -, rfl, rfl, hfires, hreplies⟩ := hw.of_reply
    simpa using next.wired_of_clear rfl rfl hfires hreplies
  | @suspended _ _ resume hphase haccepted hmalformed hresume =>
    obtain ⟨-, -, rfl, rfl, hfires, hreplies⟩ := hw.of_reply
    refine ⟨?_, ?_⟩
    · have hset : Wired now (m.generation + 1) inbox (.suspended resume) none
          (some ⟨m.generation + 1, resume⟩) [] :=
        .arm rfl rfl hfires hreplies
      simpa using hset
    · intro hidle
      cases hidle
  | refused hphase hrefused hlapse next =>
    obtain ⟨-, -, rfl, rfl, hfires, hreplies⟩ := hw.of_reply
    cases next with
    | empty hactive next => simpa using next.wired_of_clear rfl hactive hfires hreplies
    | skipped hactive hgone next => simpa using next.wired_of_clear rfl rfl hfires hreplies
    | @again _ sendAt hactive hlive hsend =>
      refine ⟨?_, ?_⟩
      · have hset : Wired now (m.generation + 1) inbox (.violationWait sendAt) m.active
            (some ⟨m.generation + 1, sendAt⟩) [] :=
          .arm rfl (congrArg Option.isSome hactive) hfires hreplies
        simpa using hset
      · intro hidle
        cases hidle

end Throttle
