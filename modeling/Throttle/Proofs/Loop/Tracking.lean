import Throttle.Proofs.Loop.Basic
import Throttle.Proofs.Manager.Planning
import Throttle.Proofs.Manager.Sending
import Throttle.Proofs.Policy.Consistency

/-!
  What a manager knows of the server in a closed loop. Its history is cut off at the highest limit,
  so it holds the newest accepted arrivals only (`Tracks`); those are all that any window counts up
  to its limit, so the server accepts whenever the history has room (`Tracks.accepts_of_room`).
  `Follows` says how the server's count and the history of a running manager go together when one
  reply may still be on its way, and that the server accepts from the planned instant on. Every deed
  of the manager keeps it (`Follows.change`).
-/

namespace Throttle

open Http

/-! ## The highest limit -/

/-- The most hits that any window allows. -/
def highest (ws : List Window) : Nat := (ws.map fun w => w.hits.toNat).foldr max 0

theorem hits_le_highest {ws : List Window} {w : Window} (hw : w ∈ ws) :
    w.hits.toNat ≤ highest ws := by
  induction ws with
  | nil => cases hw
  | cons v ws ih =>
    have hle : highest (v :: ws) = max v.hits.toNat (highest ws) := rfl
    rcases List.mem_cons.1 hw with rfl | hw
    · omega
    · have := ih hw
      omega

/-- The capacity that a policy asks for is the highest limit of its items. -/
theorem maximumHits_eq (p : Policy) : p.maximumHits = highest (p.items.map (·.limit)) := by
  rw [Policy.maximumHits_eq_foldr, highest, List.map_map]
  rfl

/-! ## The history as a window of the accepted arrivals -/

namespace Manager

variable {ws : List Window} {dates : List Moment} {m n : Manager} {reply : Reply} {p : Policy}

/-- A manager knows the windows of the server, and the newest of some dates. -/
structure Tracks (ws : List Window) (dates : List Moment) (m : Manager) : Prop where
  limits : m.policy.items.map (·.limit) = ws
  history : m.history = ⟨dates.take (highest ws), highest ws⟩

theorem Tracks.of_knows (h : n.Tracks ws dates) (hknows : m.KnowsAs n) : m.Tracks ws dates where
  limits := by rw [hknows.policy, h.limits]
  history := by rw [hknows.history, h.history]

/-- A reply that declares the windows adds its date to the history. -/
theorem tracks_heard (hdeclared : declaration reply = some (.ok p))
    (hlimits : p.items.map (·.limit) = ws)
    (hhistory : m.history.grow (highest ws) = ⟨dates.take (highest ws), highest ws⟩)
    (hlatest : ∀ d ∈ dates, d ≤ reply.date) : (m.heard reply).Tracks ws (reply.date :: dates) := by
  have hpolicy : (m.heard reply).policy = p := by
    simp only [heard_policy, policyAfter, hdeclared]
  have hmaximum : p.maximumHits = highest ws := by rw [maximumHits_eq, hlimits]
  refine ⟨by rw [hpolicy, hlimits], ?_⟩
  simp only [heard_history, historyAfter, hdeclared, hmaximum, hhistory, History.push]
  rw [History.place_of_latest fun d hd => hlatest d (List.mem_of_mem_take hd)]
  cases highest ws with
  | zero => rfl
  | succ k => simp [List.take_take]

/-- The server accepts whenever the history has room in every window. -/
theorem Tracks.accepts_of_room {t : Moment} (h : m.Tracks ws dates) (hdates : History.Falling dates)
    (hpos : ∀ w ∈ ws, 1 ≤ w.hits.toNat) (hroom : m.history.Room m.policy t) :
    Accepts ws dates t := by
  intro w hw
  have hlimit : w ∈ m.policy.items.map (·.limit) := by rwa [h.limits]
  obtain ⟨i, hi, rfl⟩ := List.mem_map.1 hlimit
  have hhas := hroom i hi (hpos _ hw)
  rw [h.history] at hhas
  have htake : History.Falling (dates.take (highest ws)) := hdates.sublist (List.take_sublist _ _)
  rw [History.hasRoom_iff htake (hpos _ hw)] at hhas
  rw [History.hasRoom_iff hdates (hpos _ hw)]
  -- the entry that decides about the window is among those that the history keeps
  have hplace : i.limit.hits.toNat - 1 < highest ws := by
    have hle := hits_le_highest hw
    have hone := hpos _ hw
    omega
  intro e he
  exact hhas e (by rwa [List.getElem?_take_of_lt hplace])

end Manager

/-! ## Phases of a manager that is never refused -/

/-- A phase of a manager that no reply has held back. -/
def Phase.Plain : Phase → Prop
  | .idle => True
  | .activating _ => True
  | .sending => True
  | .violationWait _ => False
  | .suspended _ => False

theorem Phase.Plain.activating_of_due {phase : Phase} {t : Moment} (h : phase.Plain)
    (hdue : phase.due? = some t) : phase = .activating t := by
  cases phase with
  | idle => cases hdue
  | activating u => exact congrArg Phase.activating (Option.some.inj hdue)
  | sending => cases hdue
  | violationWait u => exact h.elim
  | suspended u => exact h.elim

namespace Manager

variable {s : Surroundings} {m m' : Manager} {msg : Message} {os : List Output}

theorem Activation.plain (h : Activation s m m' os) (hm : m.phase.Plain) : m'.phase.Plain := by
  cases h with
  | busy hbusy => exact hm
  | drained hactive hphase hgone => exact hm
  | planned gone rest p sendAt hactive hphase hqueue hgone hlive hsend => trivial

/-- Only a refusal and malformed headers hold a manager back. -/
theorem Handling.plain (h : Handling s m msg m' os) (hm : m.phase.Plain)
    (hmsg : ∀ reply, msg = .reply (.ok reply) →
      reply.isViolation = false ∧ ∀ e, verdict reply ≠ .malformed e) : m'.phase.Plain := by
  cases h with
  | seeded haccepted next => exact next.plain hm
  | seedRefused hrefused hpaused hlapse next => exact next.plain hm
  | joinedGone hgone => exact hm
  | joined hlive next => exact next.plain hm
  | fireStale hstale => exact hm
  | fireIdle hphase => exact hm
  | resumed hphase next => exact next.plain trivial
  | fireEmpty hphase hactive next => exact next.plain trivial
  | skipped hphase hactive hgone next => exact next.plain trivial
  | unsigned hphase hactive hlive hsigned next => exact next.plain trivial
  | sent hphase hactive hlive hsigned => trivial
  | stray hphase => exact hm
  | lost hphase next => exact next.plain trivial
  | passed hphase haccepted hclear next => exact next.plain trivial
  | suspended hphase haccepted hmalformed hresume =>
    exact absurd hmalformed ((hmsg _ rfl).2 _)
  | refused hphase hrefused hlapse next =>
    have haccepted := (hmsg _ rfl).1
    rw [hrefused] at haccepted
    cases haccepted

end Manager

/-! ## A running manager and the server -/

/-- A reply that the server sends to an arrival that it accepts, as far as a manager is concerned:
it is no refusal, and it declares the windows. -/
structure Tells (ws : List Window) (reply : Reply) : Prop where
  granted : reply.isViolation = false
  declared : ∃ p, Manager.declaration reply = some (.ok p) ∧ p.items.map (·.limit) = ws

theorem Grants.tells {ws : List Window} {accepted : List Moment} {now : Moment} {sender : Sender}
    {reply : Reply} (h : Grants ws accepted now sender reply) : Tells ws reply := by
  obtain ⟨p, hp, hlimits, -⟩ := h.declares
  refine ⟨h.granted, p, ?_, hlimits⟩
  obtain ⟨r, hr, hok⟩ := Option.bind_eq_some_iff.1 hp
  cases r with
  | error e => cases hok
  | ok q =>
    cases hok
    exact hr

theorem Tells.clear {ws : List Window} {reply : Reply} (h : Tells ws reply) (e : PolicyError) :
    Manager.verdict reply ≠ .malformed e := by
  obtain ⟨p, hp, -⟩ := h.declared
  simp [Manager.verdict, hp]

namespace Actor

variable {ws : List Window} {accepted : List Moment} {incoming : List Reply} {now : Moment}
  {s : Surroundings} {a b : Actor} {d : Deed} {ns : List Mark} {os : List Output}

/-- The accepted arrivals are those that the history of a manager goes back to, and at most one more
whose reply is in the inbox or on its way. -/
def Accounted (ws : List Window) (accepted : List Moment) (incoming : List Reply) (a : Actor) :
    Prop :=
  ∃ (unheard : Option Reply) (dates : List Moment),
    resultsIn a.inbox ++ incoming.map .ok = unheard.toList.map .ok ∧
      accepted = unheard.toList.map (·.date) ++ dates ∧
      (∀ reply, unheard = some reply → Tells ws reply) ∧ a.manager.Tracks ws dates

/-- A running manager that has taken in the reply of the probe, and the server: its counts are
accounted for, and a planned send is planned for an instant from which the server accepts. -/
structure Follows (ws : List Window) (accepted : List Moment) (incoming : List Reply)
    (a : Actor) : Prop where
  unseeded : ∀ reply, .seed reply ∉ a.mailbox
  plain : a.manager.phase.Plain
  accounted : Accounted ws accepted incoming a
  planned : ∀ t, a.manager.phase = .activating t → ∀ u, t ≤ u → Accepts ws accepted u

/-- Once every reply is taken in, the history goes back over all accepted arrivals. -/
theorem Accounted.all (h : Accounted ws accepted incoming a) (hinbox : resultsIn a.inbox = [])
    (hincoming : incoming = []) : a.manager.Tracks ws accepted := by
  obtain ⟨unheard, dates, hresults, haccepted, -, htracks⟩ := h
  rw [hinbox, hincoming] at hresults
  cases unheard with
  | none =>
    have hsame : accepted = dates := haccepted
    rwa [hsame]
  | some reply => cases hresults

/-- Handling a message keeps the account: only a reply changes the history, and it is the one that
was still to be heard. -/
theorem Follows.accounted_handled {c : Actor} {msg : Manager.Message} {m' : Manager}
    (h : Follows ws accepted incoming a) (hs : Sound now a) (hstage : a.stage = .running)
    (hfalling : History.Falling accepted) (hincoming : a.outstanding = [] → incoming = [])
    (htakes : a.Takes msg c) (hhandled : Manager.Handling s a.manager msg m' os) :
    Accounted ws accepted incoming (c.after .running m' os) ∧ m'.phase.Plain := by
  obtain ⟨unheard, dates, hresults, haccepted, htells, htracks⟩ := h.accounted
  have hlearns := hhandled.learns
  -- a message that is no reply teaches nothing
  have silent (hmsg : ∀ result, msg ≠ .reply result)
      (hlearning : a.manager.learning msg = a.manager) :
      Accounted ws accepted incoming (c.after .running m' os) ∧ m'.phase.Plain := by
    rw [hlearning] at hlearns
    have hinbox : resultsIn c.inbox = resultsIn a.inbox := htakes.resultsIn_eq hmsg
    refine ⟨⟨unheard, dates, ?_, haccepted, htells, htracks.of_knows hlearns⟩, ?_⟩
    · rw [after_inbox, hinbox, hresults]
    · exact hhandled.plain h.plain fun reply heq => absurd heq (hmsg _)
  cases htakes with
  | seed hmailbox =>
    have hmem : _ ∈ a.mailbox := hmailbox ▸ List.mem_cons_self
    exact absurd hmem (h.unseeded _)
  | queue hmailbox => exact silent nofun rfl
  | fire hinbox => exact silent nofun rfl
  | @reply result rest hinbox =>
    have hwired := hs.wired hstage
    rw [hinbox] at hwired
    obtain ⟨hsending, -, -, hnone, -, hrest⟩ := hwired.of_reply
    have hrestIn : resultsIn rest = [] := resultsIn_of_replies hrest
    have hall : resultsIn a.inbox = [result] := by
      rw [hinbox]
      exact congrArg (result :: ·) hrestIn
    rw [hall, hincoming hnone] at hresults
    cases unheard with
    | none => cases hresults
    | some reply =>
      obtain rfl : result = .ok reply := List.head_eq_of_cons_eq hresults
      have htold := htells reply rfl
      obtain ⟨p, hdeclared, hlimits⟩ := htold.declared
      have hdates : accepted = reply.date :: dates := haccepted
      refine ⟨⟨none, accepted, ?_, rfl, nofun, ?_⟩, ?_⟩
      · rw [after_inbox, hrestIn, hincoming hnone]
        rfl
      · rw [Manager.learning, if_pos hsending] at hlearns
        have hlatest : ∀ d ∈ dates, d ≤ reply.date := by
          rw [hdates] at hfalling
          exact (List.pairwise_cons.1 hfalling).1
        have hgrow : a.manager.history.grow (highest ws) =
            ⟨dates.take (highest ws), highest ws⟩ := by
          rw [htracks.history]
          simp [History.grow]
        rw [hdates]
        exact (Manager.tracks_heard hdeclared hlimits hgrow hlatest).of_knows hlearns
      · refine hhandled.plain h.plain ?_
        intro r hr
        cases hr
        exact ⟨htold.granted, htold.clear⟩

/-- A planned send stays planned for an instant from which the server accepts; a new plan is made
with a history that goes back over all accepted arrivals. -/
theorem planned_change (hchange : Change a d b ns) (hstage : b.stage = .running)
    (hs : Sound now b) (htidy : a.stage = .running → a.manager.history.Tidy)
    (hbefore : ∀ t, a.manager.phase = .activating t → ∀ u, t ≤ u → Accepts ws accepted u)
    (haccounted : Accounted ws accepted incoming b) (hincoming : b.outstanding = [] → incoming = [])
    (hfalling : History.Falling accepted) (hpos : ∀ w ∈ ws, 1 ≤ w.hits.toNat) :
    ∀ t, b.manager.phase = .activating t → ∀ u, t ≤ u → Accepts ws accepted u := by
  intro t ht u hu
  rcases hchange.plans htidy hstage ht with ⟨hrunning, ⟨hold, -, -⟩ | ⟨-, hroom⟩⟩
  · exact hbefore t hold u hu
  · have hnot : b.manager.phase ≠ .sending := by
      rw [ht]
      nofun
    obtain ⟨hnone, hinbox⟩ := hs.quiet hstage hnot
    have htracks := haccounted.all hinbox (hincoming hnone)
    exact htracks.accepts_of_room hfalling hpos (hroom u hu)

/-- A running manager goes on following the server, whatever it does. -/
theorem Follows.change (h : Follows ws accepted incoming a) (hchange : Change a d b ns)
    (hfeeds : ¬ d.Feeds) (hreturned : ∀ id result, d ≠ .returned id result) (hs : Sound now a)
    {now' : Moment} (hs' : Sound now' b) (htidy : a.stage = .running → a.manager.history.Tidy)
    (hincoming : a.outstanding = [] → incoming = []) (hfalling : History.Falling accepted)
    (hpos : ∀ w ∈ ws, 1 ≤ w.hits.toNat) (hstage : b.stage = .running) :
    Follows ws accepted incoming b := by
  have hlater : b.outstanding = [] → incoming = [] := by
    rw [hchange.outstanding_eq hreturned]
    exact fun hnil => hincoming (List.append_eq_nil_iff.1 hnil).1
  have hplanned (haccounted : Accounted ws accepted incoming b) :=
    planned_change hchange hstage hs' htidy h.planned haccounted hlater hfalling hpos
  have advance {s : Surroundings} {os : List Output} (hadvance : Advance s a b os) :
      Follows ws accepted incoming b := by
    obtain ⟨hrunning, msg, c, m', htakes, hhandled, rfl⟩ := hadvance.running hstage
    obtain ⟨haccounted, hplain⟩ := h.accounted_handled hs hrunning hfalling hincoming htakes hhandled
    refine ⟨?_, hplain, haccounted, hplanned haccounted⟩
    intro reply hmem
    exact h.unseeded reply (htakes.mem_mailbox hmem)
  cases hchange with
  | none d hseeds => exact h
  | posted c hrunning => exact absurd trivial hfeeds
  | commanded hadvance hinbox => exact advance hadvance
  | signaled hadvance hmailbox => exact advance hadvance
  | @rang t x halarm hdue =>
    obtain ⟨unheard, dates, hresults, haccount⟩ := h.accounted
    refine ⟨h.unseeded, h.plain, ⟨unheard, dates, ?_, haccount⟩, h.planned⟩
    rw [← hresults]
    exact congrArg (· ++ _) (resultsIn_ring a.inbox x.generation)
  | returned result hid => exact absurd rfl (hreturned _ _)
  | disconnected => exact absurd trivial hfeeds

/-- More requests in the mailbox change nothing. -/
theorem Follows.fed (h : Follows ws accepted incoming a) {cs : List Command} (connected : Bool)
    (hcs : ∀ reply, .seed reply ∉ cs) :
    Follows ws accepted incoming { a with mailbox := a.mailbox ++ cs, connected } where
  unseeded reply hmem := (List.mem_append.1 hmem).elim (h.unseeded reply) (hcs reply)
  plain := h.plain
  accounted := h.accounted
  planned := h.planned

/-- The server accepts the request under way; the reply is on its way back. -/
theorem Follows.arrived {reply : Reply} (h : Follows ws accepted [] a) (hs : Sound now a)
    (hstage : a.stage = .running) (hout : a.outstanding ≠ []) (htells : Tells ws reply) :
    Follows ws (reply.date :: accepted) [reply] a := by
  obtain ⟨hsending, hinbox⟩ := hs.waiting hstage hout
  have htracks := h.accounted.all hinbox rfl
  refine ⟨h.unseeded, h.plain, ⟨some reply, accepted, ?_, rfl, ?_, htracks⟩, ?_⟩
  · rw [hinbox]
    rfl
  · intro r hr
    rwa [← Option.some.inj hr]
  · intro t ht
    rw [hsending] at ht
    cases ht

/-- The reply comes into the inbox. -/
theorem Follows.returned {reply : Reply} (h : Follows ws accepted [reply] a) (id : Nat) :
    Follows ws accepted []
      { a with outstanding := a.outstanding.erase id, inbox := a.inbox ++ [.reply (.ok reply)] } := by
  obtain ⟨unheard, dates, hresults, haccount⟩ := h.accounted
  refine ⟨h.unseeded, h.plain, ⟨unheard, dates, ?_, haccount⟩, h.planned⟩
  rw [← hresults, resultsIn_append]
  exact List.append_nil _

/-! ## A new manager and the server -/

/-- A manager that has not taken in the reply of the probe, the only arrival that the server has
accepted. -/
structure Fresh (ws : List Window) (accepted : List Moment) (a : Actor) : Prop where
  manager : ∃ name, a.manager = .new name
  mailbox : ∃ reply cs, a.mailbox = .seed reply :: cs ∧ (∀ r, .seed r ∉ cs) ∧ Tells ws reply ∧
    accepted = [reply.date]
  inbox : a.inbox = []
  alarm : a.alarm = none
  outstanding : a.outstanding = []

theorem Fresh.fed (h : Fresh ws accepted a) {cs : List Command} (connected : Bool)
    (hcs : ∀ reply, .seed reply ∉ cs) :
    Fresh ws accepted { a with mailbox := a.mailbox ++ cs, connected } where
  manager := h.manager
  mailbox := by
    obtain ⟨reply, es, hmailbox, hes, htells⟩ := h.mailbox
    refine ⟨reply, es ++ cs, by rw [hmailbox]; rfl, ?_, htells⟩
    intro r hmem
    exact (List.mem_append.1 hmem).elim (hes r) (hcs r)
  inbox := h.inbox
  alarm := h.alarm
  outstanding := h.outstanding

/-- The first message of a new manager is the reply of the probe. -/
theorem Fresh.accounted_handled {c : Actor} {msg : Manager.Message} {m' : Manager}
    (h : Fresh ws accepted a) (htakes : a.Takes msg c)
    (hhandled : Manager.Handling s a.manager msg m' os) :
    (∀ reply, .seed reply ∉ c.mailbox) ∧ m'.phase.Plain ∧
      Accounted ws accepted [] (c.after .running m' os) := by
  obtain ⟨name, hmanager⟩ := h.manager
  obtain ⟨reply, cs, hmailbox, hunseeded, htells, haccepted⟩ := h.mailbox
  cases htakes with
  | seed hseed =>
    rw [hmailbox] at hseed
    cases hseed
    obtain ⟨p, hdeclared, hlimits⟩ := htells.declared
    have hgrow : a.manager.history.grow (highest ws) =
        ⟨([] : List Moment).take (highest ws), highest ws⟩ := by
      rw [hmanager]
      simp [Manager.new, History.grow, History.empty]
    have htracks : m'.Tracks ws [reply.date] :=
      (Manager.tracks_heard hdeclared hlimits hgrow (List.forall_mem_nil _)).of_knows
        hhandled.learns
    refine ⟨hunseeded, hhandled.plain ?_ nofun, none, [reply.date], ?_, haccepted, nofun, htracks⟩
    · rw [hmanager]
      trivial
    · rw [after_inbox, h.inbox]
      rfl
  | queue hqueue =>
    rw [hmailbox] at hqueue
    cases hqueue
  | fire hinbox =>
    rw [h.inbox] at hinbox
    cases hinbox
  | reply hinbox =>
    rw [h.inbox] at hinbox
    cases hinbox

/-- A new manager takes in the reply of the probe before it plans anything. -/
theorem Fresh.change (h : Fresh ws accepted a) (hchange : Change a d b ns) (hfeeds : ¬ d.Feeds)
    (hs : Sound now b) (htidy : a.stage = .running → a.manager.history.Tidy)
    (hpos : ∀ w ∈ ws, 1 ≤ w.hits.toNat) (hstage : b.stage = .running) :
    Fresh ws accepted b ∨ Follows ws accepted [] b := by
  have hidle (t : Moment) : a.manager.phase ≠ .activating t := by
    obtain ⟨name, hmanager⟩ := h.manager
    rw [hmanager]
    nofun
  have hfalling : History.Falling accepted := by
    obtain ⟨reply, cs, -, -, -, haccepted⟩ := h.mailbox
    rw [haccepted]
    exact List.pairwise_singleton _ _
  have advance {s : Surroundings} {os : List Output} (hadvance : Advance s a b os) :
      Follows ws accepted [] b := by
    obtain ⟨hrunning, msg, c, m', htakes, hhandled, rfl⟩ := hadvance.running hstage
    obtain ⟨hunseeded, hplain, haccounted⟩ := h.accounted_handled htakes hhandled
    have hplanned := planned_change hchange hstage hs htidy (fun t ht => absurd ht (hidle t))
      haccounted (fun _ => rfl) hfalling hpos
    exact ⟨hunseeded, hplain, haccounted, hplanned⟩
  cases hchange with
  | none d hseeds => exact .inl h
  | posted c hrunning => exact absurd trivial hfeeds
  | commanded hadvance hinbox => exact .inr (advance hadvance)
  | signaled hadvance hmailbox => exact .inr (advance hadvance)
  | rang halarm hdue =>
    rw [h.alarm] at halarm
    cases halarm
  | returned result hid =>
    rw [h.outstanding] at hid
    cases hid
  | disconnected => exact absurd trivial hfeeds

end Actor

end Throttle
