import Throttle.Proofs.Loop.Tracking
import Throttle.Proofs.Manager.Knowledge

/-!
  How far a plan of a manager is off the limits of the server. `planned` of `Follows` compares the
  planned instant with the dates of the server, as if there were one clock. The margin that is added
  to the safe instant makes up for a server whose clock shows less: near a limit the borderline
  margin is added (`borderline_le_of_sendTime`), and away from every limit there is room in any case,
  as the reply that was heard last states the true counts (`Reads.accepts`). `Informed` says what a
  running manager needs for this, and every deed keeps it (`Informed.change`).
-/

namespace Throttle

open Http

/-- A window counts no more of some dates later on. -/
theorem Window.count_le_of_le {w : Window} {dates : List Moment} {t u : Moment} (h : t ≤ u) :
    w.count dates u ≤ w.count dates t := by
  refine List.Sublist.length_le (List.monotone_filter_right dates ?_)
  intro d hd
  refine decide_eq_true (Int.lt_of_le_of_lt ?_ (of_decide_eq_true hd))
  exact Int.sub_le_sub_right h _

/-- An item that is not near its limit has hits left. -/
theorem Item.hits_lt_of_mild {i : Item} (h : ¬ .borderline ≤ i.status) :
    i.state.hits.toNat < i.limit.hits.toNat := by
  unfold Item.status classify at h
  split at h
  · exact absurd (by decide) h
  · split at h
    · exact absurd (by decide) h
    · rename_i hlt
      exact UInt32.lt_iff_toNat_lt.1 (UInt32.not_le.1 hlt)

namespace Policy

/-- No item is more severe than the whole policy. -/
def Graded (p : Policy) : Prop := ∀ i ∈ p.items, i.status ≤ p.status

theorem graded_ofRules (name : PolicyName) (rules : List Rule) : (ofRules name rules).Graded := by
  intro i hi
  rw [status_ofRules_eq]
  exact Status.le_worst (List.mem_map_of_mem hi)

theorem graded_of_declaration {reply : Reply} {p : Policy}
    (h : Manager.declaration reply = some (.ok p)) : p.Graded := by
  unfold Manager.declaration at h
  split at h
  · cases hread : ofHeaders? reply.headers with
    | error e =>
      rw [hread] at h
      cases h
    | ok q =>
      rw [hread] at h
      obtain ⟨-, rfl⟩ := ensureConsistent_eq_ok_iff.1 (Option.some.inj h)
      rw [eq_ofRules (ofHeaders?_eq_ok_iff.1 hread).status]
      exact graded_ofRules _ _
  · cases h

end Policy

/-! ## What a manager reads off a reply -/

/-- A reply tells how the server stands: it is dated with an accepted arrival, and states the true
counts at that instant. -/
structure Informs (ws : List Window) (accepted : List Moment) (reply : Reply) : Prop where
  declares : Declares ws accepted reply
  dated : reply.date ∈ accepted

namespace Manager

variable {s : Surroundings} {ws : List Window} {dates : List Moment} {m n : Manager} {reply : Reply}
  {t u : Moment}

/-- A manager knows how many of some dates each window counted at one of them. -/
structure Reads (dates : List Moment) (m : Manager) : Prop where
  graded : m.policy.Graded
  counts : ∃ v ∈ dates, ∀ i ∈ m.policy.items, i.state.hits.toNat = i.limit.count dates v

theorem Reads.of_knows (h : n.Reads dates) (hknows : m.KnowsAs n) : m.Reads dates where
  graded := by
    rw [hknows.policy]
    exact h.graded
  counts := by
    rw [hknows.policy]
    exact h.counts

theorem reads_heard (h : Informs ws dates reply) : (m.heard reply).Reads dates := by
  obtain ⟨⟨p, hp, -, hcounts⟩, hdated⟩ := h
  obtain ⟨r, hr, hok⟩ := Option.bind_eq_some_iff.1 hp
  cases r with
  | error e => cases hok
  | ok q =>
    cases hok
    have hpolicy : (m.heard reply).policy = p := by
      simp only [heard_policy, policyAfter, hr]
    refine ⟨?_, reply.date, hdated, ?_⟩
    · rw [hpolicy]
      exact Policy.graded_of_declaration hr
    · rw [hpolicy]
      exact fun i hi => (hcounts i hi).1

/-- Away from every limit, the server has room, as it has not accepted anything since. -/
theorem Reads.accepts (h : m.Reads dates) (hlimits : m.policy.items.map (·.limit) = ws)
    (hmild : ¬ .borderline ≤ m.policy.status) (hu : ∀ d ∈ dates, d ≤ u) : Accepts ws dates u := by
  obtain ⟨v, hv, hcounts⟩ := h.counts
  intro w hw
  rw [← hlimits] at hw
  obtain ⟨i, hi, rfl⟩ := List.mem_map.1 hw
  have hitem : ¬ .borderline ≤ i.status := fun hle => hmild (Nat.le_trans hle (h.graded i hi))
  have hleft := Item.hits_lt_of_mild hitem
  rw [hcounts i hi] at hleft
  exact Nat.lt_of_le_of_lt (Window.count_le_of_le (hu v hv)) hleft

/-- Near a limit, a send is planned for the borderline margin after the safe instant. -/
theorem borderline_le_of_sendTime (h : m.sendTime s = .ok t)
    (hnear : .borderline ≤ m.policy.status) :
    ∃ safe, m.history.nextSafeSend m.policy s.now = .ok safe ∧
      safe + (s.config.borderlineBuffer : Int) ≤ t := by
  obtain ⟨safe, allowed, hsafe, hallowed, hlast⟩ := sendTime_eq_ok h
  obtain ⟨-, rfl⟩ := Moment.after_eq_ok_iff.1 hallowed
  have hbuffer : m.buffer s = s.config.borderlineBuffer := if_pos hnear
  have hrestricted : safe ≤ m.restrictedUntil.elim safe (max safe) := by
    cases m.restrictedUntil with
    | none => exact Int.le_refl _
    | some r => exact Int.le_max_left safe r
  refine ⟨safe, hsafe, ?_⟩
  rw [hbuffer] at hlast
  have hle := Int.add_le_add_right hrestricted (s.config.borderlineBuffer : Int)
  rcases hlast with ⟨-, rfl⟩ | ⟨last, spaced, -, -, rfl⟩
  · exact hle
  · exact Int.le_trans hle (Int.le_max_left _ _)

/-- A server whose clock is behind by no more than the borderline margin has room when its clock
shows the planned instant less that. -/
theorem accepts_of_sendTime (h : m.sendTime s = .ok t) (htidy : m.history.Tidy)
    (htracks : m.Tracks ws dates) (hreads : m.Reads dates) (hfalling : History.Falling dates)
    (hpos : ∀ w ∈ ws, 1 ≤ w.hits.toNat) {skew : Int}
    (hskew : -(s.config.borderlineBuffer : Int) ≤ skew) (htu : t + skew ≤ u)
    (hu : ∀ d ∈ dates, d ≤ u) : Accepts ws dates u := by
  by_cases hnear : .borderline ≤ m.policy.status
  · obtain ⟨safe, hsafe, hmargin⟩ := borderline_le_of_sendTime h hnear
    have hlater : safe ≤ u :=
      calc safe ≤ t - (s.config.borderlineBuffer : Int) := Int.le_sub_right_of_add_le hmargin
        _ ≤ t + skew := Int.add_le_add_left hskew t
        _ ≤ u := htu
    exact htracks.accepts_of_room hfalling hpos
      ((History.nextSafeSend_room htidy hsafe).2 u hlater)
  · exact hreads.accepts htracks.limits hnear hu

end Manager

/-! ## A running manager -/

/-- The reply that a message brings. -/
def Manager.Message.tells? : Manager.Message → Option Reply
  | .seed r => some r
  | .queue _ => none
  | .fire _ => none
  | .reply result => result.toOption

namespace Actor

variable {ws : List Window} {accepted : List Moment} {incoming : List Reply} {now : Moment}
  {skew : Int} {s : Surroundings} {a b c : Actor} {d : Deed} {ns : List Mark} {os : List Output}
  {msg : Manager.Message} {reply : Reply}

/-- A reply has come to an actor that its manager has not taken yet. -/
def Unheard (a : Actor) (reply : Reply) : Prop :=
  .seed reply ∈ a.mailbox ∨ .reply (.ok reply) ∈ a.inbox

theorem Takes.unheard_iff (h : a.Takes msg c) :
    a.Unheard reply ↔ msg.tells? = some reply ∨ c.Unheard reply := by
  unfold Unheard
  cases h with
  | seed hmailbox => simp [hmailbox, Manager.Message.tells?, or_assoc, eq_comm]
  | queue hmailbox => simp [hmailbox, Manager.Message.tells?]
  | fire hinbox => simp [hinbox, Manager.Message.tells?]
  | @reply result rest hinbox =>
    cases result with
    | error e => simp [hinbox, Manager.Message.tells?, Except.toOption]
    | ok r => simp [hinbox, Manager.Message.tells?, Except.toOption, or_left_comm, eq_comm]

/-- A manager learns from every reply that it takes. -/
theorem Takes.learning_eq (h : a.Takes msg c) (hs : Sound now a) (hstage : a.stage = .running) :
    a.manager.learning msg = msg.tells?.elim a.manager fun r => a.manager.heard r := by
  cases h with
  | seed hmailbox => rfl
  | queue hmailbox => rfl
  | fire hinbox => rfl
  | @reply result rest hinbox =>
    have hwired := hs.wired hstage
    rw [hinbox] at hwired
    cases result with
    | error e => rfl
    | ok r => exact if_pos hwired.of_reply.1

/-- What a running manager knows of a server whose clock differs, and what the server makes of its
plan: when the planned instant has come, the server accepts, whatever its own clock shows then. -/
structure Informed (ws : List Window) (skew : Int) (accepted : List Moment)
    (incoming : List Reply) (a : Actor) : Prop where
  told : ∀ reply, a.Unheard reply → Informs ws accepted reply
  reads : (∀ reply, ¬ a.Unheard reply) → incoming = [] → a.manager.Reads accepted
  planned : ∀ t, a.manager.phase = .activating t → ∀ u, t + skew ≤ u → (∀ d ∈ accepted, d ≤ u) →
    Accepts ws accepted u

/-- A manager reads the true counts off the last reply that it takes. -/
theorem Informed.reads_handled {m' : Manager} (h : Informed ws skew accepted incoming a)
    (hs : Sound now a) (hstage : a.stage = .running) (htakes : a.Takes msg c)
    (hhandled : Manager.Handling s a.manager msg m' os) (hunheard : ∀ reply, ¬ c.Unheard reply)
    (hincoming : incoming = []) : m'.Reads accepted := by
  have hlearns := hhandled.learns
  rw [htakes.learning_eq hs hstage] at hlearns
  cases htells : msg.tells? with
  | none =>
    rw [htells] at hlearns
    refine (h.reads ?_ hincoming).of_knows hlearns
    intro reply hreply
    rcases htakes.unheard_iff.1 hreply with htold | hlater
    · exact nomatch htells.symm.trans htold
    · exact hunheard reply hlater
  | some reply =>
    rw [htells] at hlearns
    have htold := h.told reply (htakes.unheard_iff.2 (.inl htells))
    exact (Manager.reads_heard htold).of_knows hlearns

/-- Without a result in the inbox, nothing is left to be heard. -/
theorem Follows.heard (h : Follows ws accepted incoming a) (hinbox : resultsIn a.inbox = [])
    (reply : Reply) : ¬ a.Unheard reply := by
  rintro (hseed | hreply)
  · exact h.unseeded reply hseed
  · have hmem : .ok reply ∈ resultsIn a.inbox := List.mem_filterMap.2 ⟨_, hreply, rfl⟩
    rw [hinbox] at hmem
    cases hmem

/-- What the manager of an informed actor knows depends on the replies that have come to it. -/
theorem Informed.of_unheard (h : Informed ws skew accepted incoming a)
    (hmanager : b.manager = a.manager) (hunheard : ∀ reply, b.Unheard reply ↔ a.Unheard reply) :
    Informed ws skew accepted incoming b where
  told reply hreply := h.told reply ((hunheard reply).1 hreply)
  reads hnone := by
    rw [hmanager]
    exact h.reads fun reply hreply => hnone reply ((hunheard reply).2 hreply)
  planned := by
    rw [hmanager]
    exact h.planned

/-- More requests in the mailbox change nothing. -/
theorem Informed.fed (h : Informed ws skew accepted incoming a) {cs : List Command}
    (connected : Bool) (hcs : ∀ reply, .seed reply ∉ cs) :
    Informed ws skew accepted incoming { a with mailbox := a.mailbox ++ cs, connected } := by
  refine h.of_unheard rfl fun reply => ?_
  simp [Unheard, hcs reply]

/-- A running manager that takes a message stays informed: what it plans now is planned by all that
the server has accepted. -/
theorem Informed.advance (h : Informed ws skew accepted incoming a) (hadvance : Advance s a b os)
    (hs : Sound now a) {now' : Moment} (hs' : Sound now' b) (htidy : b.manager.history.Tidy)
    (hincoming : b.outstanding = [] → incoming = []) (hfalling : History.Falling accepted)
    (hpos : ∀ w ∈ ws, 1 ≤ w.hits.toNat) (hstage : b.stage = .running)
    (hskew : -(s.config.borderlineBuffer : Int) ≤ skew)
    (hfollows : Fresh ws accepted b ∨ Follows ws accepted incoming b) :
    Informed ws skew accepted incoming b := by
  obtain ⟨hrunning, msg, c, m', htakes, hhandled, rfl⟩ := hadvance.running hstage
  have hreads (hunheard : ∀ reply, ¬ c.Unheard reply) (hnone : incoming = []) :
      m'.Reads accepted := h.reads_handled hs hrunning htakes hhandled hunheard hnone
  refine ⟨fun reply hreply => h.told reply (htakes.unheard_iff.2 (.inr hreply)), hreads, ?_⟩
  intro t (ht : m'.phase = .activating t) u htu hu
  cases hhandled.plans ht with
  | old hold hgeneration => exact h.planned t hold u htu hu
  | @new n hgeneration hknows hsend =>
    rcases hfollows with hfresh | hfollows
    · obtain ⟨name, hname⟩ := hfresh.manager
      obtain rfl : m' = .new name := hname
      cases ht
    · have hnot : m'.phase ≠ .sending := by
        rw [ht]
        nofun
      obtain ⟨hquiet, hinbox⟩ := hs'.quiet hstage hnot
      have hnone := hincoming hquiet
      have htracks := hfollows.accounted.all hinbox hnone
      have hknown : n.KnowsAs m' := ⟨hknows.policy.symm, hknows.history.symm⟩
      have hread := hreads (hfollows.heard hinbox) hnone
      rw [after_manager, hknows.history] at htidy
      exact Manager.accepts_of_sendTime hsend htidy (htracks.of_knows hknown)
        (hread.of_knows hknown) hfalling hpos hskew htu hu

/-- A running manager stays informed, whatever it does. -/
theorem Informed.change (h : Informed ws skew accepted incoming a) (hchange : Change a d b ns)
    (hfeeds : ¬ d.Feeds) (hreturned : ∀ id result, d ≠ .returned id result) (hs : Sound now a)
    {now' : Moment} (hs' : Sound now' b) (htidy : b.manager.history.Tidy)
    (hincoming : b.outstanding = [] → incoming = []) (hfalling : History.Falling accepted)
    (hpos : ∀ w ∈ ws, 1 ≤ w.hits.toNat) (hstage : b.stage = .running)
    (hskew : ∀ s, d = .command s ∨ d = .signal s → -(s.config.borderlineBuffer : Int) ≤ skew)
    (hfollows : Fresh ws accepted b ∨ Follows ws accepted incoming b) :
    Informed ws skew accepted incoming b := by
  have advance {s : Surroundings} {os : List Output}
      (hskew : -(s.config.borderlineBuffer : Int) ≤ skew) (hadvance : Advance s a b os) :
      Informed ws skew accepted incoming b :=
    h.advance hadvance hs hs' htidy hincoming hfalling hpos hstage hskew hfollows
  cases hchange with
  | none d hseeds => exact h
  | posted c hrunning => exact absurd trivial hfeeds
  | commanded hadvance hinbox => exact advance (hskew _ (.inl rfl)) hadvance
  | signaled hadvance hmailbox => exact advance (hskew _ (.inr rfl)) hadvance
  | @rang t x halarm hdue =>
    refine h.of_unheard rfl fun reply => ?_
    simp [Unheard]
  | returned result hid => exact absurd rfl (hreturned _ _)
  | disconnected => exact absurd trivial hfeeds

/-- The request under way was accepted; nothing is left to be heard but its reply. -/
theorem Follows.informed {t : Moment} (h : Follows ws accepted [] a) (hs : Sound now a)
    (hstage : a.stage = .running) (hout : a.outstanding ≠ []) :
    Informed ws skew (t :: accepted) [reply] a := by
  obtain ⟨hsending, hinbox⟩ := hs.waiting hstage hout
  refine ⟨fun r hr => absurd hr (h.heard hinbox r), nofun, ?_⟩
  intro u hu
  rw [hsending] at hu
  cases hu

/-- The reply comes into the inbox. -/
theorem Informed.returned (h : Informed ws skew accepted [reply] a)
    (htold : Informs ws accepted reply) (id : Nat) :
    Informed ws skew accepted []
      { a with outstanding := a.outstanding.erase id, inbox := a.inbox ++ [.reply (.ok reply)] } where
  told r hr := by
    rcases hr with hseed | hreply
    · exact h.told r (.inl hseed)
    · rcases List.mem_append.1 hreply with hbefore | hnew
      · exact h.told r (.inr hbefore)
      · cases List.mem_singleton.1 hnew
        exact htold
  reads hnone := absurd (.inr (List.mem_append_right _ List.mem_cons_self)) (hnone reply)
  planned := h.planned

/-- A new manager has not heard the reply of the probe yet. -/
theorem informed_new (name : PolicyName) (htold : Informs ws accepted reply) :
    Informed ws skew accepted incoming ((new name).post (.seed reply)) where
  told r hr := by
    rcases hr with hseed | hreply
    · cases List.mem_singleton.1 hseed
      exact htold
    · cases hreply
  reads hnone := absurd (.inl List.mem_cons_self) (hnone reply)
  planned := nofun

end Actor

end Throttle
