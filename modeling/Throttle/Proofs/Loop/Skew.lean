import Throttle.Proofs.Loop.Margin
import Throttle.Proofs.Loop.Safe

/-!
  The closed loop with two clocks. The clock of the server always shows the same amount more than
  that of the limiter, or less; the server counts arrivals and dates its replies by its own clock.
  The limiter compares these dates with its own clock all the same. If the server is ahead, or behind
  by no more than the borderline margin, it never answers 429 (`never_refused_of_skew`). `Skewed` is
  what every run keeps. One nanosecond more, and a send is planned too early.
-/

namespace Throttle

open Http Actor

namespace Loop

variable {ws : List Window} {e : Endpoint} {l : Loop} {m : Throttle.Move} {x : Option Probe}
  {sender : Sender} {reply : Reply} {a b : Actor} {skew : Int}

/-! ## Two clocks -/

/-- The loop by a clock that shows `skew` more. -/
def shifted (skew : Int) (l : Loop) : Loop :=
  { l with limiter := { l.limiter with now := l.limiter.now + skew } }

/-- One move, for a server whose clock shows `skew` more than that of the limiter. -/
def skewedStep (ws : List Window) (e : Endpoint) (skew : Int) (l : Loop) : Move → Loop
  | .limiter m => l.step ws e (.limiter m)
  | .arrive sender reply =>
    { (l.shifted skew).step ws e (.arrive sender reply) with limiter := l.limiter }
  | .deliver sender reply => l.step ws e (.deliver sender reply)

/-- Some moves, for a server whose clock shows `skew` more than that of the limiter. -/
def skewedRun (ws : List Window) (e : Endpoint) (skew : Int) (l : Loop) (ms : List Move) : Loop :=
  ms.foldl (skewedStep ws e skew) l

/-! ## The invariant -/

/-- What every run of the loop keeps if the server is not behind by more than the margin. -/
structure Skewed (ws : List Window) (e : Endpoint) (skew : Int) (l : Loop) : Prop where
  staged : Staged ws e l
  margin : -(l.limiter.config.borderlineBuffer : Int) ≤ skew
  refused : l.refused = []
  past : ∀ d ∈ l.accepted, d ≤ l.limiter.now + skew
  /-- The server accepts what is on its way, whenever it arrives. -/
  room : l.transit ≠ [] → ∀ u, l.limiter.now + skew ≤ u → Accepts ws l.accepted u
  told : ∀ r ∈ l.replies, Informs ws l.accepted r.2
  informed : ∀ a, l.limiter.actors = [a] → a.stage = .running →
    Informed ws skew l.accepted (l.replies.map (·.2)) a

theorem skewed_start (ws : List Window) (e : Endpoint) (config : Config) (authorizer : Authorizer)
    (now : Moment) (hskew : -(config.borderlineBuffer : Int) ≤ skew) :
    Skewed ws e skew (start config authorizer now) where
  staged := staged_start ws e config authorizer now
  margin := hskew
  refused := rfl
  past := List.forall_mem_nil _
  room h := absurd rfl h
  told := List.forall_mem_nil _
  informed a ha := by cases ha

/-- There is a manager after a move of the limiter only if there was one. -/
theorem Staged.actors_before (h : Staged ws e l) (hm : m.isFree e = true)
    (hb : (l.limiter.step m).1.actors = [b]) : ∃ a, l.limiter.actors = [a] := by
  have hreply := probeReply?_of_isFree hm
  obtain ⟨x, -, -, hstage⟩ := h.stage
  cases hstage with
  | searching hactors hregistered haccepted hflight hsearch =>
    exact nomatch hb.symm.trans (Limiter.actors_of_none hactors hreply)
  | probing signed hactors hregistered hflight haccepted htells =>
    exact nomatch hb.symm.trans (Limiter.actors_of_none hactors hreply)
  | managed a hactors hmanaged hbarred hsearch => exact ⟨a, hactors⟩

/-- With nothing under way, no reply is on its way back. -/
theorem Managed.replies_nil (h : Managed ws l a) (hout : a.outstanding = []) :
    l.replies.map (·.2) = [] := by
  have hflight := h.flight
  rw [hout] at hflight
  rw [List.map_eq_nil_iff.1 (List.append_eq_nil_iff.1 hflight).2]
  rfl

theorem margin_step (hmargin : -(l.limiter.config.borderlineBuffer : Int) ≤ skew)
    (m : Throttle.Move) : -((l.limiter.step m).1.config.borderlineBuffer : Int) ≤ skew := by
  have hconfig : (l.limiter.step m).1.config = l.limiter.config :=
    (Limiter.leads_step l.limiter m).config
  rwa [hconfig]

/-- The manager stays informed in a move of the limiter. -/
theorem Skewed.informed_advance (h : Skewed ws e skew l) (hm : m.isFree e = true)
    (hpos : ∀ w ∈ ws, 1 ≤ w.hits.toNat) (hb : (l.limiter.step m).1.actors = [b])
    (hstage : b.stage = .running) : Informed ws skew l.accepted (l.replies.map (·.2)) b := by
  obtain ⟨a, ha⟩ := h.staged.actors_before hm hb
  have hreply := probeReply?_of_isFree hm
  obtain ⟨c, hc, htouch⟩ := Limiter.actors_of_one ha hreply
  obtain rfl : c = b := List.head_eq_of_cons_eq (hc.symm.trans hb)
  have hfirst := Limiter.first_of_one ha
  cases htouch with
  | @fed a' ha' hother cs connected hseeds =>
    obtain rfl : a = a' := Option.some.inj (hfirst.symm.trans ha')
    refine (h.informed a ha hstage).fed connected fun r hr => ?_
    exact nomatch hreply.symm.trans (hseeds r hr)
  | made name hnone hprobe cs connected => exact nomatch hfirst.symm.trans hnone
  | @acted a' d ha' hacts hd =>
    obtain rfl : a = a' := Option.some.inj (hfirst.symm.trans ha')
    have hchange := undergo_change a d
    have hreturned (id : Nat) (result : Except TransportFailure Reply) :
        d ≠ .returned id result := by
      rintro rfl
      cases m <;> cases hd
      cases hm
    obtain ⟨hs, -⟩ := sound_of_run h.staged.run hfirst
    obtain ⟨hs', htidy⟩ := sound_of_run (h.staged.run_step m) (Limiter.first_of_one hb)
    have hmanaged := (h.staged.advance hm hpos).managed hb
    have hmargin (s : Surroundings) (hs : d = .command s ∨ d = .signal s) :
        -(s.config.borderlineBuffer : Int) ≤ skew := by
      rw [Limiter.surroundings_of_deed hd hs]
      exact h.margin
    exact (h.informed a ha (hchange.handles hstage).1).change hchange
      (Limiter.not_feeds_of_deed? hd) hreturned hs hs' (htidy hstage) hmanaged.replies_nil
      h.staged.falling hpos hstage hmargin (hmanaged.known hstage)

/-- A move of the limiter. -/
theorem Skewed.advance (h : Skewed ws e skew l) (hm : m.isFree e = true)
    (hpos : ∀ w ∈ ws, 1 ≤ w.hits.toNat) : Skewed ws e skew (l.advance m) where
  staged := h.staged.advance hm hpos
  margin := margin_step h.margin m
  refused := h.refused
  past d hd :=
    Int.le_trans (h.past d hd) (Int.add_le_add_right (Limiter.now_step l.limiter m) skew)
  room := by
    intro htransit u hu
    have hlater : l.limiter.now + skew ≤ u :=
      Int.le_trans (Int.add_le_add_right (Limiter.now_step l.limiter m) skew) hu
    rcases transit_advance htransit with hbefore | hsent
    · exact h.room hbefore u hlater
    · cases (h.staged.advances hm hpos).2 hsent with
      | first haccepted =>
        show Accepts ws l.accepted u
        rw [haccepted]
        exact accepts_nil hpos u
      | planned a hactors hready =>
        obtain ⟨hrunning, t, hphase, hcame⟩ := hready
        refine (h.informed a hactors hrunning).planned t hphase u ?_ fun d hd => ?_
        · exact Int.le_trans (Int.add_le_add_right hcame skew) hlater
        · exact Int.le_trans (h.past d hd) hlater
  told := h.told
  informed b hb hstage := h.informed_advance hm hpos hb hstage

/-- An arrival at the server. -/
theorem Skewed.arrive (h : Skewed ws e skew l) (hmem : sender ∈ l.transit) (reply : Reply) :
    Skewed ws e skew { (l.shifted skew).arrive ws sender reply with limiter := l.limiter } := by
  have haccepts : Accepts ws l.accepted (l.limiter.now + skew) :=
    h.room (List.ne_nil_of_mem hmem) _ (Int.le_refl _)
  obtain ⟨x, -, -, hstage⟩ := h.staged.stage
  have hreplies := (hstage.of_transit hmem).2
  unfold Loop.arrive shifted
  dsimp only
  rw [if_pos haccepts]
  split
  · rename_i hgrants
    have hinforms : Informs ws ((l.limiter.now + skew) :: l.accepted) reply :=
      ⟨hgrants.declares, hgrants.date ▸ List.mem_cons_self⟩
    refine ⟨h.staged.arrived hmem h.past hgrants, h.margin, h.refused, ?_, ?_, ?_, ?_⟩
    · exact List.forall_mem_cons.2 ⟨Int.le_refl _, h.past⟩
    · exact fun hsome => absurd (h.staged.transit_erase hmem) hsome
    · intro r hr
      rw [hreplies, List.nil_append] at hr
      rwa [List.mem_singleton.1 hr]
    · intro a ha hrunning
      have hmanaged := h.staged.managed ha
      have hout : a.outstanding ≠ [] := by
        intro hnone
        have hflight := hmanaged.flight.symm.trans (hstage.flight_of_transit hmem)
        rw [hnone] at hflight
        cases hflight
      have hs := (sound_of_run h.staged.run (Limiter.first_of_one ha)).1
      rw [hreplies, List.nil_append]
      rcases hmanaged.known hrunning with hfresh | hfollows
      · exact absurd hfresh.outstanding hout
      · rw [hreplies] at hfollows
        exact hfollows.informed hs hrunning hout
  · exact h

/-- What a reply that comes back does to the managers: it makes the only one, or the only one gets
it. -/
inductive Delivered (l : Loop) (sender : Sender) (reply : Reply) : Prop where
  | made (name : PolicyName)
      (hactors : (l.deliver sender reply).limiter.actors = [(Actor.new name).post (.seed reply)])
  | returned (a : Actor) (id : Nat) (hbefore : l.limiter.actors = [a])
      (hactors : (l.deliver sender reply).limiter.actors =
        [{ a with
            outstanding := a.outstanding.erase id
            inbox := a.inbox ++ [.reply (.ok reply)] }])

theorem Staged.delivered (h : Staged ws e l) (hmem : (sender, reply) ∈ l.replies) :
    Delivered l sender reply := by
  obtain ⟨x, hseeks, hbarred, hstage⟩ := h.stage
  have hflight := hstage.flight_of_replies hmem
  cases hstage with
  | searching hactors hregistered haccepted hnone hsearch => exact nomatch hflight.symm.trans hnone
  | probing signed hactors hregistered hprobe haccepted htells =>
    obtain rfl : sender = .probe e := List.head_eq_of_cons_eq (hflight.symm.trans hprobe)
    obtain ⟨htold, hsuccess⟩ := htells _ hmem
    obtain ⟨name, hfound⟩ := Limiter.endProbe_found hactors hregistered hseeks htold hsuccess
    have hafter : (l.deliver (.probe e) reply).limiter = _ := hfound
    exact .made name (by rw [hafter])
  | managed a hactors hmanaged hshut hsearch =>
    have hout : a.outstanding.map (.manager 0) = [sender] := hmanaged.flight.symm.trans hflight
    obtain ⟨id, hid, rfl⟩ := List.map_eq_singleton_iff.1 hout
    exact .returned a id hactors (deliver_actors hactors (hid ▸ List.mem_cons_self))

/-- A reply comes back to the limiter. -/
theorem Skewed.deliver (h : Skewed ws e skew l) (hmem : (sender, reply) ∈ l.replies) :
    Skewed ws e skew (l.deliver sender reply) := by
  obtain ⟨hstaged, htransit⟩ := h.staged.deliver hmem
  obtain ⟨x, -, -, hstage⟩ := h.staged.stage
  have hreplies := (hstage.of_replies hmem).2
  have hreplies' : (l.deliver sender reply).replies = [] := by
    show l.replies.erase (sender, reply) = []
    rw [hreplies, List.erase_cons_head]
  have htold : Informs ws l.accepted reply := h.told _ hmem
  refine ⟨hstaged, margin_step h.margin (sender.ended reply), h.refused, ?_,
    fun hsome => absurd htransit hsome, ?_, ?_⟩
  · exact fun d hd => Int.le_trans (h.past d hd)
      (Int.add_le_add_right (Limiter.now_step l.limiter (sender.ended reply)) skew)
  · rw [hreplies']
    exact List.forall_mem_nil _
  · intro b hb hrunning
    rw [hreplies']
    cases h.staged.delivered hmem with
    | made name hactors =>
      obtain rfl : b = _ := List.head_eq_of_cons_eq (hb.symm.trans hactors)
      exact informed_new name htold
    | returned a id hbefore hactors =>
      obtain rfl : b = _ := List.head_eq_of_cons_eq (hb.symm.trans hactors)
      have hinformed := h.informed a hbefore hrunning
      rw [hreplies] at hinformed
      exact hinformed.returned htold id

/-! ## Every run -/

theorem Skewed.step (h : Skewed ws e skew l) (hpos : ∀ w ∈ ws, 1 ≤ w.hits.toNat) (m : Move) :
    Skewed ws e skew (l.skewedStep ws e skew m) := by
  cases m with
  | limiter m =>
    show Skewed ws e skew (if m.isFree e then l.advance m else l)
    split
    · rename_i hm
      exact h.advance hm hpos
    · exact h
  | arrive sender reply =>
    show Skewed ws e skew
      { (if sender ∈ l.transit then (l.shifted skew).arrive ws sender reply
          else l.shifted skew) with limiter := l.limiter }
    split
    · rename_i hmem
      exact h.arrive hmem reply
    · exact h
  | deliver sender reply =>
    show Skewed ws e skew (if (sender, reply) ∈ l.replies then l.deliver sender reply else l)
    split
    · rename_i hmem
      exact h.deliver hmem
    · exact h

theorem Skewed.run (h : Skewed ws e skew l) (hpos : ∀ w ∈ ws, 1 ≤ w.hits.toNat) (ms : List Move) :
    Skewed ws e skew (l.skewedRun ws e skew ms) := by
  induction ms generalizing l with
  | nil => exact h
  | cons m ms ih => exact ih (h.step hpos m)

/-- A server whose clock is ahead, or behind by no more than the borderline margin, never answers
429, neither to the probe nor to a request. -/
theorem never_refused_of_skew (ws : List Window) (hpos : ∀ w ∈ ws, 1 ≤ w.hits.toNat) (e : Endpoint)
    (config : Config) (authorizer : Authorizer) (now : Moment) (skew : Int)
    (hskew : -(config.borderlineBuffer : Int) ≤ skew) (ms : List Move) :
    ((start config authorizer now).skewedRun ws e skew ms).refused = [] := by
  have hstart := skewed_start ws e config authorizer now hskew
  exact (hstart.run hpos ms).refused

/-- A request that leaves as soon as it may, if the clock of the server shows `skew` more: it arrives
at `due`, two seconds after the window has room again by the dates of the server. -/
def laggingRun (skew : Int) (due : Nat) : List Move :=
  [.limiter (.submit plainEndpoint plainRequest), .limiter (.startProbe plainEndpoint),
    .arrive (.probe plainEndpoint) (pacedReply [skew]),
    .deliver (.probe plainEndpoint) (pacedReply [skew]), .limiter (.settle plainEndpoint),
    .limiter (.command 0), .limiter (.command 0), .limiter (.elapse due), .limiter (.ring 0),
    .limiter (.signal 0), .arrive (.manager 0 1) (pacedReply [due + skew, skew])]

/-- With the default margin of two seconds, a request to a server that is two seconds behind is
accepted as soon as the window has room; one nanosecond more, and it is refused. -/
theorem never_refused_of_skew_laggingRun :
    (∀ w ∈ pacedWindows, 1 ≤ w.hits.toNat) ∧
      -(Config.default.borderlineBuffer : Int) ≤ -2000000000 ∧
      ((start .default .none 0).skewedRun pacedWindows plainEndpoint (-2000000000)
        (laggingRun (-2000000000) 10000000000)).refused = [] ∧
      ((start .default .none 0).skewedRun pacedWindows plainEndpoint (-2000000000)
        (laggingRun (-2000000000) 10000000000)).accepted = [8000000000, -2000000000] ∧
      ((start .default .none 0).skewedRun pacedWindows plainEndpoint (-2000000001)
        (laggingRun (-2000000001) 9999999999)).refused = [7999999998] := by
  have hpos : ∀ w ∈ pacedWindows, 1 ≤ w.hits.toNat := by decide
  have hskew : -(Config.default.borderlineBuffer : Int) ≤ -2000000000 := by decide +kernel
  exact ⟨hpos, hskew, never_refused_of_skew pacedWindows hpos _ .default .none 0 _ hskew _,
    by decide +kernel, by decide +kernel⟩

end Loop

end Throttle
