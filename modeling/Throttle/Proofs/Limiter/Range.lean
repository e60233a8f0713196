import Throttle.Proofs.Limiter.Restriction
import Throttle.Proofs.Manager.Range

/-!
  What makes managers fail. With the default settings, with a clock in the years 2000 to 2100 and
  with replies dated in these years, a manager fails for one reason only: it has heard of a refusal
  whose wait oversteps the calendar (`failed_of_overasked`). It does not matter what other replies
  say. A refusal that oversteps it by itself, without a margin, ends the manager at once.
-/

namespace Throttle

open Http

/-- The reply that comes in a move, to a probe or to a request. -/
def Move.reply? : Move → Option Reply
  | .endProbe _ result => result.toOption
  | .returned _ _ result => result.toOption
  | _ => none

theorem Move.reply?_of_probeReply? {m : Move} {reply : Reply} (h : m.probeReply? = some reply) :
    m.reply? = some reply := by
  cases m with
  | endProbe e result => exact h
  | _ => cases h

namespace Actor

variable {s : Surroundings} {a : Actor} {i : Nat} {m : Move} {reply : Reply} {d : Deed}

/-- A refusal that oversteps the calendar ends the manager that hears of it. -/
theorem Hears.fails (h : a.Hears i m reply) (hs : Sound s.now a) (hstage : a.stage = .running)
    (hover : reply.Oversteps s.now 0) (hd : m.deed? s = some d) :
    (a.undergo d).stage = .failed := by
  cases h with
  | probe hmailbox =>
    obtain rfl := Option.some.inj hd
    simp only [undergo, command_of_seed hstage hmailbox, Option.elim_some]
    exact finish_of_fails (Manager.receive_overstepped rfl (fun r hr => by cases hr) hover)
  | own hinbox =>
    obtain rfl := Option.some.inj hd
    have hwired := hs.wired hstage
    rw [hinbox] at hwired
    simp only [undergo, signal_of_reply hstage hinbox, Option.elim_some]
    exact finish_of_fails (Manager.receive_overstepped rfl (fun _ _ => hwired.of_reply.1) hover)

end Actor

namespace Limiter

open Actor

variable {w : Limiter} {ms : List Move} {i : Nat} {a : Actor}

/-- In some move of a run, a manager hears of a refusal that oversteps the calendar. -/
def Overasked (w : Limiter) (ms : List Move) (i : Nat) (margin : Delay) : Prop :=
  ∃ before m later a reply, ms = before ++ m :: later ∧ (w.after before).actors[i]? = some a ∧
    a.stage = .running ∧ a.Hears i m reply ∧ reply.Oversteps (w.after before).now margin

theorem Overasked.snoc {margin : Delay} (h : Overasked w ms i margin) (m : Move) :
    Overasked w (ms ++ [m]) i margin := by
  obtain ⟨before, n, later, a, reply, rfl, h⟩ := h
  exact ⟨before, n, later ++ [m], a, reply, List.append_assoc .., h⟩

theorem overasked_last {margin : Delay} {m : Move} {reply : Reply}
    (ha : (w.after ms).actors[i]? = some a) (hstage : a.stage = .running)
    (hears : a.Hears i m reply) (hover : reply.Oversteps (w.after ms).now margin) :
    Overasked w (ms ++ [m]) i margin :=
  ⟨ms, m, [], a, reply, rfl, ha, hstage, hears, hover⟩

/-- A manager that has heard of no such refusal is steady. -/
theorem steady_run (hconfig : w.config = .default) (hactors : w.actors = [])
    (hstart : w.now.Modern) (ms : List Move) (hend : (w.after ms).now.Modern)
    (hdated : ∀ m ∈ ms, ∀ reply, m.reply? = some reply → reply.date.Modern)
    (hfits : ¬ Overasked w ms i Config.default.margin)
    (ha : (w.after ms).actors[i]? = some a) : Steady (w.after ms).now a := by
  induction ms using List.reverseRecOn generalizing a with
  | nil =>
    rw [after_nil, hactors] at ha
    cases ha
  | append_singleton ms m ih =>
    rw [after_append] at ha hend ⊢
    have hle : (w.after ms).now ≤ ((w.after ms).step m).1.now := now_step (w.after ms) m
    have hnow : (w.after ms).now.Modern :=
      ⟨Int.le_trans hstart.1 (leads_run w ms).now, Int.lt_of_le_of_lt hle hend.2⟩
    have hsettings : (w.after ms).surroundings.config = .default :=
      (leads_run w ms).config.trans hconfig
    have hreply (reply : Reply) (hm : m.reply? = some reply) : reply.date.Modern :=
      hdated m (List.mem_append_right ms (.head _)) reply hm
    have hbefore {b : Actor} (hb : (w.after ms).actors[i]? = some b) :
        Steady (w.after ms).now b :=
      ih hnow (fun n hn => hdated n (List.mem_append_left _ hn)) (fun h => hfits (h.snoc m)) hb
    refine Steady.mono ?_ hle
    cases step_touches (w.after ms) m i ha with
    | fed hb hm cs connected hseeds =>
      exact (hbefore hb).fed connected fun reply hmem =>
        hreply reply (Move.reply?_of_probeReply? (hseeds reply hmem))
    | made name hnone hm cs connected hseeds =>
      exact steady_new name connected fun reply hmem =>
        hreply reply (Move.reply?_of_probeReply? (hseeds reply hmem))
    | @acted b d hb hm hd =>
      have hsound := sound_run hactors ms hb
      cases m with
      | command k =>
        obtain rfl : k = i := Option.some.inj hm
        obtain rfl := Option.some.inj hd
        refine (hbefore hb).command hsettings hnow hsound fun reply rest hstage hmailbox hover => ?_
        exact hfits (overasked_last hb hstage (.probe hmailbox) hover)
      | signal k =>
        obtain rfl : k = i := Option.some.inj hm
        obtain rfl := Option.some.inj hd
        refine (hbefore hb).signal hsettings hnow hsound fun reply rest hstage hinbox hover => ?_
        exact hfits (overasked_last hb hstage (.own hinbox) hover)
      | ring k =>
        obtain rfl := Option.some.inj hd
        exact (hbefore hb).ring _
      | returned k id result =>
        obtain rfl := Option.some.inj hd
        exact (hbefore hb).returned id result fun reply hresult =>
          hreply reply (hresult ▸ rfl)
      | _ => cases hm

/-- A manager that has heard of a refusal that oversteps the calendar has failed. -/
theorem failed_of_overstepped (hactors : w.actors = []) (h : Overasked w ms i 0)
    (ha : (w.after ms).actors[i]? = some a) : a.stage = .failed := by
  obtain ⟨before, m, later, b, reply, rfl, hb, hstage, hears, hover⟩ := h
  rw [after_append, after_cons] at ha
  have hm : m.actor? = some i := by cases hears <;> rfl
  obtain ⟨c, hc⟩ := step_keeps _ m hb
  have hfailed : c.stage = .failed := by
    cases step_touches (w.after before) m i hc with
    | fed hd hother cs connected hseeds => exact absurd hm hother
    | made name hnone hprobe cs connected => exact nomatch hnone.symm.trans hb
    | acted hd hacts hdeed =>
      obtain rfl := Option.some.inj (hb.symm.trans hd)
      exact hears.fails (sound_run hactors before hb) hstage hover hdeed
  obtain ⟨d, hd, hlast⟩ := later_induction (P := fun _ a => a.stage = .failed)
    (fun h _ => h) (fun _ _ h => h) (fun h hchange _ => hchange.failed h) hc hfailed later
  obtain rfl := Option.some.inj (ha.symm.trans hd)
  exact hlast

/-- With the default settings, and in this century, no reply ends a manager but a refusal that names
a wait past the end of the calendar, or less than a margin before it; and past the end, it does. -/
theorem failed_of_overasked (authorizer : Authorizer) (now : Moment) (ms : List Move)
    (hstart : now.Modern) (hend : ((new .default authorizer now).after ms).now.Modern)
    (hdated : ∀ m ∈ ms, ∀ reply, m.reply? = some reply → reply.date.Modern)
    (ha : ((new .default authorizer now).after ms).actors[i]? = some a) :
    (a.stage = .failed →
        Overasked (new .default authorizer now) ms i Config.default.margin) ∧
      (Overasked (new .default authorizer now) ms i 0 → a.stage = .failed) := by
  refine ⟨fun hfailed => ?_, fun hover => failed_of_overstepped rfl hover ha⟩
  by_contra hfits
  exact (steady_run rfl rfl hstart ms hend hdated hfits ha).unfailed hfailed

/-- The start of the year 2000. -/
def century : Moment := Moment.ofDate ⟨2000, 1, 1⟩ ⟨0, 0, 0, 0⟩

/-- A refusal that asks for as many seconds as a word can count. -/
def endlessReply : Reply :=
  { status := 429
    headers := (sharedReply 1).headers.insert ⟨"retry-after"⟩
      ⟨"18446744073709551615".toList.map fun c => UInt8.ofNat c.toNat, false⟩
    body := []
    date := century }

/-- A probe is refused in this way. -/
def refusedProbe : List Move :=
  [.submit plainEndpoint plainRequest, .startProbe plainEndpoint,
    .endProbe plainEndpoint (.ok endlessReply)]

/-- The manager that is made for the refusal does not survive it. -/
theorem failed_of_overasked_refusedProbe :
    ∃ a, ((new .default .none century).after (refusedProbe ++ [.command 0])).actors[0]? = some a ∧
      a.stage = .failed ∧
      Overasked (new .default .none century) (refusedProbe ++ [.command 0]) 0
        Config.default.margin := by
  have hsome : ((new .default .none century).after
      (refusedProbe ++ [.command 0])).actors[0]?.isSome = true := by decide +kernel
  have hbefore : ((new .default .none century).after refusedProbe).actors[0]?.map
      (fun b => (b.stage, b.mailbox)) = some (.running, [.seed endlessReply]) := by decide +kernel
  have hnow : ((new .default .none century).after refusedProbe).now = century := by decide +kernel
  have hstart : century.Modern := Moment.modern_iff.2 (by decide)
  have hend : ((new .default .none century).after (refusedProbe ++ [.command 0])).now.Modern :=
    Moment.modern_iff.2 (by decide +kernel)
  obtain ⟨a, ha⟩ := Option.isSome_iff_exists.1 hsome
  obtain ⟨b, hb, hstate⟩ := Option.map_eq_some_iff.1 hbefore
  obtain ⟨hrunning, hmailbox⟩ := Prod.mk.inj hstate
  have hover : Overasked (new .default .none century) (refusedProbe ++ [.command 0]) 0 0 := by
    refine overasked_last hb hrunning (.probe hmailbox) ?_
    rw [hnow]
    exact ⟨rfl, Delay.ofSeconds 18446744073709551615, by decide +kernel, by decide⟩
  have hdated : ∀ m ∈ refusedProbe ++ [.command 0], ∀ reply, m.reply? = some reply →
      reply.date.Modern := by
    intro m hm reply hreply
    simp only [refusedProbe, List.cons_append, List.nil_append, List.mem_cons, List.not_mem_nil,
      or_false] at hm
    rcases hm with rfl | rfl | rfl | rfl
    · cases hreply
    · cases hreply
    · obtain rfl := Option.some.inj hreply
      exact hstart
    · cases hreply
  have hboth :=
    failed_of_overasked .none century (refusedProbe ++ [.command 0]) hstart hend hdated ha
  exact ⟨a, ha, hboth.2 hover, hboth.1 (hboth.2 hover)⟩

end Limiter

end Throttle
