import Throttle.Proofs.Limiter.Register
import Throttle.Proofs.Limiter.Room

/-!
  The pause display, over the runs of a limiter. A manager first shows its wait and then calls the
  ticker, which is two moves, and the ticker goes back to waiting for a wake-up in two moves as well;
  others may come in between. It is never left waiting while a registered manager shows a wait and
  has made its call: it reports, or a wake-up is there for it (`pause_noticed`). In the gap between
  the two moves of the manager the call is still to come, and brings what was missing.

  What keeps this up is `Vigilant`: a ticker that is off has no manager to watch, so no wake-up is
  lost before it starts. The order of the two moves is what the step lemmas rest on: whoever shows
  something else than before is calling (`Watches.shown`), so a call that is over was made after what
  is shown now.
-/

namespace Throttle

open Http Actor

namespace Limiter

variable {w v : Limiter} {m : Move} {k : Nat}

/-! ## What leaves the gauges alone -/

/-- The counter of violations, the pause display, and who is to call it. -/
def gauges (w : Limiter) : Nat × Ticker × Bool × List Nat :=
  (w.violations, w.ticker, w.permit, w.calling)

theorem gauges_answer (w : Limiter) (id : Nat) (r : Except Failure Reply) :
    (w.answer id r).1.gauges = w.gauges := by
  unfold answer
  split <;> rfl

theorem gauges_answerAll (w : Limiter) (r : Except Failure Reply) (ps : List Pending) :
    (w.answerAll r ps).1.gauges = w.gauges :=
  each_preserves gauges (fun w (p : Pending) => gauges_answer w p.id r) w ps

theorem gauges_orphan (w : Limiter) (p : Pending) : (w.orphan p).1.gauges = w.gauges := by
  unfold orphan
  split
  · rfl
  · exact gauges_answer w _ _

theorem gauges_enqueue (w : Limiter) (k : Nat) (p : Pending) :
    (enqueue k w p).1.gauges = w.gauges := by
  unfold enqueue
  split
  · rfl
  · split
    · rfl
    · exact gauges_answer w _ _

theorem gauges_seed (w : Limiter) (span : Span) (k : Nat) (reply : Reply) :
    (w.seed span k reply).1.gauges = w.gauges := by
  unfold seed
  split
  · rfl
  · split <;> rfl

theorem gauges_managerFor (w : Limiter) (span : Span) (name : PolicyName) :
    (w.managerFor span name).1.gauges = w.gauges := by
  unfold managerFor
  split <;> rfl

theorem gauges_endProbe (w : Limiter) (e : Endpoint) (result : Except TransportFailure Reply) :
    (w.endProbe e result).1.gauges = w.gauges := by
  unfold endProbe
  split
  · split
    · rfl
    · dsimp only
      split
      · rfl
      · exact (gauges_seed _ _ _ _).trans (gauges_managerFor w _ _)
  · rfl

theorem gauges_startProbe (w : Limiter) (e : Endpoint) :
    (w.startProbe e).1.gauges = w.gauges := by
  unfold startProbe
  split
  · split <;> rfl
  · rfl

theorem gauges_letGo (w : Limiter) (id : Nat) : (w.letGo id).gauges = w.gauges := by
  unfold letGo
  split <;> rfl

theorem gauges_updateActor (w : Limiter) (k : Nat) (f : Actor → Option Actor) :
    (w.updateActor k f).gauges = w.gauges := by
  unfold updateActor
  split
  · rfl
  · split <;> rfl

/-! ## The ticker -/

/-- What a move in which no manager acts makes of the counter and the display. The ticker starts
with a submission; it is off once there is nothing left to watch. -/
inductive Gauged (w : Limiter) (m : Move) (v : Limiter) : Prop where
  | same (h : v.gauges = w.gauges)
  | started (hoff : w.ticker = .off)
      (h : v.gauges = (w.violations, .arriving, w.permit, w.calling))
  | off (h : v.gauges = (w.violations, .off, w.permit, w.calling))
      (hregistered : v.registered = []) (hover : v.closed = true ∨ v.discoveries = [])
  | called (i : Nat) (hm : m = .call i) (h : v = w.call i)
  | awaited (hm : m = .awaitPause) (h : v = w.awaitPause)
  | ticked (hm : m = .tick) (h : v = w.tick.1)

theorem Gauged.hangUp (h : v.gauges = w.gauges) : Gauged w m v.hangUpIfFree := by
  unfold hangUpIfFree
  split
  · rename_i hfree
    refine .off ?_ rfl (.inr hfree.2)
    exact congrArg (fun g : Nat × Ticker × Bool × List Nat => (g.1, Ticker.off, g.2.2)) h
  · exact .same h

/-- A submission that is taken starts the ticker. -/
theorem gauges_submit (w : Limiter) (e : Endpoint) (r : Request) :
    (w.submit e r).1.gauges = if w.closed then w.gauges else w.startTicker.gauges := by
  have hstart : { w with nextId := w.nextId + 1 }.startTicker.gauges = w.startTicker.gauges := by
    unfold startTicker
    dsimp only
    split <;> rfl
  unfold submit
  dsimp only
  split
  · exact gauges_answer { w with nextId := w.nextId + 1 } _ _
  · rw [← hstart]
    split
    · exact gauges_enqueue _ _ _
    · rfl
    · rfl

theorem submit_gauges (w : Limiter) (e : Endpoint) (r : Request) :
    Gauged w (.submit e r) (w.submit e r).1 := by
  have hgauges := gauges_submit w e r
  unfold startTicker at hgauges
  split at hgauges
  · exact .same hgauges
  · split at hgauges
    · rename_i hoff
      exact .started hoff hgauges
    · exact .same hgauges

theorem settle_gauges (w : Limiter) (e : Endpoint) : Gauged w (.settle e) (w.settle e).1 := by
  have hleave {u : Limiter} (h : u.gauges = w.gauges) : Gauged w (.settle e) (u.leave e) :=
    .hangUp (v := u.endDiscovery e) h
  unfold settle
  split
  · split
    · exact hleave rfl
    · exact hleave rfl
    · split
      · exact hleave (gauges_answerAll (w.removeRoute e) _ _)
      · split
        · exact hleave (each_preserves gauges (gauges_enqueue · _) (w.setRoute e _) _)
        · unfold settleFailed
          dsimp only
          split
          · exact hleave (gauges_answerAll w _ _)
          · exact .same (gauges_answerAll w _ _)
  · exact .same rfl

theorem shutdown_gauges (w : Limiter) : Gauged w .shutdown w.shutdown.1 := by
  have hclosed := closed_shutdown w
  unfold shutdown at hclosed ⊢
  split at hclosed
  · rename_i hshut
    rw [if_pos hshut]
    exact .same rfl
  · rename_i hshut
    rw [if_neg hshut]
    have hanswer := gauges_answerAll
      { w with closed := true, actors := w.mapRegistered Actor.stop } (.error .shutdown)
      (w.routes.flatMap (·.2.waiting))
    refine .off ?_ rfl (.inl hclosed)
    exact (congrArg (fun g : Nat × Ticker × Bool × List Nat => (g.1, Ticker.off, g.2.2)) hanswer :)

/-- A move in which no manager acts. -/
theorem feeding_gauges (hm : m.actor? = none) (w : Limiter) : Gauged w m (w.step m).1 := by
  unfold step
  split
  · exact .same rfl
  · cases m with
    | submit e r => exact submit_gauges w e r
    | startProbe e => exact .same (gauges_startProbe w e)
    | endProbe e result => exact .same (gauges_endProbe w e result)
    | settle e => exact settle_gauges w e
    | shutdown => exact shutdown_gauges w
    | release => exact .hangUp (v := { w with owners := w.owners - 1 }) rfl
    | cancel id => exact .same (gauges_letGo w id)
    | letGo id => exact .same (gauges_letGo w id)
    | call i => exact .called i rfl rfl
    | awaitPause => exact .awaited rfl rfl
    | tick => exact .ticked rfl rfl
    | elapse d => exact .same rfl
    | refresh => exact .same rfl
    | retain => exact .same rfl
    | renew f => exact .same rfl
    | command i => cases hm
    | signal i => cases hm
    | ring i => cases hm
    | returned i id result => cases hm

/-! ## Waits that are shown -/

/-- A registered manager shows that it waits for an instant to come. -/
def Waited (w : Limiter) (k : Nat) : Prop :=
  ∃ name a, (name, k) ∈ w.registered ∧ w.actors[k]? = some a ∧ a.waits w.now = true

/-- The ticker reports, or there is a wake-up that it has not taken yet. -/
def Alert (w : Limiter) : Prop :=
  (∃ due, w.ticker = .ticking due) ∨ w.ticker = .waiting true ∨
    w.ticker = .arriving ∧ w.permit = true

theorem Alert.started (h : w.Alert) : w.ticker ≠ .off := by
  rcases h with ⟨due, h⟩ | h | ⟨h, -⟩ <;> rw [h] <;> nofun

/-- A ticker that was started and is woken has a wake-up. -/
theorem alert_wake (h : w.ticker ≠ .off) : w.wake.Alert := by
  unfold wake
  split
  · exact .inr (.inl rfl)
  · rename_i hwaiting
    show (∃ due, w.ticker = _) ∨ w.ticker = _ ∨ w.ticker = _ ∧ true = true
    cases hticker : w.ticker with
    | off => exact absurd hticker h
    | arriving => exact .inr (.inr ⟨rfl, rfl⟩)
    | waiting woken =>
      cases woken with
      | false => exact absurd hticker hwaiting
      | true => exact .inr (.inl rfl)
    | ticking due => exact .inl ⟨due, rfl⟩

/-- A call takes no wake-up from the ticker. -/
theorem Alert.call (h : w.Alert) (k : Nat) : (w.call k).Alert := by
  rcases call_cases w k with heq | heq | heq <;> rw [heq]
  · exact h
  · exact h
  · exact alert_wake h.started

/-- The ticker takes its wake-up, and reports. -/
theorem Alert.awaitPause (h : w.Alert) : ∃ due, w.awaitPause.ticker = .ticking due := by
  unfold Limiter.awaitPause
  rcases h with ⟨due, hticker⟩ | hticker | ⟨hticker, hpermit⟩
  · rw [hticker]
    exact ⟨due, hticker⟩
  · rw [hticker]
    exact ⟨w.now, rfl⟩
  · rw [hticker]
    dsimp only
    rw [if_pos hpermit]
    exact ⟨w.now, rfl⟩

/-- A manager that acts leaves the display alone; if it shows something else than before, it is to
call the ticker. -/
structure Watches (w : Limiter) (k : Nat) (v : Limiter) : Prop where
  ticker : v.ticker = w.ticker
  permit : v.permit = w.permit
  calling : v.calling = w.calling ∨ v.calling = k :: w.calling
  shown : ∀ a b, w.actors[k]? = some a → v.actors[k]? = some b → k ∉ v.calling →
    b.snapshot = a.snapshot

theorem watches_of_gauges (h : v.gauges.2 = w.gauges.2)
    (hshown : ∀ a b, w.actors[k]? = some a → v.actors[k]? = some b → b.snapshot = a.snapshot) :
    Watches w k v where
  ticker := congrArg Prod.fst h
  permit := congrArg (·.2.1) h
  calling := .inl (congrArg (·.2.2) h)
  shown a b ha hb _ := hshown a b ha hb

theorem Watches.refl (w : Limiter) (k : Nat) : Watches w k w :=
  watches_of_gauges rfl fun _ _ ha hb => by rw [Option.some.inj (ha.symm.trans hb)]

/-- The ticker is off only if there is nothing to watch, and it is ready whenever a registered manager
shows a wait and has made its call. -/
structure Vigilant (w : Limiter) : Prop where
  off : w.ticker = .off → w.registered = [] ∧ w.discoveries = []
  alert : ∀ k, w.Waited k → k ∉ w.calling → w.Alert

theorem Waited.registered (h : w.Waited k) : w.registered ≠ [] := by
  obtain ⟨name, a, hlisted, -⟩ := h
  exact List.ne_nil_of_mem hlisted

theorem Vigilant.started (h : w.Vigilant) (hregistered : w.registered ≠ []) : w.ticker ≠ .off :=
  fun hoff => hregistered (h.off hoff).1

/-- A call leaves the managers and what they show as they are. -/
theorem Waited.call (h : w.Waited k) (i : Nat) : (w.call i).Waited k := by
  have hcore := core_call w i
  obtain ⟨name, a, hlisted, ha, hwaits⟩ := h
  have hregistered : (w.call i).registered = w.registered :=
    congrArg Prod.snd (roster_of_core hcore)
  have hnow : (w.call i).now = w.now := (congrArg now hcore :)
  exact ⟨name, a, hregistered ▸ hlisted, actors_of_core hcore ▸ ha, hnow ▸ hwaits⟩

end Limiter

end Throttle
