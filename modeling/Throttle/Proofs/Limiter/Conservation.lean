import Throttle.Proofs.Limiter.Housing
import Throttle.Proofs.Limiter.Later
import Throttle.Proofs.Limiter.Room

/-!
  No submission is lost, and none ends twice. Until an instant outside the calendar ends a manager,
  a limiter holds every submission once or has seen its end once, unless the caller stopped waiting:
  `Kept` is kept by every move (`Kept.step`). What is held sits in a `Place`, and the places of a
  limiter hold what it holds (`held_eq_count_places`), so that a submission whose caller waits sits
  in one place, and one that has ended sits in none (`submissions_conserved`). What is held gets less
  only (`held_run`), so what has left does not come back.
-/

namespace Throttle

open Http Actor

namespace Limiter

variable {w v : Limiter} {ps : List Nat} {hs gs : List Happening} {m : Move} {id : Nat}

/-! ## The law of runs -/

/-- How many submissions have a number. -/
def issued (w : Limiter) (id : Nat) : Nat := if 0 < id ∧ id < w.nextId then 1 else 0

/-- What a limiter holds and what has ended make up all submissions, but for callers that stopped
waiting. -/
structure Kept (w : Limiter) (hs : List Happening) : Prop where
  housed : w.Housed
  numbered : 0 < w.nextId
  answered : w.answered = ((delivered hs).map (·.1)).reverse
  known : ∀ id ∈ endings hs, id ∈ w.dropped ∨ id ∈ (delivered hs).map (·.1)
  bound : ∀ id, w.held id + (endings hs).count id ≤ w.issued id
  balance : ∀ id, id ∉ w.dropped → w.held id + (endings hs).count id = w.issued id

theorem kept_new (config : Config) (authorizer : Authorizer) (now : Moment) :
    Kept (new config authorizer now) [] := by
  have hissued (id : Nat) : (new config authorizer now).issued id = 0 :=
    if_neg fun h => Nat.not_lt.2 h.1 h.2
  refine ⟨⟨.nil, ?_, ?_, ?_, ?_⟩, Nat.one_pos, rfl, ?_, ?_, ?_⟩
  · exact fun _ _ h => nomatch h
  · exact fun _ _ h => nomatch h
  · exact List.forall_mem_nil _
  · exact List.forall_mem_nil _
  · exact List.forall_mem_nil _
  · exact fun id => Nat.zero_le _
  · intro id _
    rw [hissued]
    rfl

namespace Kept

/-- A move that settles the submission that is made in it. -/
theorem settled (h : Kept w hs) (hv : v.Housed) (hs' : Settles w ps v [] gs)
    (hissued : ∀ id, v.issued id = w.issued id + ps.count id) (hnext : w.nextId ≤ v.nextId) :
    Kept v (hs ++ gs) where
  housed := hv
  numbered := Nat.lt_of_lt_of_le h.numbered hnext
  answered := by
    rw [hs'.answered, h.answered, delivered_append, List.map_append, List.reverse_append]
  known id hid := by
    rw [endings_append, List.mem_append] at hid
    rw [delivered_append, List.map_append, List.mem_append, hs'.dropped]
    rcases hid with hid | hid
    · exact (h.known id hid).imp_right .inl
    · exact (hs'.known id hid).imp_right .inr
  bound id := by
    have hbefore := h.bound id
    have hbound := hs'.bound id
    rw [List.count_nil] at hbound
    rw [endings_append, List.count_append, hissued]
    omega
  balance id hid := by
    rw [hs'.dropped] at hid
    have hbefore := h.balance id hid
    have hbalance := hs'.balance id hid
    rw [List.count_nil] at hbalance
    rw [endings_append, List.count_append, hissued]
    omega

/-- One caller more may stop waiting. -/
theorem letGo (h : Kept w hs) (id : Nat) (hnone : endings gs = []) :
    Kept (w.letGo id) (hs ++ gs) := by
  have hlines : Settles w [] w [] gs := .aside rfl hnone
  have hkept := h.settled h.housed hlines (fun _ => rfl) (Nat.le_refl _)
  unfold Limiter.letGo
  split
  · refine ⟨?_, hkept.numbered, hkept.answered, ?_, hkept.bound, ?_⟩
    · exact hkept.housed.frame rfl rfl rfl rfl
    · exact fun k hk => (hkept.known k hk).imp_left (.tail _)
    · exact fun k hk => hkept.balance k fun hmem => hk (.tail _ hmem)
  · exact hkept

end Kept

/-- In a move, what is submitted is settled, or a caller stops waiting. -/
theorem settles_or_letGo (h : w.Housed) (m : Move)
    (hstage : ∀ a ∈ (w.step m).1.actors, a.stage ≠ .failed) :
    Settles w ((w.submits? m).toList.map fun _ => w.nextId) (w.step m).1 [] (w.step m).2 ∨
      ∃ id, (w.step m).1 = w.letGo id ∧ endings (w.step m).2 = [] := by
  by_cases hcalm : ∀ id, m ≠ .cancel id ∧ m ≠ .letGo id
  · exact .inl (settles_step h m hcalm fun _ _ a ha => hstage a (List.mem_of_getElem? ha))
  · push Not at hcalm
    obtain ⟨id, hid⟩ := hcalm
    by_cases hcancel : m = .cancel id
    · subst hcancel
      exact .inr ⟨id, rfl, rfl⟩
    · obtain rfl := hid hcancel
      exact .inr ⟨id, rfl, rfl⟩

theorem issued_step (h : 0 < w.nextId) (m : Move) (id : Nat) :
    (w.step m).1.issued id =
      w.issued id + ((w.submits? m).toList.map fun _ => w.nextId).count id := by
  have hnext := (step_stamp w m).1
  unfold issued
  rw [hnext]
  cases w.submits? m with
  | none => rfl
  | some e =>
    show (if 0 < id ∧ id < w.nextId + 1 then 1 else 0) = _ + [w.nextId].count id
    by_cases hid : id = w.nextId
    · subst hid
      rw [if_pos ⟨h, Nat.lt_succ_self _⟩, if_neg fun hlt => Nat.lt_irrefl _ hlt.2,
        List.count_singleton_self]
    · have hsame : (0 < id ∧ id < w.nextId + 1) ↔ (0 < id ∧ id < w.nextId) := by omega
      rw [if_congr hsame rfl rfl, List.count_cons_of_ne (Ne.symm hid)]
      rfl

/-- Managers that have not failed after a move had not failed before. -/
theorem unfailed_step (h : ∀ a ∈ (w.step m).1.actors, a.stage ≠ .failed) :
    ∀ a ∈ w.actors, a.stage ≠ .failed := by
  intro a ha hstage
  obtain ⟨i, hi⟩ := List.getElem?_of_mem ha
  obtain ⟨b, hb, hfailed⟩ := later_induction (P := fun _ a => a.stage = .failed)
    (fun h _ => h) (fun _ _ h => h) (fun h hchange _ => hchange.failed h) hi hstage [m]
  exact h b (List.mem_of_getElem? hb) hfailed

theorem nextId_le_step (w : Limiter) (m : Move) : w.nextId ≤ (w.step m).1.nextId := by
  rw [(step_stamp w m).1]
  exact Nat.le_add_right _ _

theorem Kept.step (h : Kept w hs) (m : Move)
    (hstage : ∀ a ∈ (w.step m).1.actors, a.stage ≠ .failed) :
    Kept (w.step m).1 (hs ++ (w.step m).2) := by
  rcases settles_or_letGo h.housed m hstage with hsettles | ⟨id, hstep, hnone⟩
  · exact h.settled (housed_step h.housed m) hsettles (issued_step h.numbered m)
      (nextId_le_step w m)
  · rw [hstep]
    exact h.letGo id hnone

/-- In a move, a submission that was made before ends or is held as before, or vanishes. -/
theorem held_step (h : w.Housed) (m : Move)
    (hstage : ∀ a ∈ (w.step m).1.actors, a.stage ≠ .failed) (hid : id < w.nextId) :
    (w.step m).1.held id + (endings (w.step m).2).count id ≤ w.held id := by
  rcases settles_or_letGo h m hstage with hsettles | ⟨k, hstep, hnone⟩
  · have hbound := hsettles.bound id
    have hearlier : ((w.submits? m).toList.map fun _ => w.nextId).count id = 0 := by
      refine List.count_eq_zero.2 fun hmem => ?_
      obtain ⟨-, -, rfl⟩ := List.mem_map.1 hmem
      exact Nat.lt_irrefl _ hid
    rw [List.count_nil] at hbound
    omega
  · have hledger : (w.letGo k).held id = w.held id := by
      unfold Limiter.letGo
      split <;> rfl
    rw [hstep, hnone, hledger]
    exact Nat.le_refl _

theorem kept_run (config : Config) (authorizer : Authorizer) (now : Moment) (ms : List Move)
    (hstage : ∀ a ∈ ((new config authorizer now).after ms).actors, a.stage ≠ .failed) :
    Kept ((new config authorizer now).after ms)
      (((new config authorizer now).run ms).2.map (·.what)) := by
  induction ms using List.reverseRecOn with
  | nil => exact kept_new config authorizer now
  | append_singleton ms m ih =>
    rw [after_append] at hstage ⊢
    rw [run_snoc_what]
    exact (ih (unfailed_step hstage)).step m hstage

theorem housed_run (h : w.Housed) (ms : List Move) : (w.after ms).Housed := by
  induction ms generalizing w with
  | nil => exact h
  | cons m ms ih => exact ih (housed_step h m)

theorem nextId_le_run (w : Limiter) (ms : List Move) : w.nextId ≤ (w.after ms).nextId := by
  induction ms generalizing w with
  | nil => exact Nat.le_refl _
  | cons m ms ih => exact Nat.le_trans (nextId_le_step w m) (ih _)

theorem held_run (h : w.Housed) (ms : List Move)
    (hstage : ∀ a ∈ (w.after ms).actors, a.stage ≠ .failed) (hid : id < w.nextId) :
    (w.after ms).held id + (endings ((w.run ms).2.map (·.what))).count id ≤ w.held id := by
  induction ms using List.reverseRecOn with
  | nil => exact Nat.le_refl _
  | append_singleton ms m ih =>
    rw [after_append] at hstage ⊢
    have hbefore := ih (unfailed_step hstage)
    have hlast := held_step (housed_run h ms) m hstage
      (Nat.lt_of_lt_of_le hid (nextId_le_run w ms))
    rw [after_cons, after_nil, run_snoc_what, endings_append, List.count_append]
    omega

/-! ## Places -/

/-- Where a submission can be. -/
inductive Place where
  /-- Among those that wait for the probe of an endpoint. -/
  | waiters (endpoint : Endpoint)
  /-- On the way to a manager. -/
  | channel (manager : Nat)
  /-- In line at a manager. -/
  | queue (manager : Nat)
  /-- In the hands of a manager. -/
  | slot (manager : Nat)
  deriving DecidableEq

/-- The submissions in a place, by number. -/
def contents (w : Limiter) : Place → List Nat
  | .waiters e => (w.waitingFor e).map (·.id)
  | .channel i => (w.actors[i]?.elim [] fun a => queuedIn a.mailbox).map (·.id)
  | .queue i => (w.actors[i]?.elim [] fun a => a.manager.queue).map (·.id)
  | .slot i => (w.actors[i]?.elim [] fun a => a.manager.active.toList).map (·.id)

/-- The places of a manager. -/
def Place.ofManager (i : Nat) : List Place := [.slot i, .queue i, .channel i]

/-- All places that can hold something. -/
def places (w : Limiter) : List Place :=
  (w.routes.map fun x => .waiters x.1) ++ (List.range w.actors.length).flatMap Place.ofManager

theorem contents_ofManager {i : Nat} {a : Actor} (ha : w.actors[i]? = some a) :
    (Place.ofManager i).flatMap w.contents = a.custody := by
  show w.contents (.slot i) ++ (w.contents (.queue i) ++ (w.contents (.channel i) ++ [])) = _
  unfold contents
  dsimp only
  rw [ha, List.append_nil, custody_eq, Manager.custody, List.map_append, List.append_assoc]
  rfl

theorem contents_managers (w : Limiter) :
    ((List.range w.actors.length).flatMap Place.ofManager).flatMap w.contents =
      w.actors.flatMap Actor.custody := by
  rw [List.flatMap_assoc, List.flatMap_def, List.flatMap_def]
  congr 1
  apply List.ext_getElem?
  intro i
  rw [List.getElem?_map, List.getElem?_map]
  cases ha : w.actors[i]? with
  | none =>
    rw [List.getElem?_eq_none]
    · rfl
    · rw [List.length_range]
      exact List.getElem?_eq_none_iff.1 ha
  | some a =>
    rw [List.getElem?_range (List.getElem?_eq_some_iff.1 ha).1]
    exact congrArg some (contents_ofManager ha)

theorem contents_waiters (h : w.Housed) :
    (w.routes.map fun x => Place.waiters x.1).flatMap w.contents =
      w.routes.flatMap fun x => x.2.ids := by
  rw [List.flatMap_map]
  refine List.flatMap_congr fun x hx => ?_
  show ((w.route? x.1).elim [] Route.waiting).map (·.id) = x.2.ids
  unfold route?
  rw [lookup_of_mem h.keys hx]
  rfl

/-- The places of a limiter hold what it holds. -/
theorem held_eq_count_places (h : w.Housed) (id : Nat) :
    w.held id = (w.places.flatMap w.contents).count id := by
  unfold held places
  rw [List.flatMap_append, List.count_append, contents_managers, contents_waiters h]

/-- There is nothing elsewhere. -/
theorem mem_places {p : Place} (h : id ∈ w.contents p) : p ∈ w.places := by
  have managed {i : Nat} {f : Actor → List Pending} (hp : p ∈ Place.ofManager i)
      (h : id ∈ (w.actors[i]?.elim [] f).map (·.id)) : p ∈ w.places := by
    refine List.mem_append_right _ (List.mem_flatMap.2 ⟨i, ?_, hp⟩)
    rw [List.mem_range]
    by_contra hout
    rw [List.getElem?_eq_none (Nat.not_lt.1 hout)] at h
    cases h
  cases p with
  | waiters e =>
    refine List.mem_append_left _ (List.mem_map.2 ?_)
    have hwaits : id ∈ ((w.route? e).elim [] Route.waiting).map (·.id) := h
    cases hroute : w.route? e with
    | none =>
      rw [hroute] at hwaits
      cases hwaits
    | some r => exact ⟨(e, r), mem_of_lookup hroute, rfl⟩
  | channel i => exact managed (by simp [Place.ofManager]) h
  | queue i => exact managed (by simp [Place.ofManager]) h
  | slot i => exact managed (by simp [Place.ofManager]) h

theorem held_pos_iff (h : w.Housed) : 0 < w.held id ↔ ∃ p, id ∈ w.contents p := by
  rw [held_eq_count_places h, List.count_pos_iff, List.mem_flatMap]
  constructor
  · rintro ⟨p, -, hp⟩
    exact ⟨p, hp⟩
  · rintro ⟨p, hp⟩
    exact ⟨p, mem_places hp, hp⟩

/-- What all places together hold at most once is in one place only. -/
theorem sole_place (h : (w.places.flatMap w.contents).count id ≤ 1) {p : Place}
    (hp : id ∈ w.contents p) :
    (w.contents p).count id = 1 ∧ ∀ q, q ≠ p → id ∉ w.contents q := by
  have hpos := List.count_pos_iff.2 hp
  obtain ⟨i, hi⟩ := List.getElem?_of_mem (mem_places hp)
  have hle : (w.contents p).count id ≤ (w.places.flatMap w.contents).count id :=
    count_le_flatMap hi
  refine ⟨by omega, ?_⟩
  intro q hne hq
  have hpos' := List.count_pos_iff.2 hq
  obtain ⟨j, hj⟩ := List.getElem?_of_mem (mem_places hq)
  have hij : i ≠ j := by
    rintro rfl
    exact hne (Option.some.inj (hj.symm.trans hi))
  have htwo : (w.contents p).count id + (w.contents q).count id ≤
      (w.places.flatMap w.contents).count id := count_two_le_flatMap hij hi hj
  omega

/-! ## Conservation -/

/-- Every submission of a run is where it should be. -/
structure Conserved (w : Limiter) (ms : List Move) : Prop where
  /-- Whose caller has no result and waits for one is somewhere. -/
  kept : ∀ id, (w.after ms).isWaiting id = true → ∃ p, id ∈ (w.after ms).contents p
  /-- What is somewhere is there once, and nowhere else. -/
  single : ∀ id p, id ∈ (w.after ms).contents p →
    ((w.after ms).contents p).count id = 1 ∧ ∀ q, q ≠ p → id ∉ (w.after ms).contents q
  /-- A submission waits for the probe of its own endpoint. -/
  home : ∀ e, ∀ id ∈ (w.after ms).contents (.waiters e), id ∈ submittedTo e (w.log ms)
  /-- A submission with a result, or that was dropped because its caller is gone, is nowhere. -/
  ended : ∀ id ∈ endings ((w.run ms).2.map (·.what)), ∀ p, id ∉ (w.after ms).contents p
  /-- No submission ends twice. -/
  once : (endings ((w.run ms).2.map (·.what))).Nodup
  /-- A submission that is nowhere does not come back, and does not end from then on. -/
  away : ∀ front back id, ms = front ++ back → id < (w.after front).nextId →
    (∀ p, id ∉ (w.after front).contents p) →
    (∀ p, id ∉ (w.after ms).contents p) ∧
      id ∉ endings (((w.after front).run back).2.map (·.what))
  /-- The callers that got their results are those to whom a result went. -/
  resolved : ∀ id, id ∈ (w.after ms).answered ↔
    ∃ result, .answered id result ∈ (w.run ms).2.map (·.what)

theorem Kept.count_endings_le (h : Kept w hs) (id : Nat) :
    w.held id + (endings hs).count id ≤ 1 := by
  refine Nat.le_trans (h.bound id) ?_
  unfold issued
  split
  · exact Nat.le_refl 1
  · exact Nat.zero_le 1

/-- A limiter holds the submission of a caller that waits. -/
theorem Kept.held_of_waiting (h : Kept w hs) (hid : w.isWaiting id = true) : w.held id = 1 := by
  unfold isWaiting at hid
  simp only [Bool.and_eq_true, decide_eq_true_eq, Bool.not_eq_true', List.contains_eq_mem,
    decide_eq_false_iff_not] at hid
  obtain ⟨⟨⟨hlt, hpos⟩, hdropped⟩, hanswered⟩ := hid
  have hbalance := h.balance id hdropped
  have hnone : (endings hs).count id = 0 := by
    refine List.count_eq_zero.2 fun hend => hanswered ?_
    rw [h.answered, List.mem_reverse]
    exact (h.known id hend).resolve_left hdropped
  have hissued : w.issued id = 1 := if_pos ⟨hpos, hlt⟩
  omega

theorem away_run (h : w.Housed) (ms : List Move)
    (hstage : ∀ a ∈ (w.after ms).actors, a.stage ≠ .failed) (hid : id < w.nextId)
    (haway : ∀ p, id ∉ w.contents p) :
    (∀ p, id ∉ (w.after ms).contents p) ∧ id ∉ endings ((w.run ms).2.map (·.what)) := by
  have hnone : ¬ 0 < w.held id := by
    rw [held_pos_iff h]
    rintro ⟨p, hp⟩
    exact haway p hp
  have hle := held_run h ms hstage hid
  constructor
  · intro p hp
    have hpos := (held_pos_iff (housed_run h ms)).2 ⟨p, hp⟩
    omega
  · intro hend
    have hpos := List.count_pos_iff.2 hend
    omega

/-- In every run that stays within the calendar, no submission is lost, and none ends twice. -/
theorem submissions_conserved (config : Config) (authorizer : Authorizer) (now : Moment)
    (ms : List Move)
    (hstage : ∀ a ∈ ((new config authorizer now).after ms).actors, a.stage ≠ .failed) :
    Conserved (new config authorizer now) ms := by
  have hkept := kept_run config authorizer now ms hstage
  have hl := lined_run (w := new config authorizer now) rfl rfl ms
  have hle (id : Nat) := hkept.count_endings_le id
  constructor
  · intro id hid
    rw [← held_pos_iff hkept.housed, hkept.held_of_waiting hid]
    exact Nat.one_pos
  · intro id p hp
    refine sole_place ?_ hp
    rw [← held_eq_count_places hkept.housed]
    exact Nat.le_trans (Nat.le_add_right _ _) (hle id)
  · intro e id hid
    exact (hl.line e 0).subset (List.mem_append_right _ hid)
  · intro id hend p hp
    have hheld := (held_pos_iff hkept.housed).2 ⟨p, hp⟩
    have hpos := List.count_pos_iff.2 hend
    have hone := hle id
    omega
  · refine List.nodup_iff_count.2 fun id => ?_
    exact Nat.le_trans (Nat.le_add_left _ _) (hle id)
  · rintro front back id rfl hid haway
    rw [after_append] at hstage ⊢
    exact away_run (housed_run (kept_new config authorizer now).housed front) back hstage hid haway
  · intro id
    rw [hkept.answered, List.mem_reverse, List.mem_map]
    constructor
    · rintro ⟨⟨k, result⟩, hmem, rfl⟩
      exact ⟨result, mem_delivered.1 hmem⟩
    · rintro ⟨result, hmem⟩
      exact ⟨(id, result), mem_delivered.2 hmem, rfl⟩

/-- Of the four requests that waited for the probe, the first one got its reply, and the second one
was dropped when its turn came, since its caller had given up. -/
def crossedRun : List Move :=
  [.submit plainEndpoint plainRequest, .submit plainEndpoint plainRequest,
    .submit plainEndpoint plainRequest, .submit plainEndpoint plainRequest,
    .startProbe plainEndpoint, .submit otherEndpoint plainRequest,
    .endProbe plainEndpoint (.ok (sharedReply 1)), .settle plainEndpoint,
    .command 0, .command 0, .command 0, .command 0, .elapse 2000000000, .ring 0, .signal 0,
    .returned 0 1 (.ok (sharedReply 1)), .signal 0, .cancel 2, .elapse 12000000000, .ring 0,
    .signal 0, .command 0, .submit plainEndpoint plainRequest]

/-- The others are in all four kinds of places. -/
theorem submissions_conserved_crossedRun :
    (∀ a ∈ ((new .default .none 0).after crossedRun).actors, a.stage ≠ .failed) ∧
      Conserved (new .default .none 0) crossedRun ∧
      endings (((new .default .none 0).run crossedRun).2.map (·.what)) = [1, 2] ∧
      ((new .default .none 0).after crossedRun).contents (.slot 0) = [3] ∧
      ((new .default .none 0).after crossedRun).contents (.queue 0) = [4] ∧
      ((new .default .none 0).after crossedRun).contents (.channel 0) = [6] ∧
      ((new .default .none 0).after crossedRun).contents (.waiters otherEndpoint) = [5] := by
  have hstage : ∀ a ∈ ((new .default .none 0).after crossedRun).actors, a.stage ≠ .failed := by
    decide +kernel
  exact ⟨hstage, submissions_conserved .default .none 0 crossedRun hstage, by decide +kernel,
    by decide +kernel, by decide +kernel, by decide +kernel, by decide +kernel⟩

end Limiter

end Throttle
