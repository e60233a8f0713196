import Throttle.Proofs.Limiter.Routing
import Throttle.Proofs.Manager.Order

/-!
  First come, first served, from the submission of a request to its first transmission. The log of
  a run has every submission and all that passes each manager. `Lined` says where the requests of an
  endpoint are: those that entered a mailbox, followed by those that wait for a probe, are in the
  order of submission, and only one manager gets requests of an endpoint. Every move keeps it
  (`Lined.step`). With the order inside each manager this gives `transmitted_in_order`.
-/

namespace Throttle

open Http Actor

/-- Something that happens to a request on its way. -/
inductive Passage where
  | submitted (id : Nat) (endpoint : Endpoint)
  /-- It passes a manager. -/
  | passed (manager : Nat) (mark : Mark)

/-! ## Logs -/

/-- What passes one manager. -/
def marksOf (i : Nat) (log : List Passage) : List Mark :=
  log.filterMap fun
    | .passed j mark => if j = i then some mark else none
    | .submitted _ _ => none

/-- The requests submitted to an endpoint, in order. -/
def submittedTo (e : Endpoint) (log : List Passage) : List Nat :=
  log.filterMap fun
    | .submitted id f => if f = e then some id else none
    | .passed _ _ => none

/-- The requests handed to the transport by any manager, in order. -/
def transmitted (log : List Passage) : List Nat :=
  log.filterMap fun
    | .passed _ mark => mark.sent?
    | .submitted _ _ => none

@[simp] theorem marksOf_append (i : Nat) (log more : List Passage) :
    marksOf i (log ++ more) = marksOf i log ++ marksOf i more := List.filterMap_append

@[simp] theorem submittedTo_append (e : Endpoint) (log more : List Passage) :
    submittedTo e (log ++ more) = submittedTo e log ++ submittedTo e more :=
  List.filterMap_append

@[simp] theorem transmitted_append (log more : List Passage) :
    transmitted (log ++ more) = transmitted log ++ transmitted more := List.filterMap_append

@[simp] theorem marksOf_passed (i j : Nat) (ms : List Mark) :
    marksOf i (ms.map (.passed j)) = if j = i then ms else [] := by
  unfold marksOf
  rw [List.filterMap_map]
  split
  · rename_i h
    subst h
    simp
  · rename_i h
    simp [h]

theorem transmitted_passed (j : Nat) (ms : List Mark) :
    transmitted (ms.map (.passed j)) = sentIn ms := List.filterMap_map

@[simp] theorem submittedTo_passed (e : Endpoint) (j : Nat) (ms : List Mark) :
    submittedTo e (ms.map (.passed j)) = [] := by
  unfold submittedTo
  rw [List.filterMap_map, List.filterMap_eq_nil_iff]
  exact fun _ _ => rfl

namespace Limiter

variable {w : Limiter} {m : Move} {e f : Endpoint} {i j k : Nat}

/-- What passes the managers in a move, one manager after the other. -/
def passing (w : Limiter) (m : Move) : List Passage :=
  (List.range (w.step m).1.actors.length).flatMap fun i => (w.passages m i).map (.passed i)

/-- What a move adds to the log. -/
def entry (w : Limiter) (m : Move) : List Passage :=
  (w.submits? m).toList.map (.submitted w.nextId) ++ w.passing m

/-- The log of some moves. -/
def log (w : Limiter) : List Move → List Passage
  | [] => []
  | m :: ms => w.entry m ++ (w.step m).1.log ms

theorem log_append (w : Limiter) (ms ns : List Move) :
    w.log (ms ++ ns) = w.log ms ++ (w.after ms).log ns := by
  induction ms generalizing w with
  | nil => rfl
  | cons m ms ih => simp [log, ih]

theorem log_snoc (w : Limiter) (ms : List Move) (m : Move) :
    w.log (ms ++ [m]) = w.log ms ++ (w.after ms).entry m := by
  rw [log_append]
  exact congrArg _ (List.append_nil _)

theorem flatMap_range_of_one {α : Type} {f : Nat → List α} (n : Nat) (h : ∀ i, i ≠ k → f i = []) :
    (List.range n).flatMap f = if k < n then f k else [] := by
  induction n with
  | zero => rfl
  | succ n ih =>
    rw [List.range_succ, List.flatMap_append, ih, List.flatMap_singleton]
    by_cases hkn : k < n
    · have hne : n ≠ k := by omega
      have hlt : k < n + 1 := by omega
      rw [if_pos hkn, if_pos hlt, h n hne, List.append_nil]
    · rw [if_neg hkn, List.nil_append]
      by_cases heq : n = k
      · rw [heq, if_pos (Nat.lt_succ_self k)]
      · have hge : ¬ k < n + 1 := by omega
        rw [if_neg hge, h n heq]

theorem marksOf_passing (w : Limiter) (m : Move) (i : Nat) :
    marksOf i (w.passing m) = w.passages m i := by
  have hothers (j : Nat) (hj : j ≠ i) : marksOf i ((w.passages m j).map (.passed j)) = [] := by
    rw [marksOf_passed, if_neg hj]
  have hflat : marksOf i (w.passing m) = (List.range (w.step m).1.actors.length).flatMap
      fun j => marksOf i ((w.passages m j).map (.passed j)) := by
    unfold passing
    exact List.filterMap_flatMap
  rw [hflat, flatMap_range_of_one _ hothers, marksOf_passed, if_pos rfl]
  split
  · rfl
  · rename_i hlt
    exact (passages_of_none (List.getElem?_eq_none (Nat.le_of_not_lt hlt))).symm

theorem marksOf_entry (w : Limiter) (m : Move) (i : Nat) :
    marksOf i (w.entry m) = w.passages m i := by
  have hsubmitted : marksOf i ((w.submits? m).toList.map (.submitted w.nextId)) = [] := by
    cases w.submits? m <;> rfl
  unfold entry
  rw [marksOf_append, hsubmitted, marksOf_passing, List.nil_append]

theorem submittedTo_entry (w : Limiter) (m : Move) (e : Endpoint) :
    submittedTo e (w.entry m) = if w.submits? m = some e then [w.nextId] else [] := by
  have hpassing : submittedTo e (w.passing m) = [] := by
    unfold passing
    induction (List.range (w.step m).1.actors.length) with
    | nil => rfl
    | cons i is ih => rw [List.flatMap_cons, submittedTo_append, ih, submittedTo_passed]; rfl
  unfold entry
  rw [submittedTo_append, hpassing, List.append_nil]
  cases hs : w.submits? m with
  | none => rfl
  | some f =>
    by_cases hf : f = e
    · subst hf
      simp [submittedTo]
    · simp [submittedTo, hf]

/-- The log keeps what passes each manager. -/
theorem marksOf_log (w : Limiter) (ms : List Move) (i : Nat) :
    marksOf i (w.log ms) = w.passagesOver i ms := by
  induction ms generalizing w with
  | nil => rfl
  | cons m ms ih => rw [log, marksOf_append, marksOf_entry, ih]; rfl

/-! ## Which requests enter -/

/-- The requests that wait for a probe of an endpoint. -/
def waitingFor (w : Limiter) (e : Endpoint) : List Pending := (w.route? e).elim [] Route.waiting

theorem waitingFor_of_discovering {waiting : List Pending}
    (h : w.route? e = some (.discovering waiting)) : w.waitingFor e = waiting := by
  unfold waitingFor
  rw [h]
  rfl

theorem waitingFor_of_ready (h : w.route? e = some (.ready k)) : w.waitingFor e = [] := by
  unfold waitingFor
  rw [h]
  rfl

theorem waitingFor_of_none (h : w.route? e = none) : w.waitingFor e = [] := by
  unfold waitingFor
  rw [h]
  rfl

theorem waitingFor_of_same {v : Limiter} (h : v.route? e = w.route? e) :
    v.waitingFor e = w.waitingFor e := by
  unfold waitingFor
  rw [h]

/-- A manager gets the requests that enter its mailbox because it is known for the endpoint or
because a probe has just found it. -/
inductive Arrival (w : Limiter) (m : Move) (i : Nat) (ids : List Nat) : Prop where
  | none (h : ids = [])
  | direct {f : Endpoint} {r : Request} (hm : m = .submit f r) (hsubmits : w.submits? m = some f)
      (hroute : w.route? f = some (.ready i)) (h : ids.Sublist [w.nextId])
  | found {f : Endpoint} {d : Discovery} (hm : m = .settle f)
      (hdiscovery : w.discovery? f = some d) (hended : d.probe = .ended (.ok i))
      (hroute : ∃ waiting, w.route? f = some (.discovering waiting))
      (hhanded : w.handed m i ≠ []) (h : ids.Sublist ((w.waitingFor f).map (·.id)))

theorem arrivals_self (w : Limiter) (i : Nat) : w.arrivals w i = [] :=
  arrivals_of_length_le (Nat.le_refl _)

/-- Without anybody who holds the limiter, nothing is submitted. -/
theorem step_submit_of_unowned {r : Request} (h : w.owners = 0) :
    (w.step (.submit f r)).1 = w := by
  unfold step
  rw [if_pos (by rw [h]; rfl)]

theorem submits?_of_change {r : Request} (hm : m = .submit f r)
    (hne : (w.step m).1.route? f ≠ w.route? f) : w.submits? m = some f := by
  subst hm
  refine if_neg fun h => hne ?_
  rw [step_submit_of_unowned h]

theorem arrivals_arrival (w : Limiter) (m : Move) (i : Nat) :
    Arrival w m i (w.arrivals (w.step m).1 i) := by
  have hsub := arrivals_sublist w m i
  have nothing (h : w.handed m i = []) : Arrival w m i (w.arrivals (w.step m).1 i) := by
    rw [h] at hsub
    exact .none (List.sublist_nil.1 hsub)
  cases m with
  | submit f r =>
    by_cases howners : w.owners = 0
    · rw [step_submit_of_unowned howners]
      exact .none (arrivals_self w i)
    · by_cases hroute : w.route? f = some (.ready i)
      · simp only [handed, if_pos hroute] at hsub
        exact .direct rfl (if_neg howners) hroute hsub
      · exact nothing (if_neg hroute)
  | settle f =>
    by_cases hhanded : w.handed (.settle f) i = []
    · exact nothing hhanded
    · have hsome : ∃ k d waiting, w.discovery? f = some d ∧ d.probe = .ended (.ok k) ∧
          w.route? f = some (.discovering waiting) := by
        by_contra hnone
        refine hhanded (handed_settle_eq_nil ?_ i)
        exact fun k d waiting hd hk hwaiting => hnone ⟨k, d, waiting, hd, hk, hwaiting⟩
      obtain ⟨k, ⟨g, probe⟩, waiting, hd, rfl, hwaiting⟩ := hsome
      have heq : w.handed (.settle f) i = if k = i then waiting else [] := by
        simp only [handed, hd, hwaiting]
      by_cases hk : k = i
      · subst hk
        rw [heq, if_pos rfl] at hsub
        refine .found rfl hd rfl ⟨waiting, hwaiting⟩ hhanded ?_
        unfold waitingFor
        rw [hwaiting]
        exact hsub
      · exact nothing (heq.trans (if_neg hk))
  | _ => exact nothing rfl

/-- The requests of one endpoint that enter in a move: none, the one that is submitted, or those
that waited. -/
theorem Arrival.filter_cases {P : Nat → Bool} {ids : List Nat} (h : Arrival w m i ids)
    (hnew : P w.nextId = true ↔ w.submits? m = some e)
    (hothers : ∀ f, f ≠ e → ∀ p ∈ w.waitingFor f, P p.id = false) :
    ids.filter P = [] ∨
      (w.route? e = some (.ready i) ∧ w.submits? m = some e ∧
        (ids.filter P).Sublist [w.nextId]) ∨
      (m = .settle e ∧ w.handed m i ≠ [] ∧
        (ids.filter P).Sublist ((w.waitingFor e).map (·.id))) := by
  cases h with
  | none h =>
    rw [h]
    exact .inl rfl
  | @direct f r hm hsubmits hroute h =>
    by_cases hfe : f = e
    · subst hfe
      exact .inr (.inl ⟨hroute, hsubmits, List.filter_sublist.trans h⟩)
    · refine .inl (List.filter_eq_nil_iff.2 ?_)
      intro id hid hP
      obtain rfl := List.mem_singleton.1 (h.subset hid)
      exact hfe (Option.some.inj (hsubmits.symm.trans (hnew.1 hP)))
  | @found f d hm hdiscovery hended hroute hhanded h =>
    by_cases hfe : f = e
    · subst hfe
      exact .inr (.inr ⟨hm, hhanded, List.filter_sublist.trans h⟩)
    · refine .inl (List.filter_eq_nil_iff.2 ?_)
      intro id hid hP
      obtain ⟨p, hp, rfl⟩ := List.mem_map.1 (h.subset hid)
      rw [hothers f hfe p hp] at hP
      cases hP

/-- The requests that enter in a move, then those that wait afterwards: they are among those that
waited, then the one that is submitted. -/
theorem Rerouted.line {P : Nat → Bool} (h : Rerouted w m e (w.step m).1)
    {ids : List Nat} (ha : Arrival w m i ids)
    (hnew : P w.nextId = true ↔ w.submits? m = some e)
    (hothers : ∀ f, f ≠ e → ∀ p ∈ w.waitingFor f, P p.id = false) :
    (ids.filter P ++ ((w.step m).1.waitingFor e).map (·.id)).Sublist
      ((w.waitingFor e).map (·.id) ++ if w.submits? m = some e then [w.nextId] else []) := by
  have hfilter := ha.filter_cases hnew hothers
  -- the search is over: what enters waited or was submitted
  have searched (hnone : (w.step m).1.waitingFor e = []) :
      (ids.filter P ++ ((w.step m).1.waitingFor e).map (·.id)).Sublist
        ((w.waitingFor e).map (·.id) ++ if w.submits? m = some e then [w.nextId] else []) := by
    rw [hnone, List.map_nil, List.append_nil]
    rcases hfilter with h | ⟨-, hsubmits, h⟩ | ⟨-, -, h⟩
    · rw [h]
      exact List.nil_sublist _
    · rw [if_pos hsubmits]
      exact h.trans (List.sublist_append_right _ _)
    · exact h.trans (List.sublist_append_left _ _)
  cases h with
  | same hroute hsettle =>
    rcases hfilter with h | ⟨hready, -, -⟩ | ⟨hm, hhanded, -⟩
    · rw [waitingFor_of_same hroute, h]
      exact List.sublist_append_left _ _
    · exact searched (waitingFor_of_ready (hroute.trans hready))
    · exact absurd (hsettle hm i) hhanded
  | shut hshut => exact searched (waitingFor_of_none (hshut.route? e))
  | began hm hnone hroute =>
    have hsubmits := submits?_of_change hm (by rw [hroute, hnone]; nofun)
    rcases hfilter with h | ⟨hready, -, -⟩ | ⟨hsettle, -, -⟩
    · rw [h, waitingFor_of_discovering hroute, waitingFor_of_none hnone, if_pos hsubmits]
      exact List.Sublist.refl _
    · exact nomatch hnone.symm.trans hready
    · exact nomatch hm.symm.trans hsettle
  | @joined r waiting hm hbefore hroute =>
    have hsubmits := submits?_of_change hm (by rw [hroute, hbefore]; simp)
    rcases hfilter with h | ⟨hready, -, -⟩ | ⟨hsettle, -, -⟩
    · rw [h, waitingFor_of_discovering hroute, waitingFor_of_discovering hbefore,
        if_pos hsubmits, List.map_append]
      exact List.Sublist.refl _
    · exact nomatch hbefore.symm.trans hready
    · exact nomatch hm.symm.trans hsettle
  | found hm hbefore hended hroute => exact searched (waitingFor_of_ready hroute)
  | failed hm hbefore hhanded hended hrest hroute =>
    rcases hfilter with h | ⟨hready, -, -⟩ | ⟨-, hsome, -⟩
    · rw [h, waitingFor_of_discovering hbefore]
      rcases hroute with hroute | hroute
      · rw [waitingFor_of_discovering hroute]
        exact (hrest.map _).trans (List.sublist_append_left _ _)
      · rw [waitingFor_of_none hroute]
        exact List.nil_sublist _
    · exact nomatch hbefore.symm.trans hready
    · exact absurd (hhanded i) hsome

/-! ## The invariant -/

/-- Where the requests of each endpoint are. -/
structure Lined (w : Limiter) (log : List Passage) : Prop where
  closed : w.closed = true → w.Shut
  below : ∀ e, ∀ id ∈ submittedTo e log, id < w.nextId
  rising : ∀ e, (submittedTo e log).Pairwise (· < ·)
  apart : ∀ e f id, id ∈ submittedTo e log → id ∈ submittedTo f log → e = f
  /-- Those that entered a mailbox, then those that wait, in the order of submission. -/
  line : ∀ e i, ((enteredIn (marksOf i log)).filter (· ∈ submittedTo e log) ++
    (w.waitingFor e).map (·.id)).Sublist (submittedTo e log)
  known : ∀ i, ∀ id ∈ enteredIn (marksOf i log), ∃ e, id ∈ submittedTo e log
  /-- A manager that got requests of an endpoint is the one known for it. -/
  home : ∀ e i, ∀ id ∈ enteredIn (marksOf i log), id ∈ submittedTo e log →
    w.route? e = some (.ready i) ∨ w.Shut
  single : ∀ e i j, ∀ id ∈ enteredIn (marksOf i log), ∀ id' ∈ enteredIn (marksOf j log),
    id ∈ submittedTo e log → id' ∈ submittedTo e log → i = j

theorem lined_of_start (hroutes : w.routes = []) (hclosed : w.closed = false) : Lined w [] where
  closed h := absurd (h.symm.trans hclosed) nofun
  below _ := List.forall_mem_nil _
  rising _ := .nil
  apart _ _ _ h := nomatch h
  line e i := by
    have hnone : w.route? e = none := by
      unfold route?
      rw [hroutes]
      rfl
    rw [waitingFor_of_none hnone]
    exact .slnil
  known _ := List.forall_mem_nil _
  home _ _ := List.forall_mem_nil _
  single _ _ _ := List.forall_mem_nil _

namespace Lined

variable {log : List Passage}

/-- Which requests an endpoint has after one more move. -/
theorem mem_submittedTo_snoc {id : Nat} :
    id ∈ submittedTo e (log ++ w.entry m) ↔
      id ∈ submittedTo e log ∨ w.submits? m = some e ∧ id = w.nextId := by
  rw [submittedTo_append, List.mem_append, submittedTo_entry]
  split
  · rename_i h
    simp [h]
  · rename_i h
    simp [h]

/-- A request that enters was just submitted, or it waited. -/
theorem of_arrival (h : Lined w log) {ids : List Nat} (ha : Arrival w m i ids) {id : Nat}
    (hid : id ∈ ids) :
    ∃ f, id ∈ submittedTo f (log ++ w.entry m) ∧
      ((w.route? f = some (.ready i) ∧ w.submits? m = some f) ∨
        (m = .settle f ∧ w.handed m i ≠ [] ∧
          ∃ d waiting, w.discovery? f = some d ∧ d.probe = .ended (.ok i) ∧
            w.route? f = some (.discovering waiting))) := by
  cases ha with
  | none h =>
    rw [h] at hid
    cases hid
  | @direct f r hm hsubmits hroute hsub =>
    obtain rfl := List.mem_singleton.1 (hsub.subset hid)
    exact ⟨f, mem_submittedTo_snoc.2 (.inr ⟨hsubmits, rfl⟩), .inl ⟨hroute, hsubmits⟩⟩
  | @found f d hm hdiscovery hended hroute hhanded hsub =>
    obtain ⟨waiting, hwaiting⟩ := hroute
    have hmem : id ∈ submittedTo f log :=
      (h.line f i).subset (List.mem_append_right _ (hsub.subset hid))
    exact ⟨f, mem_submittedTo_snoc.2 (.inl hmem),
      .inr ⟨hm, hhanded, d, waiting, hdiscovery, hended, hwaiting⟩⟩

theorem apart_snoc (h : Lined w log) {id : Nat}
    (he : id ∈ submittedTo e (log ++ w.entry m)) (hf : id ∈ submittedTo f (log ++ w.entry m)) :
    e = f := by
  rcases mem_submittedTo_snoc.1 he with hold | ⟨hnew, rfl⟩ <;>
    rcases mem_submittedTo_snoc.1 hf with hold' | ⟨hnew', heq⟩
  · exact h.apart e f id hold hold'
  · exact absurd (h.below e id hold) (by omega)
  · exact absurd (h.below f _ hold') (by omega)
  · exact Option.some.inj (hnew.symm.trans hnew')

/-- A request that entered earlier is no other endpoint's after one more move. -/
theorem mem_of_entered (h : Lined w log) {id : Nat} (hid : id ∈ enteredIn (marksOf i log))
    (he : id ∈ submittedTo e (log ++ w.entry m)) : id ∈ submittedTo e log := by
  rcases mem_submittedTo_snoc.1 he with he | ⟨-, rfl⟩
  · exact he
  · obtain ⟨f, hf⟩ := h.known i _ hid
    exact absurd (h.below f _ hf) (Nat.lt_irrefl _)

/-- Where a request that entered comes from: its endpoint's manager is known or was just found, or
all is over. -/
theorem source (h : Lined w log) {id : Nat}
    (hid : id ∈ enteredIn (marksOf i log) ++ w.arrivals (w.step m).1 i)
    (he : id ∈ submittedTo e (log ++ w.entry m)) :
    (id ∈ enteredIn (marksOf i log) ∧ id ∈ submittedTo e log ∧ w.Shut) ∨
      w.route? e = some (.ready i) ∨
      (m = .settle e ∧ w.handed m i ≠ [] ∧
        ∃ d waiting, w.discovery? e = some d ∧ d.probe = .ended (.ok i) ∧
          w.route? e = some (.discovering waiting)) := by
  rcases List.mem_append.1 hid with hold | hnew
  · have he' := h.mem_of_entered hold he
    rcases h.home e i id hold he' with hready | hshut
    · exact .inr (.inl hready)
    · exact .inl ⟨hold, he', hshut⟩
  · obtain ⟨f, hf, hsource⟩ := h.of_arrival (arrivals_arrival w m i) hnew
    obtain rfl := h.apart_snoc he hf
    exact .inr (hsource.imp_left And.left)

/-- The manager of a request that entered stays the one known for its endpoint. -/
theorem home_step (h : Lined w log) {id : Nat}
    (hid : id ∈ enteredIn (marksOf i log) ++ w.arrivals (w.step m).1 i)
    (he : id ∈ submittedTo e (log ++ w.entry m)) :
    (w.step m).1.route? e = some (.ready i) ∨ (w.step m).1.Shut := by
  rcases h.source hid he with ⟨-, -, hshut⟩ | hready | ⟨hm, hhanded, d, waiting, hd, hended, hwaiting⟩
  · exact .inr (shut_step hshut m)
  · cases step_reroutes h.closed m e with
    | same hroute hsettle => exact .inl (hroute.trans hready)
    | shut hshut => exact .inr hshut
    | began hm hnone hroute => exact nomatch hnone.symm.trans hready
    | joined hm hbefore hroute => exact nomatch hbefore.symm.trans hready
    | found hm hbefore hended hroute => exact nomatch hbefore.symm.trans hready
    | failed hm hbefore hhanded hended hrest hroute => exact nomatch hbefore.symm.trans hready
  · cases step_reroutes h.closed m e with
    | same hroute hsettle => exact absurd (hsettle hm i) hhanded
    | shut hshut => exact .inr hshut
    | began hsubmit hnone hroute => exact nomatch hm.symm.trans hsubmit
    | joined hsubmit hbefore hroute => exact nomatch hm.symm.trans hsubmit
    | found hsettle hbefore hended' hroute =>
      obtain ⟨d', hd', hended'⟩ := hended'
      obtain rfl := Option.some.inj (hd.symm.trans hd')
      rw [hended] at hended'
      cases hended'
      exact .inl hroute
    | failed hsettle hbefore hnone herror hrest hroute => exact absurd (hnone i) hhanded

theorem single_step (h : Lined w log) {id id' : Nat}
    (hid : id ∈ enteredIn (marksOf i log) ++ w.arrivals (w.step m).1 i)
    (hid' : id' ∈ enteredIn (marksOf j log) ++ w.arrivals (w.step m).1 j)
    (he : id ∈ submittedTo e (log ++ w.entry m)) (he' : id' ∈ submittedTo e (log ++ w.entry m)) :
    i = j := by
  rcases h.source hid he with
      ⟨hold, hin, hshut⟩ | hready | ⟨-, -, d, waiting, hd, hended, hwaiting⟩ <;>
    rcases h.source hid' he' with
      ⟨hold', hin', hshut'⟩ | hready' | ⟨-, -, d', waiting', hd', hended', hwaiting'⟩
  · exact h.single e i j id hold id' hold' hin hin'
  · exact nomatch (hshut.route? e).symm.trans hready'
  · exact nomatch (hshut.route? e).symm.trans hwaiting'
  · exact nomatch (hshut'.route? e).symm.trans hready
  · cases hready.symm.trans hready'
    rfl
  · exact nomatch hready.symm.trans hwaiting'
  · exact nomatch (hshut'.route? e).symm.trans hwaiting
  · exact nomatch hready'.symm.trans hwaiting
  · obtain rfl := Option.some.inj (hd.symm.trans hd')
    rw [hended] at hended'
    cases hended'
    rfl

theorem line_step (h : Lined w log) (m : Move) (e : Endpoint) (i : Nat) :
    ((enteredIn (marksOf i log) ++ w.arrivals (w.step m).1 i).filter
        (· ∈ submittedTo e (log ++ w.entry m)) ++
      ((w.step m).1.waitingFor e).map (·.id)).Sublist (submittedTo e (log ++ w.entry m)) := by
  have hold : (enteredIn (marksOf i log)).filter (· ∈ submittedTo e (log ++ w.entry m)) =
      (enteredIn (marksOf i log)).filter (· ∈ submittedTo e log) := by
    apply List.filter_congr
    intro id hid
    rw [decide_eq_decide]
    exact ⟨h.mem_of_entered hid, fun he => mem_submittedTo_snoc.2 (.inl he)⟩
  have hline := (step_reroutes h.closed m e).line
    (P := fun id => decide (id ∈ submittedTo e (log ++ w.entry m))) (arrivals_arrival w m i) ?_ ?_
  · rw [List.filter_append, hold, List.append_assoc]
    refine ((List.Sublist.refl _).append hline).trans ?_
    rw [← List.append_assoc, submittedTo_append, submittedTo_entry]
    exact (h.line e i).append_right _
  · rw [decide_eq_true_iff, mem_submittedTo_snoc]
    constructor
    · rintro (hmem | ⟨hsubmits, -⟩)
      · exact absurd (h.below e _ hmem) (Nat.lt_irrefl _)
      · exact hsubmits
    · exact fun hsubmits => .inr ⟨hsubmits, rfl⟩
  · intro f hfe p hp
    have hmem : p.id ∈ submittedTo f log :=
      (h.line f i).subset (List.mem_append_right _ (List.mem_map_of_mem hp))
    rw [decide_eq_false_iff_not]
    exact fun he => hfe (h.apart_snoc (mem_submittedTo_snoc.2 (.inl hmem)) he)

/-- Every move keeps the requests in line. -/
protected theorem step (h : Lined w log) (m : Move) :
    Lined (w.step m).1 (log ++ w.entry m) := by
  have hnext := (step_stamp w m).1
  have hentered (i : Nat) : enteredIn (marksOf i (log ++ w.entry m)) =
      enteredIn (marksOf i log) ++ w.arrivals (w.step m).1 i := by
    rw [marksOf_append, marksOf_entry, enteredIn_append, enteredIn_passages]
  refine ⟨closed_step h.closed m, ?_, ?_, ?_, ?_, ?_, ?_, ?_⟩
  · intro e id hmem
    rcases mem_submittedTo_snoc.1 hmem with hmem | ⟨hsubmits, rfl⟩
    · have hlt := h.below e id hmem
      omega
    · rw [hnext, hsubmits]
      exact Nat.lt_succ_self _
  · intro e
    rw [submittedTo_append, List.pairwise_append]
    refine ⟨h.rising e, ?_, ?_⟩
    · rw [submittedTo_entry]
      split
      · exact List.pairwise_singleton _ _
      · exact .nil
    · intro a ha b hb
      rw [submittedTo_entry] at hb
      split at hb
      · obtain rfl := List.mem_singleton.1 hb
        exact h.below e a ha
      · cases hb
  · exact fun e f id => h.apart_snoc
  · intro e i
    rw [hentered]
    exact h.line_step m e i
  · intro i id hmem
    rw [hentered, List.mem_append] at hmem
    rcases hmem with hmem | hmem
    · obtain ⟨e, he⟩ := h.known i id hmem
      exact ⟨e, mem_submittedTo_snoc.2 (.inl he)⟩
    · obtain ⟨f, hf, -⟩ := h.of_arrival (arrivals_arrival w m i) hmem
      exact ⟨f, hf⟩
  · intro e i id hmem he
    rw [hentered] at hmem
    exact h.home_step hmem he
  · intro e i j id hmem id' hmem' he he'
    rw [hentered] at hmem hmem'
    exact h.single_step hmem hmem' he he'

end Lined

/-- In every run the requests are in line. -/
theorem lined_run (hroutes : w.routes = []) (hclosed : w.closed = false) (ms : List Move) :
    Lined (w.after ms) (w.log ms) := by
  induction ms using List.reverseRecOn with
  | nil => exact lined_of_start hroutes hclosed
  | append_singleton ms m ih =>
    rw [after_append, log_snoc]
    exact ih.step m

/-! ## The order of transmissions -/

variable {ms : List Move}

/-- No request enters a mailbox twice. -/
theorem Lined.entered_nodup {log : List Passage} (h : Lined w log) (i : Nat) :
    (enteredIn (marksOf i log)).Nodup := by
  rw [List.nodup_iff_count]
  intro id
  by_cases hid : id ∈ enteredIn (marksOf i log)
  · obtain ⟨e, he⟩ := h.known i id hid
    have hline := (List.sublist_append_left _ _).trans (h.line e i)
    have hnodup : (submittedTo e log).Nodup := (h.rising e).imp Nat.ne_of_lt
    have hcount := List.nodup_iff_count.1 (hline.nodup hnodup) id
    rwa [List.count_filter (by simpa using he)] at hcount
  · rw [List.count_eq_zero_of_not_mem hid]
    exact Nat.zero_le 1

/-- What passes a manager in a run that begins without managers is the record of a life. -/
theorem marksOf_run (hactors : w.actors = []) (ms : List Move) (i : Nat) :
    ∃ name ds, marksOf i (w.log ms) = (Actor.new name).record ds := by
  rw [marksOf_log]
  cases h : (w.after ms).actors[i]? with
  | none =>
    rw [passagesOver_of_none h]
    exact ⟨⟨"p", rfl⟩, [], rfl⟩
  | some b =>
    obtain ⟨name, ds, -, hover⟩ := run_lives hactors ms h
    exact ⟨name, ds, hover⟩

theorem firsts_of_run (hactors : w.actors = []) (ms : List Move) (i : Nat) :
    (sentIn (marksOf i (w.log ms))).eraseDups.Sublist (enteredIn (marksOf i (w.log ms))) := by
  obtain ⟨name, ds, h⟩ := marksOf_run hactors ms i
  rw [h]
  exact firsts_sublist name ds

end Limiter

theorem eraseDups_filter (p : Nat → Bool) (xs : List Nat) :
    (xs.filter p).eraseDups = xs.eraseDups.filter p := by
  match xs with
  | [] => rfl
  | x :: xs =>
    rw [List.eraseDups_cons]
    by_cases hx : p x = true
    · rw [List.filter_cons_of_pos hx, List.filter_cons_of_pos hx, List.eraseDups_cons,
        ← eraseDups_filter p (xs.filter fun y => !y == x), List.filter_filter, List.filter_filter]
      simp only [Bool.and_comm]
    · rw [List.filter_cons_of_neg hx, List.filter_cons_of_neg hx,
        ← eraseDups_filter p (xs.filter fun y => !y == x), List.filter_filter]
      congr 1
      apply List.filter_congr
      intro y _
      by_cases hy : p y = true
      · have hne : (y == x) = false := beq_eq_false_iff_ne.2 fun heq => hx (heq ▸ hy)
        simp [hy, hne]
      · simp [hy]
termination_by xs.length
decreasing_by
  · exact Nat.lt_succ_of_le (List.length_filter_le _ _)
  · exact Nat.lt_succ_of_le (List.length_filter_le _ _)

/-- Requests of which only one manager sends any are sent in that manager's order. -/
theorem transmitted_filter {p : Nat → Bool} {k : Nat} {log : List Passage}
    (h : ∀ j id, .passed j (.sent id) ∈ log → p id = true → j = k) :
    (transmitted log).filter p = (sentIn (marksOf k log)).filter p := by
  induction log with
  | nil => rfl
  | cons x log ih =>
    have hrest := ih fun j id hmem => h j id (.tail _ hmem)
    cases x with
    | submitted id e => exact hrest
    | passed j mark =>
      have hmine : marksOf k (.passed j mark :: log) =
          (if j = k then [mark] else []) ++ marksOf k log :=
        (marksOf_append k [.passed j mark] log).trans
          (congrArg (· ++ marksOf k log) (marksOf_passed k j [mark]))
      have hall : transmitted (.passed j mark :: log) = mark.sent?.toList ++ transmitted log := by
        cases mark <;> rfl
      rw [hmine, hall, sentIn_append, List.filter_append, List.filter_append, hrest]
      congr 1
      by_cases hjk : j = k
      · rw [if_pos hjk]
        cases mark <;> rfl
      · rw [if_neg hjk]
        cases mark with
        | sent id =>
          have hid : ¬ p id = true := fun hp => hjk (h j id (.head _) hp)
          exact List.filter_eq_nil_iff.2 fun x hx => by
            obtain rfl := List.mem_singleton.1 hx
            exact hid
        | _ => rfl

theorem mem_marksOf {i : Nat} {mark : Mark} {log : List Passage} :
    mark ∈ marksOf i log ↔ .passed i mark ∈ log := by
  unfold marksOf
  rw [List.mem_filterMap]
  constructor
  · rintro ⟨⟨⟩ | ⟨j, other⟩, hmem, heq⟩
    · cases heq
    · simp only [Option.ite_none_right_eq_some, Option.some.injEq] at heq
      obtain ⟨rfl, rfl⟩ := heq
      exact hmem
  · exact fun hmem => ⟨_, hmem, if_pos rfl⟩

theorem mem_transmitted {id : Nat} {log : List Passage} :
    id ∈ transmitted log ↔ ∃ i, .passed i (.sent id) ∈ log := by
  unfold transmitted
  rw [List.mem_filterMap]
  constructor
  · rintro ⟨⟨⟩ | ⟨j, mark⟩, hmem, heq⟩
    · cases heq
    · cases mark <;> cases heq
      exact ⟨j, hmem⟩
  · exact fun ⟨i, hmem⟩ => ⟨_, hmem, rfl⟩

theorem mem_sentIn {id : Nat} {ms : List Mark} : id ∈ sentIn ms ↔ .sent id ∈ ms := by
  unfold sentIn
  rw [List.mem_filterMap]
  constructor
  · rintro ⟨mark, hmem, heq⟩
    cases mark <;> cases heq
    exact hmem
  · exact fun hmem => ⟨_, hmem, rfl⟩

/-- The request that a manager handed to the transport. -/
def Sender.request? : Sender → Option Nat
  | .manager _ id => some id
  | .probe _ => none

/-- The requests that managers handed to the transport. -/
def handedOver (hs : List Happening) : List Nat :=
  (Limiter.senders hs).filterMap Sender.request?

theorem handedOver_append (hs gs : List Happening) :
    handedOver (hs ++ gs) = handedOver hs ++ handedOver gs := by
  unfold handedOver
  rw [Limiter.senders_append, List.filterMap_append]

/-- If only one manager can have sent something, that is all that was sent. -/
theorem handedOver_of_one {k : Nat} {hs : List Happening}
    (h : ∀ i, i ≠ k → Limiter.sentBy i hs = []) : handedOver hs = Limiter.sentBy k hs := by
  apply List.filterMap_congr
  intro sender hmem
  cases sender with
  | probe e => rfl
  | manager j id =>
    have hjk : j = k := by
      by_contra hne
      have hnone := List.filterMap_eq_nil_iff.1 (h j hne) _ hmem
      exact nomatch (if_pos rfl).symm.trans hnone
    exact (if_pos hjk).symm

namespace Limiter

variable {w : Limiter} {m : Move} {ms : List Move} {e : Endpoint} {i k : Nat}

theorem transmitted_passing (w : Limiter) (m : Move) :
    transmitted (w.passing m) = handedOver (w.step m).2 := by
  have hothers (i : Nat) (hi : i ≠ m.actor?.getD 0) : sentBy i (w.step m).2 = [] :=
    sentBy_of_other fun h => hi (congrArg (·.getD 0) h).symm
  have hsent (i : Nat) :
      transmitted ((w.passages m i).map (.passed i)) = sentBy i (w.step m).2 := by
    rw [transmitted_passed]
    exact sentIn_passages w m i
  have hflat : transmitted (w.passing m) =
      (List.range (w.step m).1.actors.length).flatMap fun i => sentBy i (w.step m).2 := by
    simp only [← hsent]
    exact List.filterMap_flatMap
  rw [hflat, flatMap_range_of_one _ hothers, handedOver_of_one hothers]
  split
  · rfl
  · rename_i hlt
    rw [← sentIn_passages, passages_of_none (List.getElem?_eq_none (Nat.le_of_not_lt hlt))]
    rfl

/-- The log has the transmissions of the run. -/
theorem transmitted_log (w : Limiter) (ms : List Move) :
    transmitted (w.log ms) = handedOver ((w.run ms).2.map (·.what)) := by
  induction ms generalizing w with
  | nil => rfl
  | cons m ms ih =>
    have hsubmitted : transmitted ((w.submits? m).toList.map (.submitted w.nextId)) = [] := by
      cases w.submits? m <;> rfl
    have hrun : (w.run (m :: ms)).2.map (·.what) =
        (w.step m).2 ++ ((w.step m).1.run ms).2.map (·.what) := by
      show List.map _ ((w.step m).2.map _ ++ _) = _
      rw [List.map_append, List.map_map]
      exact congrArg (· ++ _) (List.map_id _)
    rw [log, entry, transmitted_append, transmitted_append, hsubmitted, transmitted_passing, ih,
      hrun, handedOver_append]
    rfl

/-- What a manager sends entered its mailbox. -/
theorem entered_of_sent (hactors : w.actors = []) {id : Nat}
    (h : .passed i (.sent id) ∈ w.log ms) : id ∈ enteredIn (marksOf i (w.log ms)) :=
  (firsts_of_run hactors ms i).subset
    (List.mem_eraseDups.2 (mem_sentIn.2 (mem_marksOf.2 h)))

/-- The first transmissions of the requests of an endpoint are in the order of submission. -/
theorem firsts_rising (hactors : w.actors = []) (hl : Lined w' (w.log ms)) (e : Endpoint) :
    ((transmitted (w.log ms)).filter (· ∈ submittedTo e (w.log ms))).eraseDups.Pairwise
      (· < ·) := by
  by_cases hsome : ∃ k id, .passed k (.sent id) ∈ w.log ms ∧ id ∈ submittedTo e (w.log ms)
  · obtain ⟨k, id, hk, hid⟩ := hsome
    have hhome : ∀ j id', .passed j (.sent id') ∈ w.log ms →
        decide (id' ∈ submittedTo e (w.log ms)) = true → j = k := fun j id' hj hid' =>
      hl.single e j k id' (entered_of_sent hactors hj) id (entered_of_sent hactors hk)
        (of_decide_eq_true hid') hid
    rw [transmitted_filter hhome, eraseDups_filter]
    exact (hl.rising e).sublist
      (((firsts_of_run hactors ms k).filter _).trans
        ((List.sublist_append_left _ _).trans (hl.line e k)))
  · have hnone : (transmitted (w.log ms)).filter (· ∈ submittedTo e (w.log ms)) = [] := by
      refine List.filter_eq_nil_iff.2 fun id hid hin => hsome ?_
      obtain ⟨k, hk⟩ := mem_transmitted.1 hid
      exact ⟨k, id, hk, of_decide_eq_true hin⟩
    rw [hnone]
    exact .nil

/-- A request is sent once more by the manager that sent it before, after its refusal, with nothing
of that manager in between. -/
theorem resent_in_run (hactors : w.actors = []) (hl : Lined w' (w.log ms))
    {front back rest : List Passage} {j id : Nat}
    (h : w.log ms = (front ++ .passed i (.sent id) :: back) ++ .passed j (.sent id) :: rest)
    (hback : id ∉ transmitted back) :
    j = i ∧ sentIn (marksOf i back) = [] ∧ returnsIn (marksOf i back) = [(id, true)] := by
  have hi : id ∈ enteredIn (marksOf i (w.log ms)) := entered_of_sent hactors (by simp [h])
  have hj : id ∈ enteredIn (marksOf j (w.log ms)) := entered_of_sent hactors (by simp [h])
  obtain ⟨e, he⟩ := hl.known i id hi
  obtain rfl := hl.single e j i id hj id hi he he
  have hnever : id ∉ sentIn (marksOf j back) := fun hmem =>
    hback (mem_transmitted.2 ⟨j, mem_marksOf.1 (mem_sentIn.1 hmem)⟩)
  have hmarks : marksOf j (w.log ms) =
      (marksOf j front ++ .sent id :: marksOf j back) ++ .sent id :: marksOf j rest := by
    have hone (log : List Passage) :
        marksOf j (.passed j (.sent id) :: log) = .sent id :: marksOf j log :=
      (marksOf_append j [.passed j (.sent id)] log).trans
        (congrArg (· ++ marksOf j log) ((marksOf_passed j j [.sent id]).trans (if_pos rfl)))
    rw [h, marksOf_append, marksOf_append, hone, hone]
  obtain ⟨name, ds, hrecord⟩ := marksOf_run hactors ms j
  have hnodup := hl.entered_nodup j
  rw [hrecord] at hmarks hnodup
  exact ⟨rfl, resent_after_refusal name ds hnodup hmarks hnever⟩

/-- Requests leave first come, first served. -/
structure FirstCome (log : List Passage) : Prop where
  /-- The requests of an endpoint leave in the order of submission. -/
  endpoint : ∀ e, ((transmitted log).filter (· ∈ submittedTo e log)).eraseDups.Pairwise (· < ·)
  nodup : ∀ i, (enteredIn (marksOf i log)).Nodup
  /-- The requests of a manager leave in the order in which they entered its mailbox. -/
  manager : ∀ i, (sentIn (marksOf i log)).eraseDups.Sublist (enteredIn (marksOf i log))
  /-- A request leaves once more from the same manager, with its refusal since and nothing else. -/
  resent : ∀ front back rest i j id,
    log = (front ++ .passed i (.sent id) :: back) ++ .passed j (.sent id) :: rest →
    id ∉ transmitted back →
    j = i ∧ sentIn (marksOf i back) = [] ∧ returnsIn (marksOf i back) = [(id, true)]

/-- In every run of a limiter, requests leave first come, first served. -/
theorem transmitted_in_order (config : Config) (authorizer : Authorizer) (now : Moment)
    (ms : List Move) :
    transmitted ((new config authorizer now).log ms) =
        handedOver (((new config authorizer now).run ms).2.map (·.what)) ∧
      FirstCome ((new config authorizer now).log ms) := by
  have hl := lined_run (w := new config authorizer now) rfl rfl ms
  exact ⟨transmitted_log _ ms,
    { endpoint := firsts_rising rfl hl
      nodup := hl.entered_nodup
      manager := firsts_of_run rfl ms
      resent := fun _ _ _ _ _ _ => resent_in_run rfl hl }⟩

end Limiter

end Throttle
