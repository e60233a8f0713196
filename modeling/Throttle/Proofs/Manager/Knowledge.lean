import Throttle.Proofs.Manager.Breakdown
import Throttle.Proofs.Manager.Naming
import Throttle.Proofs.Manager.Suspension
import Throttle.Proofs.Policy.RoundTrip

/-!
  What a manager knows of its policy. A deed leaves what it knows alone, or teaches it one reply
  (`undergo_learns`). A policy that a reply declares is `WellFormed`, and stays so when it is marked as
  invalid. The history has room for all that the policy allows (`Roomy`), whatever replies were taken
  in, and its capacity never shrinks.
-/

namespace Throttle

open Http

theorem Item.status_ne_unknown (i : Item) : i.status ≠ .unknown := by
  unfold Item.status classify
  split
  · nofun
  · split
    · nofun
    · split <;> nofun

namespace Policy

variable {p : Policy}

/-- A policy that a server declared: it limits something, and its states count over the periods of
their limits. -/
structure WellFormed (p : Policy) : Prop where
  rules : p.rules ≠ []
  items : ∀ r ∈ p.rules, r.items ≠ []
  consistent : ∀ i ∈ p.items, i.Consistent
  known : p.status ≠ .unknown

theorem WellFormed.invalidated (h : p.WellFormed) : p.invalidated.WellFormed where
  rules := h.rules
  items := h.items
  consistent := h.consistent
  known := nofun

/-- A status is known where there is an item. -/
theorem status_ofRules (name : PolicyName) {rules : List Rule} (hrules : rules ≠ [])
    (hitems : ∀ r ∈ rules, r.items ≠ []) : (ofRules name rules).status ≠ .unknown := by
  intro hunknown
  have hrule : Status.worst (rules.map Rule.status) ∈ rules.map Rule.status :=
    Status.worst_mem (by simpa using hrules)
  obtain ⟨r, hr, hstatus⟩ := List.mem_map.1 hrule
  have hitem : Status.worst (r.items.map Item.status) ∈ r.items.map Item.status :=
    Status.worst_mem (by simpa using hitems r hr)
  obtain ⟨i, -, hi⟩ := List.mem_map.1 hitem
  exact i.status_ne_unknown ((hi.trans hstatus).trans hunknown)

/-- What headers declare is well-formed, if its periods fit. -/
theorem wellFormed_of_declared {h : Headers}
    (hp : ofHeaders? h >>= ensureConsistent = .ok p) : p.WellFormed := by
  cases hread : ofHeaders? h with
  | error e =>
    rw [hread] at hp
    cases hp
  | ok q =>
    rw [hread] at hp
    obtain ⟨hmismatch, rfl⟩ := ensureConsistent_eq_ok_iff.1 hp
    have hdeclared := ofHeaders?_eq_ok_iff.1 hread
    have hitems (r : Rule) (hr : r ∈ p.rules) : r.items ≠ [] :=
      (Rule.ofHeaders?_eq_ok_iff.1 (hdeclared.rules r hr)).2.1
    refine ⟨hdeclared.ne_nil, hitems, mismatch?_eq_none_iff.1 hmismatch, ?_⟩
    rw [hdeclared.status]
    exact status_ofRules p.name hdeclared.ne_nil hitems

end Policy

namespace History

variable {h : History}

theorem place_ne_nil (t : Moment) (l : List Moment) : place t l ≠ [] := by
  cases l with
  | nil => exact List.cons_ne_nil t []
  | cons e es =>
    unfold place
    split <;> exact List.cons_ne_nil _ _

/-- A history that took an entry keeps one, if it can hold any. -/
theorem push_entries_eq_nil (h : History) (t : Moment) :
    (h.push t).entries = [] ↔ h.capacity = 0 := by
  unfold push
  rw [List.take_eq_nil_iff, or_iff_left (place_ne_nil t h.entries)]

end History

namespace Manager

variable {m m' : Manager} {reply : Reply} {p : Policy}

/-- The declared policy of a reply is well-formed. -/
theorem wellFormed_of_declaration (h : declaration reply = some (.ok p)) : p.WellFormed := by
  unfold declaration at h
  split at h
  · exact Policy.wellFormed_of_declared (Option.some.inj h)
  · cases h

/-- A policy that is well-formed stays so. -/
theorem wellFormed_policyAfter (h : m.policy.WellFormed) (reply : Reply) :
    (m.policyAfter reply).WellFormed := by
  unfold policyAfter
  split
  · exact h
  · rename_i p hdeclared
    exact wellFormed_of_declaration hdeclared
  · exact h.invalidated

/-- The history can hold all that the policy allows, and holds something if it can. -/
structure Roomy (m : Manager) : Prop where
  capacity : m.policy.maximumHits ≤ m.history.capacity
  entries : m.history.entries = [] → m.history.capacity = 0

theorem roomy_new (name : PolicyName) : (new name).Roomy := ⟨Nat.le_refl 0, fun _ => rfl⟩

theorem Roomy.heard (h : m.Roomy) (reply : Reply) : (m.heard reply).Roomy := by
  refine ⟨?_, ?_⟩
  · show (m.policyAfter reply).maximumHits ≤ (m.historyAfter reply).capacity
    unfold policyAfter historyAfter
    cases declaration reply with
    | none => exact h.capacity
    | some d =>
      cases d with
      | error e => exact h.capacity
      | ok p => exact Nat.le_max_right _ _
  · show (m.historyAfter reply).entries = [] → (m.historyAfter reply).capacity = 0
    unfold historyAfter
    split <;> exact (History.push_entries_eq_nil _ _).1

/-- A reply never costs the history room. -/
theorem capacity_le_historyAfter (m : Manager) (reply : Reply) :
    m.history.capacity ≤ (m.historyAfter reply).capacity := by
  unfold historyAfter
  split
  · exact Nat.le_max_left _ _
  · exact Nat.le_refl _

/-! ## Learning -/

/-- A manager knows what another one knew, or has taken in one reply more. -/
inductive Learns (m m' : Manager) : Prop where
  | nothing (h : m'.KnowsAs m)
  | heard (reply : Reply) (h : m'.KnowsAs (m.heard reply))

theorem Learns.wellFormed (h : m.Learns m') (hm : m.policy.WellFormed) : m'.policy.WellFormed := by
  cases h with
  | nothing h => exact h.policy ▸ hm
  | heard reply h => exact h.policy ▸ wellFormed_policyAfter hm reply

theorem Learns.roomy (h : m.Learns m') (hm : m.Roomy) : m'.Roomy := by
  have same {n : Manager} (h : m'.KnowsAs n) (hn : n.Roomy) : m'.Roomy :=
    ⟨h.policy ▸ h.history ▸ hn.capacity, h.history ▸ hn.entries⟩
  cases h with
  | nothing h => exact same h hm
  | heard reply h => exact same h (hm.heard reply)

theorem Learns.capacity_le (h : m.Learns m') : m.history.capacity ≤ m'.history.capacity := by
  cases h with
  | nothing h => exact Nat.le_of_eq (congrArg _ h.history.symm)
  | heard reply h => exact h.history ▸ capacity_le_historyAfter m reply

theorem Learns.of_learning {msg : Message} (h : m'.KnowsAs (m.learning msg)) : m.Learns m' := by
  cases msg with
  | seed reply => exact .heard reply h
  | queue p => exact .nothing h
  | fire generation => exact .nothing h
  | reply result =>
    cases result with
    | error e => exact .nothing h
    | ok reply =>
      simp only [learning] at h
      split at h
      · exact .heard reply h
      · exact .nothing h

/-- A stopping manager still takes in the reply that it waited for. -/
theorem concluded_learns (m : Manager) (r : Except TransportFailure Reply) :
    m.Learns (m.concluded r) := by
  cases r with
  | error e => exact .nothing ⟨rfl, rfl⟩
  | ok reply =>
    refine .heard reply ?_
    unfold concluded
    dsimp only
    split <;> exact ⟨rfl, rfl⟩

end Manager

namespace Actor

variable {s : Surroundings} {a b : Actor} {step : Step}

/-- A message that a running actor takes teaches it one reply at most. -/
theorem finish_learns (msg : Manager.Message) (holding : List Pending) (hb : b.manager = a.manager) :
    a.manager.Learns (b.finish .running holding (a.manager.receive s msg)).actor.manager := by
  have hends := Manager.receive_ends s a.manager msg
  cases hr : (a.manager.receive s msg).result with
  | ok m' =>
    rw [finish_of_ok hr, after_manager]
    exact .of_learning (hends.result hr).learns
  | error e =>
    rw [finish_of_error hr (hends.quiet hr), broken_manager, hb]
    exact .nothing (.refl _)

theorem close_learns (a : Actor) : a.manager.Learns a.close.actor.manager := by
  rw [close_eq, after_manager]
  exact .nothing ⟨rfl, rfl⟩

theorem command_learns (h : a.command s = some step) : a.manager.Learns step.actor.manager := by
  unfold command at h
  split at h
  · cases h
  · split at h
    · split at h <;> cases h
      exact close_learns a
    · rename_i c rest hmailbox
      cases c with
      | seed reply =>
        cases h
        exact finish_learns (.seed reply) [] rfl
      | queue p =>
        cases h
        exact finish_learns (.queue p) [p] rfl
      | shutdown =>
        cases h
        exact close_learns { a with mailbox := rest }

theorem signal_learns (h : a.signal s = some step) : a.manager.Learns step.actor.manager := by
  unfold signal at h
  split at h
  · cases h
  · rename_i x rest hinbox
    dsimp only at h
    split at h <;> cases h
    · exact finish_learns (.fire _) [] rfl
    · exact finish_learns (.reply _) [] rfl
    · exact .nothing (.refl _)
    · rw [conclude_eq, after_manager]
      exact a.manager.concluded_learns _
    · exact .nothing (.refl _)

/-- A deed teaches a manager one reply at most. -/
theorem undergo_learns (a : Actor) (d : Deed) : a.manager.Learns (a.undergo d).manager := by
  cases d with
  | post c =>
    simp only [undergo]
    split <;> exact .nothing (.refl _)
  | command s =>
    cases hstep : a.command s with
    | none =>
      simp only [undergo, hstep]
      exact .nothing (.refl _)
    | some step =>
      simp only [undergo, hstep]
      exact command_learns hstep
  | signal s =>
    cases hstep : a.signal s with
    | none =>
      simp only [undergo, hstep]
      exact .nothing (.refl _)
    | some step =>
      simp only [undergo, hstep]
      exact signal_learns hstep
  | ring now =>
    simp only [undergo, ring]
    cases a.alarm.filter (·.due ≤ now) <;> exact .nothing (.refl _)
  | returned id result =>
    simp only [undergo, Actor.returned]
    split <;> exact .nothing (.refl _)
  | disconnect => exact .nothing (.refl _)

end Actor

end Throttle
