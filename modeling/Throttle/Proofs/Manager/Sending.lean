import Throttle.Proofs.Manager.Order

/-!
  When a manager sends, and what it has under way. What it sends joins what it has under way
  (`Change.outstanding_eq`); it sends only while it runs, and not before the instant that its phase
  names (`Change.sends_due`). A running manager that does not wait for a reply has nothing under way
  (`Sound.quiet`).
-/

namespace Throttle

open Http

namespace Actor

variable {s : Surroundings} {now : Moment} {a b : Actor} {d : Deed} {ns : List Mark}
  {os : List Output} {id : Nat}

/-- Nothing comes back to a running manager that has no request under way. -/
theorem Sound.quiet (h : Sound now a) (hstage : a.stage = .running)
    (hphase : a.manager.phase ≠ .sending) : a.outstanding = [] ∧ resultsIn a.inbox = [] := by
  obtain ⟨-, -, hcount, -⟩ := (h.wired hstage).counts
  rw [if_neg hphase] at hcount
  have hnone : a.outstanding.length = 0 ∧ replies a.inbox = 0 := by omega
  exact ⟨List.eq_nil_of_length_eq_zero hnone.1, resultsIn_of_replies hnone.2⟩

/-- A running manager that has a request under way waits for it, and nothing has come back. -/
theorem Sound.waiting (h : Sound now a) (hstage : a.stage = .running) (hout : a.outstanding ≠ []) :
    a.manager.phase = .sending ∧ resultsIn a.inbox = [] := by
  have hsending : a.manager.phase = .sending := by
    by_contra hnot
    exact hout (h.quiet hstage hnot).1
  obtain ⟨-, -, hcount, -⟩ := (h.wired hstage).counts
  rw [if_pos hsending] at hcount
  have hpos : 0 < a.outstanding.length := List.length_pos_iff.2 hout
  exact ⟨hsending, resultsIn_of_replies (by omega)⟩

theorem Advance.outstanding_eq (h : Advance s a b os) :
    b.outstanding = a.outstanding ++ sends os := by
  cases h with
  | handled hstage htakes hhandled => rw [after_outstanding, htakes.outstanding_eq]
  | broke hquiet =>
    rw [hquiet.sends_eq, List.append_nil]
    rfl
  | stopped hstage hquiet => rfl
  | concluded hstage hinbox hquiet hactive hphase hqueue => rfl
  | ignored hstage hinbox => exact (List.append_nil _).symm

/-- What a manager sends joins what it has under way. -/
theorem Change.outstanding_eq (h : Change a d b ns) (hd : ∀ id result, d ≠ .returned id result) :
    b.outstanding = a.outstanding ++ sentIn ns := by
  cases h with
  | none d hseeds => exact (List.append_nil _).symm
  | posted c hstage =>
    have hnone : sentIn ((queuedIn [c]).map fun p => .entered p.id) = [] := by
      cases c <;> rfl
    rw [hnone, List.append_nil]
    rfl
  | commanded hadvance hinbox => rw [hadvance.outstanding_eq, sentIn_sent]
  | signaled hadvance hmailbox => rw [hadvance.outstanding_eq, sentIn_sent]
  | rang halarm hdue => exact (List.append_nil _).symm
  | returned result hid => exact absurd rfl (hd _ _)
  | disconnected => exact (List.append_nil _).symm

/-- A request leaves only when the instant has come that the phase names. -/
theorem Change.sends_due (h : Change a d b ns) (hs : Sound now a) (hid : id ∈ sentIn ns) :
    a.stage = .running ∧ b.stage = .running ∧
      ∃ t, a.manager.phase.due? = some t ∧ t ≤ now := by
  have advance {s : Surroundings} {os : List Output} (h : Advance s a b os)
      (hid : id ∈ sends os) :
      a.stage = .running ∧ b.stage = .running ∧
        ∃ t, a.manager.phase.due? = some t ∧ t ≤ now := by
    cases h with
    | handled hrunning htakes hhandled =>
      rcases hhandled.order with ⟨hnone, -⟩ | ⟨p, -, -, -, -, rfl⟩
      · rw [hnone] at hid
        cases hid
      · have hwired := hs.wired hrunning
        rw [htakes.inbox_eq] at hwired
        obtain ⟨hdue, -⟩ := hwired.of_fire
        exact ⟨hrunning, rfl, hdue⟩
    | broke hquiet =>
      rw [hquiet.sends_eq] at hid
      cases hid
    | stopped hrunning hquiet =>
      rw [sends_disarm, hquiet.sends_eq] at hid
      cases hid
    | concluded hclosing hinbox hquiet hactive hphase hqueue =>
      rw [hquiet.sends_eq] at hid
      cases hid
    | ignored hended hinbox => cases hid
  cases h with
  | none d hseeds => cases hid
  | posted c hrunning =>
    have hns : (queuedIn [c]).map (fun p => Mark.entered p.id) =
        ((queuedIn [c]).map (·.id)).map .entered := List.map_map.symm
    rw [hns, sentIn_entered] at hid
    cases hid
  | commanded h => exact advance h (by rwa [sentIn_sent] at hid)
  | signaled h => exact advance h (by rwa [sentIn_sent] at hid)
  | rang halarm hdue => cases hid
  | returned result hout => cases hid
  | disconnected => cases hid

end Actor

end Throttle
