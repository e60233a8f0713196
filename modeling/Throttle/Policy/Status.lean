/-!
How close a policy is to its limits, from the least to the most severe.
-/

namespace Throttle

/-- The state of an item, a rule or a policy, in order of severity. -/
inductive Status where
  /-- No reply has been seen yet. -/
  | unknown
  /-- Well within every limit. -/
  | ok
  /-- So close to a limit that sends are spaced out. -/
  | borderline
  /-- At a limit or over it. -/
  | violation
  /-- What the server declares makes no sense. -/
  | invalid
  deriving DecidableEq, Repr

namespace Status

def severity : Status → Nat
  | unknown => 0
  | ok => 1
  | borderline => 2
  | violation => 3
  | invalid => 4

def label : Status → String
  | unknown => "unknown"
  | ok => "ok"
  | borderline => "borderline"
  | violation => "violation"
  | invalid => "invalid"

def all : List Status := [unknown, ok, borderline, violation, invalid]

instance : LE Status := ⟨fun a b => a.severity ≤ b.severity⟩

instance (a b : Status) : Decidable (a ≤ b) := Nat.decLe a.severity b.severity

instance : LT Status := ⟨fun a b => a.severity < b.severity⟩

instance (a b : Status) : Decidable (a < b) := Nat.decLt a.severity b.severity

instance : Max Status := ⟨fun a b => if a ≤ b then b else a⟩

/-- The most severe of several states; of none, unknown. -/
def worst (ss : List Status) : Status := ss.foldr max unknown

theorem severity_inj {a b : Status} (h : a.severity = b.severity) : a = b := by
  cases a <;> cases b <;> first | rfl | cases h

theorem severity_max (a b : Status) : (max a b).severity = max a.severity b.severity := by
  cases a <;> cases b <;> decide

theorem le_worst {ss : List Status} {s : Status} (h : s ∈ ss) : s ≤ worst ss := by
  change s.severity ≤ (worst ss).severity
  induction ss with
  | nil => cases h
  | cons a ss ih =>
    simp only [worst, List.foldr_cons, severity_max]
    rcases List.mem_cons.1 h with rfl | h
    · exact Nat.le_max_left _ _
    · exact Nat.le_trans (ih h) (Nat.le_max_right _ _)

theorem worst_mem {ss : List Status} (h : ss ≠ []) : worst ss ∈ ss := by
  induction ss with
  | nil => exact absurd rfl h
  | cons a ss ih =>
    by_cases hs : ss = []
    · subst hs; cases a <;> decide
    · have := ih hs
      simp only [worst, List.foldr_cons, List.mem_cons] at *
      by_cases hm : a ≤ ss.foldr max unknown
      · right
        have : max a (ss.foldr max unknown) = ss.foldr max unknown := if_pos hm
        rw [this]; assumption
      · left
        exact if_neg hm

end Status

end Throttle
