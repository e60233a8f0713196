import Throttle.Proofs.Policy.Consistency
import Throttle.Proofs.Policy.Windows

/-!
  How an estimate changes with the number of requests. What is left of a budget is spent first, then
  whole budgets of one period each, and the rest; the requests of a burst or a rest are spaced, those
  of a whole budget are not. So an estimate grows with the requests while the same budgets are whole
  (`Item.wait_le_of_div_eq`), and the request that makes one whole puts a period in place of the
  spacing of its requests (`Item.wait_succ`). Where the spacing is the longer of the two, by
  `Item.excess`, the estimate falls there, and nowhere else (`Policy.estimate_grows_but_for_excess`).
-/

namespace Throttle

/-- A chain of two steps succeeds exactly if both do. -/
theorem bind_eq_ok_iff {α β ε : Type} {x : Except ε α} {f : α → Except ε β} {b : β} :
    x >>= f = .ok b ↔ ∃ a, x = .ok a ∧ f a = .ok b := by
  cases x with
  | error e => simp [bind, Except.bind]
  | ok a => simp [bind, Except.bind]

/-- What a list was read to holds what was read from its elements. -/
theorem mem_iff_of_mapM {α β ε : Type} {f : α → Except ε β} {as : List α} {bs : List β}
    (h : as.mapM f = .ok bs) {b : β} : b ∈ bs ↔ ∃ a ∈ as, f a = .ok b := by
  have hall := mapM_eq_ok_iff.1 h
  clear h
  induction hall with
  | nil => simp
  | cons hfirst hrest ih => simp [hfirst, ih, eq_comm]

namespace Delay

variable {d e f : Delay} {n : Nat}

theorem times_eq_ok_iff : times d n = .ok e ↔ d * n < limit ∧ d * n = e := by
  unfold times
  split <;> simp_all

theorem plus_eq_ok_iff : plus d e = .ok f ↔ d + e < limit ∧ d + e = f := by
  unfold plus
  split <;> simp_all

theorem ofSeconds_mul (k n : Nat) : ofSeconds (k * n) = k * ofSeconds n :=
  Nat.mul_assoc k n perSecond

end Delay

namespace Item

variable {i : Item} {m n : UInt32} {s a b d : Delay} {j k : Nat}

/-- The requests that what is left of the budget admits. -/
def burst (i : Item) (count : UInt32) : Nat :=
  min (i.limit.hits.toNat - i.state.hits.toNat) count.toNat

/-- The requests that wait for new budgets. -/
def deferred (i : Item) (count : UInt32) : Nat := count.toNat - i.burst count

/-- The new budgets that are spent as a whole. -/
def periods (i : Item) (count : UInt32) : Nat := i.deferred count / i.limit.hits.toNat

/-- By how much all requests of a budget but one, `spacing` apart, take longer than its period. -/
def excess (i : Item) (spacing : Delay) : Delay :=
  spacing * (i.limit.hits.toNat - 1) - i.limit.periodDelay

/-- What passes before the first new budget. -/
def lead (i : Item) (count : UInt32) (spacing : Delay) : Delay :=
  (if i.limit.hits < i.state.hits then i.limit.restrictionDelay else 0) + spacing * i.burst count

/-- How long a number of requests take that wait for new budgets. -/
def wait (i : Item) (deferred : Nat) (spacing : Delay) : Delay :=
  deferred / i.limit.hits.toNat * i.limit.periodDelay + spacing * (deferred % i.limit.hits.toNat)

/-! ## What an estimate adds up -/

theorem estimate_of_hits_eq_zero (h : i.limit.hits.toNat = 0) : i.estimate n s = .ok 0 := if_pos h

/-- An estimate that does not overflow is the sum of its parts. -/
theorem eq_of_estimate (hhits : i.limit.hits.toNat ≠ 0) (h : i.estimate n s = .ok d) :
    d = i.lead n s + i.wait (i.deferred n) s := by
  unfold estimate at h
  simp only [if_neg hhits, bind_eq_ok_iff, Delay.times_eq_ok_iff, Delay.plus_eq_ok_iff] at h
  obtain ⟨_, ⟨-, rfl⟩, _, ⟨-, rfl⟩, _, ⟨-, rfl⟩, _, ⟨-, rfl⟩, -, rfl⟩ := h
  rw [Delay.ofSeconds_mul, Nat.add_assoc]
  rfl

theorem burst_le (h : m ≤ n) : i.burst m ≤ i.burst n := by
  have := UInt32.le_iff_toNat_le.1 h
  unfold burst
  omega

theorem deferred_le (h : m ≤ n) : i.deferred m ≤ i.deferred n := by
  have := UInt32.le_iff_toNat_le.1 h
  unfold deferred burst
  omega

theorem lead_le (h : m ≤ n) : i.lead m s ≤ i.lead n s :=
  Nat.add_le_add_left (Nat.mul_le_mul_left s (burst_le h)) _

/-! ## One item -/

/-- While the same budgets are whole, more requests take no less time. -/
theorem wait_le_of_div_eq (hjk : j ≤ k) (h : j / i.limit.hits.toNat = k / i.limit.hits.toNat) :
    i.wait j s ≤ i.wait k s := by
  have hrest : j % i.limit.hits.toNat ≤ k % i.limit.hits.toNat := by
    have hj := Nat.div_add_mod j i.limit.hits.toNat
    have hk := Nat.div_add_mod k i.limit.hits.toNat
    rw [h] at hj
    omega
  unfold wait
  rw [h]
  exact Nat.add_le_add_left (Nat.mul_le_mul_left s hrest) _

/-- Where more budgets are whole, more requests take no less time but for one excess: the periods of
the budgets count in full, and the rest that was spaced before is shorter than a budget. -/
theorem wait_le_of_div_lt (hhits : i.limit.hits.toNat ≠ 0)
    (h : j / i.limit.hits.toNat < k / i.limit.hits.toNat) :
    i.wait j s ≤ i.wait k s + i.excess s := by
  have hrest : j % i.limit.hits.toNat ≤ i.limit.hits.toNat - 1 :=
    Nat.le_sub_one_of_lt (Nat.mod_lt _ (Nat.pos_of_ne_zero hhits))
  calc i.wait j s
      ≤ j / i.limit.hits.toNat * i.limit.periodDelay + s * (i.limit.hits.toNat - 1) :=
        Nat.add_le_add_left (Nat.mul_le_mul_left s hrest) _
    _ ≤ j / i.limit.hits.toNat * i.limit.periodDelay + (i.limit.periodDelay + i.excess s) :=
        Nat.add_le_add_left (Nat.sub_le_iff_le_add'.1 (Nat.le_refl _)) _
    _ = (j / i.limit.hits.toNat + 1) * i.limit.periodDelay + i.excess s := by
        rw [Nat.succ_mul, Nat.add_assoc]
    _ ≤ k / i.limit.hits.toNat * i.limit.periodDelay + i.excess s :=
        Nat.add_le_add_right (Nat.mul_le_mul_right _ h) _
    _ ≤ i.wait k s + i.excess s := Nat.add_le_add_right (Nat.le_add_right _ _) _

/-- The request that makes a budget whole replaces its spacing by a period. -/
theorem wait_succ (h : j / i.limit.hits.toNat < (j + 1) / i.limit.hits.toNat) :
    i.wait j s + i.limit.periodDelay = i.wait (j + 1) s + s * (i.limit.hits.toNat - 1) := by
  have hdvd : i.limit.hits.toNat ∣ j + 1 := by
    by_contra hnot
    exact absurd (Nat.succ_div_of_not_dvd hnot) (Nat.ne_of_gt h)
  have hnext : (j + 1) % i.limit.hits.toNat = 0 := Nat.mod_eq_zero_of_dvd hdvd
  -- so one request was missing before
  have hlast : j % i.limit.hits.toNat = i.limit.hits.toNat - 1 := by
    have hj := Nat.div_add_mod j i.limit.hits.toNat
    have hk := Nat.div_add_mod (j + 1) i.limit.hits.toNat
    rw [Nat.succ_div_of_dvd hdvd, hnext, Nat.mul_succ] at hk
    omega
  unfold wait
  rw [Nat.succ_div_of_dvd hdvd, hnext, hlast, Nat.mul_zero, Nat.add_zero, Nat.succ_mul]
  exact Nat.add_right_comm _ _ _

/-- The estimate of an item falls only where more budgets are whole, and by no more than its excess. -/
theorem estimate_le (hmn : m ≤ n) (ha : i.estimate m s = .ok a) (hb : i.estimate n s = .ok b) :
    a ≤ b ∨ i.periods m < i.periods n ∧ 0 < i.excess s ∧ a ≤ b + i.excess s := by
  by_cases hhits : i.limit.hits.toNat = 0
  · rw [estimate_of_hits_eq_zero hhits] at ha hb
    exact .inl (Nat.le_of_eq ((Except.ok.inj ha).symm.trans (Except.ok.inj hb)))
  · have hlead : i.lead m s ≤ i.lead n s := lead_le hmn
    rw [eq_of_estimate hhits ha, eq_of_estimate hhits hb]
    have hperiods : i.periods m ≤ i.periods n := Nat.div_le_div_right (deferred_le hmn)
    rcases Nat.lt_or_eq_of_le hperiods with hlt | heq
    · have hwait : i.wait (i.deferred m) s ≤ i.wait (i.deferred n) s + i.excess s :=
        wait_le_of_div_lt hhits hlt
      by_cases hexcess : 0 < i.excess s
      · refine .inr ⟨hlt, hexcess, ?_⟩
        rw [Nat.add_assoc]
        exact Nat.add_le_add hlead hwait
      · rw [Nat.eq_zero_of_not_pos hexcess] at hwait
        exact .inl (Nat.add_le_add hlead hwait)
    · exact .inl (Nat.add_le_add hlead (wait_le_of_div_eq (deferred_le hmn) heq))

/-- Where one more request makes a budget whole, the estimate falls by the excess. -/
theorem estimate_succ (hmn : n.toNat = m.toNat + 1) (hexcess : 0 < i.excess s)
    (hperiods : i.periods m < i.periods n) (ha : i.estimate m s = .ok a)
    (hb : i.estimate n s = .ok b) : a = b + i.excess s := by
  have hhits : i.limit.hits.toNat ≠ 0 := by
    intro h
    simp [periods, h] at hperiods
  -- the further request waits for a new budget, or as many budgets would be whole as before
  have hdeferred : i.deferred n = i.deferred m + 1 ∧ i.burst n = i.burst m := by
    have hlt : i.deferred m < i.deferred n := by
      by_contra hnot
      exact absurd (Nat.div_le_div_right (Nat.le_of_not_lt hnot)) (Nat.not_le.2 hperiods)
    unfold deferred burst at *
    omega
  have hlead : i.lead n s = i.lead m s := by rw [lead, lead, hdeferred.2]
  have hwait : i.wait (i.deferred m) s + i.limit.periodDelay =
      i.wait (i.deferred n) s + s * (i.limit.hits.toNat - 1) := by
    unfold periods at hperiods
    rw [hdeferred.1] at hperiods ⊢
    exact wait_succ hperiods
  rw [eq_of_estimate hhits ha, eq_of_estimate hhits hb, hlead, Nat.add_assoc]
  refine congrArg (i.lead m s + ·) ?_
  unfold excess Delay at *
  omega

end Item

namespace Policy

variable {p : Policy} {n : UInt32} {s d : Delay}

/-- The estimate of a policy is the longest of its items. -/
theorem estimate_greatest (h : p.estimate n s = .ok d) :
    (∀ i ∈ p.items, ∃ e ≤ d, i.estimate n s = .ok e) ∧
      (d = 0 ∨ ∃ i ∈ p.items, i.estimate n s = .ok d) := by
  obtain ⟨es, hes, hd⟩ := bind_eq_ok_iff.1 h
  obtain rfl : es.foldr max 0 = d := Except.ok.inj hd
  have hmem {e : Delay} : e ∈ es ↔ ∃ i ∈ p.items, i.estimate n s = .ok e := mem_iff_of_mapM hes
  have hall : ∀ i ∈ p.items, ∃ e ∈ es, i.estimate n s = .ok e := by
    intro i hi
    obtain ⟨e, he⟩ := exists_ok_of_mapM hes hi
    exact ⟨e, hmem.2 ⟨i, hi, he⟩, he⟩
  rcases greatestOr_foldr_max es with ⟨hin, hlast⟩ | ⟨hnone, hzero⟩
  · refine ⟨fun i hi => ?_, .inr (hmem.1 hin)⟩
    obtain ⟨e, hein, he⟩ := hall i hi
    exact ⟨e, hlast hein, he⟩
  · refine ⟨fun i hi => ?_, .inl hzero⟩
    obtain ⟨e, hein, -⟩ := hall i hi
    exact absurd hein (Set.eq_empty_iff_forall_notMem.1 hnone e)

/-- More requests are estimated to take no less time, with one exception: the item that decides the
estimate for the fewer requests has an excess, and the further requests make another of its budgets
whole. Even then the estimate falls by no more than the excess. Where a single further request makes a
budget of such an item whole, the estimate of the item does fall, by exactly its excess. -/
theorem estimate_grows_but_for_excess (p : Policy) (s : Delay) :
    (∀ {m n : UInt32} {a b : Delay}, m ≤ n → p.estimate m s = .ok a → p.estimate n s = .ok b →
      a ≤ b ∨ ∃ i ∈ p.items, i.estimate m s = .ok a ∧ i.periods m < i.periods n ∧ 0 < i.excess s ∧
        a ≤ b + i.excess s) ∧
    ∀ i ∈ p.items, 0 < i.excess s → ∀ {m n : UInt32} {a b : Delay}, n.toNat = m.toNat + 1 →
      i.periods m < i.periods n → i.estimate m s = .ok a → i.estimate n s = .ok b →
        a = b + i.excess s := by
  constructor
  · intro m n a b hmn ha hb
    rcases (estimate_greatest ha).2 with rfl | ⟨i, hi, hia⟩
    · exact .inl (Nat.zero_le b)
    · obtain ⟨e, heb, hie⟩ := (estimate_greatest hb).1 i hi
      rcases Item.estimate_le hmn hia hie with hae | ⟨hperiods, hexcess, hae⟩
      · exact .inl (Nat.le_trans hae heb)
      · exact .inr ⟨i, hi, hia, hperiods, hexcess,
          Nat.le_trans hae (Nat.add_le_add_right heb _)⟩
  · intro i hi hexcess m n a b hmn hperiods ha hb
    exact Item.estimate_succ hmn hexcess hperiods ha hb

/-- Ten hits per second, all of them spent. -/
def spentBudget : Item := ⟨⟨10, 1, 60⟩, ⟨10, 1, 0⟩⟩

def hastyPolicy : Policy := ofRules ⟨"hasty-api", by decide⟩ [⟨"Account", [spentBudget]⟩]

/-- Nine requests, half a second apart, are said to take 4.5 seconds, and ten of them only one. -/
theorem estimate_grows_but_for_excess_hastyPolicy :
    (9 : UInt32) ≤ 10 ∧ hastyPolicy.estimate 9 500000000 = .ok 4500000000 ∧
      hastyPolicy.estimate 10 500000000 = .ok 1000000000 ∧
      (∃ i ∈ hastyPolicy.items, i.estimate 9 500000000 = .ok 4500000000 ∧
        i.periods 9 < i.periods 10 ∧ 0 < i.excess 500000000 ∧
          4500000000 ≤ 1000000000 + i.excess 500000000) ∧
      spentBudget.estimate 9 500000000 = .ok 4500000000 ∧
      spentBudget.estimate 10 500000000 = .ok 1000000000 ∧
      4500000000 = 1000000000 + spentBudget.excess 500000000 := by
  have hfew : hastyPolicy.estimate 9 500000000 = .ok 4500000000 := by decide +kernel
  have hmany : hastyPolicy.estimate 10 500000000 = .ok 1000000000 := by decide +kernel
  have hfewer : spentBudget.estimate 9 500000000 = .ok 4500000000 := by decide +kernel
  have hmore : spentBudget.estimate 10 500000000 = .ok 1000000000 := by decide +kernel
  obtain ⟨hgrows, hfalls⟩ := estimate_grows_but_for_excess hastyPolicy 500000000
  refine ⟨by decide, hfew, hmany, ?_, hfewer, hmore, ?_⟩
  · exact (hgrows (by decide) hfew hmany).resolve_left (by decide)
  · exact hfalls spentBudget (by decide) (by decide) rfl (by decide) hfewer hmore

end Policy

end Throttle
