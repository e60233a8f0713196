import Throttle.Proofs.Manager.Life

/-!
  What the record of a life shows: the requests that entered, those that were sent, the
  transmissions that came to an end. `sinceSend` is the request sent last, with what came back
  since.
-/

namespace Throttle

namespace Actor

def Mark.entered? : Mark → Option Nat
  | .entered id => some id
  | _ => none

def Mark.sent? : Mark → Option Nat
  | .sent id => some id
  | _ => none

def Mark.returned? : Mark → Option (Nat × Bool)
  | .returned id refused => some (id, refused)
  | _ => none

/-- The requests that entered, in order. -/
def enteredIn (ms : List Mark) : List Nat := ms.filterMap Mark.entered?

/-- The requests that were handed to the transport, in order. -/
def sentIn (ms : List Mark) : List Nat := ms.filterMap Mark.sent?

/-- The transmissions that came to an end, in order, with whether the server refused them. -/
def returnsIn (ms : List Mark) : List (Nat × Bool) := ms.filterMap Mark.returned?

@[simp] theorem enteredIn_append (ms ns : List Mark) :
    enteredIn (ms ++ ns) = enteredIn ms ++ enteredIn ns := List.filterMap_append

@[simp] theorem sentIn_append (ms ns : List Mark) : sentIn (ms ++ ns) = sentIn ms ++ sentIn ns :=
  List.filterMap_append

@[simp] theorem enteredIn_sent (ids : List Nat) : enteredIn (ids.map .sent) = [] := by
  unfold enteredIn
  rw [List.filterMap_map, List.filterMap_eq_nil_iff]
  exact fun _ _ => rfl

@[simp] theorem enteredIn_entered (ids : List Nat) : enteredIn (ids.map .entered) = ids := by
  unfold enteredIn
  rw [List.filterMap_map]
  exact List.filterMap_some

@[simp] theorem sentIn_sent (ids : List Nat) : sentIn (ids.map .sent) = ids := by
  unfold sentIn
  rw [List.filterMap_map]
  exact List.filterMap_some

@[simp] theorem sentIn_entered (ids : List Nat) : sentIn (ids.map .entered) = [] := by
  unfold sentIn
  rw [List.filterMap_map, List.filterMap_eq_nil_iff]
  exact fun _ _ => rfl

/-- How one more mark changes what was sent last and what came back since. -/
def Mark.next (x : Option Nat × List (Nat × Bool)) : Mark → Option Nat × List (Nat × Bool)
  | .sent id => (some id, [])
  | .returned id refused => (x.1, x.2 ++ [(id, refused)])
  | .entered _ => x

/-- The request that was sent last, and the transmissions that came to an end since. -/
def sinceSend (ms : List Mark) : Option Nat × List (Nat × Bool) := ms.foldl Mark.next (none, [])

theorem sinceSend_append (ms ns : List Mark) :
    sinceSend (ms ++ ns) = ns.foldl Mark.next (sinceSend ms) := List.foldl_append

theorem sinceSend_entered (ms : List Mark) (ids : List Nat) :
    sinceSend (ms ++ ids.map .entered) = sinceSend ms := by
  rw [sinceSend_append]
  induction ids with
  | nil => rfl
  | cons id ids ih => exact ih

/-- Unless something is sent, what comes back is added. -/
theorem foldl_next (ns : List Mark) (x : Option Nat × List (Nat × Bool)) :
    (sentIn ns = [] ∧ ns.foldl Mark.next x = (x.1, x.2 ++ returnsIn ns)) ∨
      ∃ id ∈ sentIn ns, (ns.foldl Mark.next x).1 = some id := by
  induction ns generalizing x with
  | nil => exact .inl ⟨rfl, by simp [returnsIn]⟩
  | cons n ns ih =>
    cases n with
    | entered id => exact ih x
    | sent id =>
      refine .inr ?_
      rcases ih (some id, []) with ⟨-, hlast⟩ | ⟨j, hj, hlast⟩
      · exact ⟨id, List.mem_cons_self, congrArg Prod.fst hlast⟩
      · exact ⟨j, List.mem_cons_of_mem _ hj, hlast⟩
    | returned id refused =>
      rcases ih (x.1, x.2 ++ [(id, refused)]) with ⟨hnone, hlast⟩ | h
      · refine .inl ⟨hnone, hlast.trans ?_⟩
        rw [List.append_assoc]
        rfl
      · exact .inr h

/-- After the last transmission of the request that was sent last, nothing was sent. -/
theorem sinceSend_split {front back : List Mark} {id : Nat} {rs : List (Nat × Bool)}
    (h : sinceSend (front ++ .sent id :: back) = (some id, rs)) (hback : id ∉ sentIn back) :
    sentIn back = [] ∧ returnsIn back = rs := by
  rw [sinceSend_append] at h
  change back.foldl Mark.next (some id, []) = _ at h
  rcases foldl_next back (some id, []) with ⟨hnone, hlast⟩ | ⟨j, hj, hlast⟩
  · rw [hlast] at h
    exact ⟨hnone, congrArg Prod.snd h⟩
  · rw [h] at hlast
    obtain rfl := Option.some.inj hlast
    exact absurd hj hback

theorem mem_sentIn_of_sinceSend {ms : List Mark} {id : Nat} {rs : List (Nat × Bool)}
    (h : sinceSend ms = (some id, rs)) : id ∈ sentIn ms := by
  rcases foldl_next ms (none, []) with ⟨-, hlast⟩ | ⟨j, hj, hlast⟩
  · change sinceSend ms = _ at hlast
    rw [h] at hlast
    cases hlast
  · change (sinceSend ms).1 = _ at hlast
    rw [h] at hlast
    obtain rfl := Option.some.inj hlast
    exact hj

theorem eraseDups_snoc_of_mem {xs : List Nat} {x : Nat} (h : x ∈ xs) :
    (xs ++ [x]).eraseDups = xs.eraseDups := by
  rw [List.eraseDups_append]
  simp [List.removeAll, h]

theorem eraseDups_snoc_sublist (xs : List Nat) (x : Nat) :
    (xs ++ [x]).eraseDups.Sublist (xs.eraseDups ++ [x]) := by
  by_cases h : x ∈ xs
  · rw [eraseDups_snoc_of_mem h]
    exact List.sublist_append_left _ _
  · rw [List.eraseDups_append]
    simp [List.removeAll, h, List.eraseDups_cons]

end Actor

end Throttle
