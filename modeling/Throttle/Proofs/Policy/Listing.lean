import Mathlib
import Throttle.Policy.Headers

/-!
Lists in header texts: what `Text.listed` finds is put together again by `Policy.commaSeparated`.

An element of a list is a text that is not empty, holds no comma and has no blank at an end
(`Element`). Reading a list gives elements (`element_of_mem_listed`), and a list of elements that
was written reads to itself (`listed_commaSeparated`). Writing it takes no more room than what was
read (`extent_listed_le`), as blanks and empty pieces are gone.
-/

namespace Throttle

namespace Text

/-! ### Trimming -/

/-- Neither end of a text is blank. -/
structure Trimmed (cs : List Char) : Prop where
  head : ∀ c ∈ cs.head?, isBlank c = false
  last : ∀ c ∈ cs.getLast?, isBlank c = false

theorem trim_eq (cs : List Char) : trim cs = (cs.dropWhile isBlank).rdropWhile isBlank := rfl

theorem trim_prefix_dropWhile (cs : List Char) : trim cs <+: cs.dropWhile isBlank :=
  trim_eq cs ▸ List.rdropWhile_prefix isBlank (cs.dropWhile isBlank)

theorem trim_sublist (cs : List Char) : (trim cs).Sublist cs :=
  (trim_prefix_dropWhile cs).sublist.trans (List.dropWhile_sublist isBlank)

theorem length_trim_le (cs : List Char) : (trim cs).length ≤ cs.length :=
  (trim_sublist cs).length_le

theorem mem_of_mem_trim {c : Char} {cs : List Char} (h : c ∈ trim cs) : c ∈ cs :=
  (trim_sublist cs).subset h

theorem trimmed_trim (cs : List Char) : Trimmed (trim cs) where
  head c hc := by
    obtain ⟨rest, hrest⟩ := trim_prefix_dropWhile cs
    have hc' : (cs.dropWhile isBlank).head? = some c := by
      rw [← hrest, List.head?_append, Option.mem_def.1 hc, Option.some_or]
    simpa [hc'] using List.head?_dropWhile_not isBlank cs
  last c hc := by
    have hne : trim cs ≠ [] := by rintro h; simp [h] at hc
    have := List.rdropWhile_last_not isBlank (cs.dropWhile isBlank) (trim_eq cs ▸ hne)
    rw [Option.mem_def, List.getLast?_eq_getLast_of_ne_nil hne, Option.some.injEq] at hc
    subst hc
    simpa only [trim_eq, Bool.not_eq_true] using this

theorem Trimmed.trim_eq_self {cs : List Char} (h : Trimmed cs) : trim cs = cs := by
  have hd : cs.dropWhile isBlank = cs := by
    cases cs with
    | nil => rfl
    | cons c cs => rw [List.dropWhile_cons_of_neg (by simpa using h.head c rfl)]
  rw [trim_eq, hd, List.rdropWhile_eq_self_iff]
  intro hne
  simpa using h.last _ (List.getLast?_eq_getLast_of_ne_nil hne)

/-- A text without blanks is trimmed. -/
theorem trimmed_of_clear {cs : List Char} (h : ∀ c ∈ cs, isBlank c = false) : Trimmed cs where
  head c hc := h c (List.mem_of_mem_head? hc)
  last c hc := h c (List.mem_of_mem_getLast? hc)

/-! ### Cutting at a separator -/

theorem pieces_cons_self (sep : Char) (cs : List Char) :
    pieces sep (sep :: cs) = [] :: pieces sep cs := by
  simp [pieces]

theorem pieces_cons_of_ne {sep c : Char} (h : c ≠ sep) (cs : List Char) :
    pieces sep (c :: cs) = (pieces sep cs).modifyHead (c :: ·) := by
  rw [pieces, if_neg h]
  cases hp : pieces sep cs with
  | nil => exact absurd hp (pieces_ne_nil sep cs)
  | cons p ps => rfl

/-- A separator ends the piece before it. -/
theorem pieces_append {sep : Char} {p : List Char} (h : sep ∉ p) (rest : List Char) :
    pieces sep (p ++ sep :: rest) = p :: pieces sep rest := by
  induction p with
  | nil => exact pieces_cons_self sep rest
  | cons c p ih =>
    rw [List.mem_cons, not_or] at h
    rw [List.cons_append, pieces_cons_of_ne (Ne.symm h.1), ih h.2, List.modifyHead_cons]

/-- A text without separators is one piece. -/
theorem pieces_of_notMem {sep : Char} {p : List Char} (h : sep ∉ p) : pieces sep p = [p] := by
  induction p with
  | nil => rfl
  | cons c p ih =>
    rw [List.mem_cons, not_or] at h
    rw [pieces_cons_of_ne (Ne.symm h.1), ih h.2, List.modifyHead_cons]

theorem notMem_of_mem_pieces {sep : Char} {cs p : List Char} (h : p ∈ pieces sep cs) :
    sep ∉ p := by
  induction cs generalizing p with
  | nil => simp_all [pieces]
  | cons c cs ih =>
    by_cases hc : c = sep
    · rw [hc, pieces_cons_self, List.mem_cons] at h
      rcases h with rfl | h
      · exact List.not_mem_nil
      · exact ih h
    · rw [pieces_cons_of_ne hc] at h
      cases hp : pieces sep cs with
      | nil => exact absurd hp (pieces_ne_nil sep cs)
      | cons q qs =>
        rw [hp] at h ih
        rcases List.mem_cons.1 h with rfl | h
        · simpa [Ne.symm hc] using ih List.mem_cons_self
        · exact ih (List.mem_cons_of_mem q h)

theorem mem_of_mem_pieces {sep c : Char} {cs p : List Char} (h : p ∈ pieces sep cs)
    (hc : c ∈ p) : c ∈ cs := by
  induction cs generalizing p with
  | nil => simp_all [pieces]
  | cons d cs ih =>
    by_cases hd : d = sep
    · rw [hd, pieces_cons_self, List.mem_cons] at h
      rcases h with rfl | h
      · cases hc
      · exact List.mem_cons_of_mem d (ih h hc)
    · rw [pieces_cons_of_ne hd] at h
      cases hp : pieces sep cs with
      | nil => exact absurd hp (pieces_ne_nil sep cs)
      | cons q qs =>
        rw [hp] at h ih
        rcases List.mem_cons.1 h with rfl | h
        · rcases List.mem_cons.1 hc with rfl | hc
          · exact List.mem_cons_self
          · exact List.mem_cons_of_mem d (ih List.mem_cons_self hc)
        · exact List.mem_cons_of_mem d (ih (List.mem_cons_of_mem q h) hc)

/-! ### Room -/

/-- The room that texts take with one character after each. -/
def extent (ts : List (List Char)) : Nat := (ts.map (·.length + 1)).sum

@[simp] theorem extent_nil : extent [] = 0 := rfl

@[simp] theorem extent_cons (t : List Char) (ts : List (List Char)) :
    extent (t :: ts) = t.length + 1 + extent ts := rfl

/-- Texts that are no longer one by one take no more room together. -/
theorem extent_le_extent {ts us : List (List Char)}
    (h : List.Forall₂ (fun t u => t.length ≤ u.length) ts us) : extent ts ≤ extent us := by
  induction h with
  | nil => exact Nat.le_refl 0
  | cons h _ ih => rw [extent_cons, extent_cons]; omega

theorem extent_sublist {ts us : List (List Char)} (h : ts.Sublist us) : extent ts ≤ extent us := by
  induction h with
  | slnil => exact Nat.le_refl 0
  | cons a _ ih => rw [extent_cons]; omega
  | cons_cons a _ ih => rw [extent_cons, extent_cons]; omega

/-- Cutting takes nothing away but the separators. -/
theorem extent_pieces (sep : Char) (cs : List Char) :
    extent (pieces sep cs) = cs.length + 1 := by
  induction cs with
  | nil => rfl
  | cons c cs ih =>
    by_cases hc : c = sep
    · rw [hc, pieces_cons_self, extent_cons, ih, List.length_nil, List.length_cons]; omega
    · rw [pieces_cons_of_ne hc]
      cases hp : pieces sep cs with
      | nil => exact absurd hp (pieces_ne_nil sep cs)
      | cons p ps =>
        rw [hp, extent_cons] at ih
        rw [List.modifyHead_cons, extent_cons, List.length_cons, List.length_cons]; omega

/-! ### Elements of a list -/

/-- A text that can stand as one element of a comma-separated list. -/
structure Element (t : List Char) : Prop where
  ne_nil : t ≠ []
  noComma : ',' ∉ t
  trimmed : Trimmed t

theorem element_of_mem_listed {t cs : List Char} (h : t ∈ listed cs) : Element t := by
  obtain ⟨hm, hne⟩ := List.mem_filter.1 h
  obtain ⟨p, hp, rfl⟩ := List.mem_map.1 hm
  exact ⟨by simpa using hne, fun hc => notMem_of_mem_pieces hp (mem_of_mem_trim hc), trimmed_trim p⟩

theorem mem_of_mem_listed {c : Char} {t cs : List Char} (h : t ∈ listed cs) (hc : c ∈ t) :
    c ∈ cs := by
  obtain ⟨p, hp, rfl⟩ := List.mem_map.1 (List.mem_filter.1 h).1
  exact mem_of_mem_pieces hp (mem_of_mem_trim hc)

/-- The elements of a list take no more room than its text. -/
theorem extent_listed_le (cs : List Char) : extent (listed cs) ≤ cs.length + 1 :=
  calc extent (listed cs) ≤ extent ((pieces ',' cs).map trim) := extent_sublist List.filter_sublist
    _ ≤ extent (pieces ',' cs) := extent_le_extent <|
        List.forall₂_map_left_iff.2 (List.forall₂_same.2 fun p _ => length_trim_le p)
    _ = cs.length + 1 := extent_pieces ',' cs

end Text

namespace Policy

open Text

theorem commaSeparated_cons_cons (t u : List Char) (ts : List (List Char)) :
    commaSeparated (t :: u :: ts) = t ++ ',' :: commaSeparated (u :: ts) := rfl

theorem commaSeparated_ne_nil {ts : List (List Char)} (hne : ts ≠ [])
    (h : ∀ t ∈ ts, t ≠ []) : commaSeparated ts ≠ [] := by
  rcases ts with _ | ⟨t, _ | ⟨u, ts⟩⟩
  · exact absurd rfl hne
  · exact h t List.mem_cons_self
  · rw [commaSeparated_cons_cons]
    exact List.append_ne_nil_of_right_ne_nil t (List.cons_ne_nil _ _)

/-- Every character written is a comma or belongs to an element. -/
theorem mem_commaSeparated {c : Char} {ts : List (List Char)} (h : c ∈ commaSeparated ts) :
    c = ',' ∨ ∃ t ∈ ts, c ∈ t := by
  induction ts with
  | nil => cases h
  | cons t ts ih =>
    cases ts with
    | nil => exact .inr ⟨t, List.mem_cons_self, h⟩
    | cons u ts =>
      rw [commaSeparated_cons_cons, List.mem_append, List.mem_cons] at h
      rcases h with h | h | h
      · exact .inr ⟨t, List.mem_cons_self, h⟩
      · exact .inl h
      · exact (ih h).imp_right fun ⟨v, hv, hc⟩ => ⟨v, List.mem_cons_of_mem t hv, hc⟩

/-- A list of texts takes the room of the texts, but for the last separator. -/
theorem length_commaSeparated {ts : List (List Char)} (hne : ts ≠ []) :
    (commaSeparated ts).length + 1 = extent ts := by
  induction ts with
  | nil => exact absurd rfl hne
  | cons t ts ih =>
    cases ts with
    | nil => rfl
    | cons u ts =>
      have := ih (List.cons_ne_nil u ts)
      rw [commaSeparated_cons_cons, List.length_append, List.length_cons, extent_cons]
      omega

/-- Texts without commas are the pieces of the list that they make. -/
theorem pieces_commaSeparated {ts : List (List Char)} (hne : ts ≠ [])
    (h : ∀ t ∈ ts, ',' ∉ t) : pieces ',' (commaSeparated ts) = ts := by
  induction ts with
  | nil => exact absurd rfl hne
  | cons t ts ih =>
    cases ts with
    | nil => exact pieces_of_notMem (h t List.mem_cons_self)
    | cons u ts =>
      rw [commaSeparated_cons_cons, pieces_append (h t List.mem_cons_self),
        ih (List.cons_ne_nil u ts) fun v hv => h v (List.mem_cons_of_mem t hv)]

theorem trimmed_commaSeparated {ts : List (List Char)} (h : ∀ t ∈ ts, Element t) :
    Trimmed (commaSeparated ts) := by
  induction ts with
  | nil => exact ⟨nofun, nofun⟩
  | cons t ts ih =>
    have ht := h t List.mem_cons_self
    cases ts with
    | nil => exact ht.trimmed
    | cons u ts =>
      have hts : ∀ v ∈ u :: ts, Element v := fun v hv => h v (List.mem_cons_of_mem t hv)
      have hrest : commaSeparated (u :: ts) ≠ [] :=
        commaSeparated_ne_nil (List.cons_ne_nil u ts) fun v hv => (hts v hv).ne_nil
      constructor
      · intro c hc
        rw [commaSeparated_cons_cons, List.head?_append_of_ne_nil t ht.ne_nil] at hc
        exact ht.trimmed.head c hc
      · intro c hc
        rw [commaSeparated_cons_cons, List.getLast?_append_of_ne_nil t (List.cons_ne_nil _ _),
          List.getLast?_cons_of_ne_nil hrest] at hc
        exact (ih hts).last c hc

/-- A list of elements, written and read, is itself. -/
theorem listed_commaSeparated {ts : List (List Char)} (h : ∀ t ∈ ts, Element t) :
    listed (commaSeparated ts) = ts := by
  cases ts with
  | nil => rfl
  | cons t ts =>
    rw [listed, pieces_commaSeparated (List.cons_ne_nil t ts) fun u hu => (h u hu).noComma,
      List.map_congr_left fun u hu => (h u hu).trimmed.trim_eq_self, List.map_id',
      List.filter_eq_self]
    intro u hu
    simpa using (h u hu).ne_nil

end Policy

end Throttle
