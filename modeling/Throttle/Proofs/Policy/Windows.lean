import Throttle.Proofs.Policy.Listing

/-!
Windows in header texts. What `Window.chars` writes is read back by `Window.ofChars?`
(`Window.ofChars?_chars`), holds digits and colons only (`Window.mem_chars`), and is no longer than
any text that reads to the same window (`Window.length_chars_le`): signs, leading zeros and blanks
are gone.
-/

namespace Throttle

namespace Text

theorem isBlank_of_isDigit {c : Char} (h : c.isDigit = true) : isBlank c = false := by
  have h' : 48 ≤ c.toNat ∧ c.toNat ≤ 57 := Char.isDigit_iff_toNat.1 h
  simp only [isBlank, Bool.or_eq_false_iff, Bool.and_eq_false_iff, decide_eq_false_iff_not,
    beq_eq_false_iff_ne, ne_eq]
  omega

/-- A numeral of `k` digits is below the `k`-th power of ten. -/
theorem ofDigitChars_lt {ds : List Char} (h : ∀ c ∈ ds, c.isDigit = true) :
    Nat.ofDigitChars 10 ds 0 < 10 ^ ds.length := by
  induction ds with
  | nil => simp
  | cons c ds ih =>
    have hc : c.toNat - '0'.toNat < 10 :=
      (Nat.sub_le_sub_right (Char.isDigit_iff_toNat.1 (h c List.mem_cons_self)).2 _).trans_lt
        (by decide)
    have hds := ih fun d hd => h d (List.mem_cons_of_mem c hd)
    rw [Nat.ofDigitChars_cons, Nat.ofDigitChars_eq_ofDigitChars_zero, List.length_cons,
      Nat.pow_succ, Nat.mul_zero, Nat.zero_add]
    calc 10 ^ ds.length * (c.toNat - '0'.toNat) + Nat.ofDigitChars 10 ds 0
        < 10 ^ ds.length * (c.toNat - '0'.toNat) + 10 ^ ds.length := by omega
      _ = 10 ^ ds.length * (c.toNat - '0'.toNat + 1) := (Nat.mul_succ _ _).symm
      _ ≤ 10 ^ ds.length * 10 := Nat.mul_le_mul_left _ hc

/-- Writing a number takes no more digits than any numeral of it has. -/
theorem length_decimal_le_of_digits? {cs : List Char} {n : Nat} (h : digits? cs = some n) :
    (decimal n).length ≤ cs.length := by
  unfold digits? at h
  split at h
  next hc =>
    rw [Bool.and_eq_true, List.all_eq_true] at hc
    have hpos : 0 < cs.length := List.length_pos_iff.2 (by simpa using hc.1)
    rw [decimal, Nat.length_toDigits_le_iff (by decide) hpos, ← Option.some.inj h]
    exact ofDigitChars_lt hc.2
  next => cases h

theorem length_dropPlus_le (cs : List Char) : (dropPlus cs).length ≤ cs.length := by
  unfold dropPlus
  split
  · exact Nat.le_succ _
  · exact Nat.le_refl _

theorem length_decimal_le {cs : List Char} {n : UInt32} (h : word32? cs = some n) :
    (decimal n.toNat).length ≤ cs.length := by
  obtain ⟨m, hm, rfl⟩ := Option.map_eq_some_iff.1 h
  obtain ⟨hd, hlt⟩ := Option.filter_eq_some_iff.1 hm
  have hn : (UInt32.ofNat m).toNat = m := UInt32.toNat_ofNat_of_lt' (by simpa using hlt)
  rw [hn]
  exact (length_decimal_le_of_digits? hd).trans (length_dropPlus_le cs)

theorem dropPlus_decimal (n : Nat) : dropPlus (decimal n) = decimal n := by
  unfold dropPlus
  split
  next cs hcs =>
    have : ('+' : Char).isDigit = true :=
      isDigit_of_mem_decimal (hcs ▸ List.mem_cons_self : '+' ∈ decimal n)
    cases this
  next => rfl

theorem unsigned?_decimal {n bound : Nat} (h : n < bound) : unsigned? bound (decimal n) = some n := by
  rw [unsigned?, dropPlus_decimal, digits?_decimal]
  exact Option.filter_some_pos (decide_eq_true h)

theorem word32?_decimal (n : UInt32) : word32? (decimal n.toNat) = some n := by
  rw [word32?, unsigned?_decimal n.toNat_lt_size, Option.map_some, UInt32.ofNat_toNat]

theorem trim_decimal (n : Nat) : trim (decimal n) = decimal n :=
  (trimmed_of_clear fun _ hc => isBlank_of_isDigit (isDigit_of_mem_decimal hc)).trim_eq_self

end Text

/-- Reading a list one by one succeeds exactly if every reading does. -/
theorem mapM_eq_ok_iff {α β ε : Type} {f : α → Except ε β} {as : List α} {bs : List β} :
    as.mapM f = .ok bs ↔ List.Forall₂ (fun a b => f a = .ok b) as bs := by
  induction as generalizing bs with
  | nil => simp [pure, Except.pure, eq_comm]
  | cons a as ih =>
    rw [List.mapM_cons]
    cases ha : f a with
    | error e => simpa [bind, Except.bind] using fun h => by cases h; simp_all
    | ok b =>
      cases has : as.mapM f with
      | error e =>
        simp only [bind, Except.bind, reduceCtorEq, false_iff]
        rintro (_ | ⟨-, h⟩)
        rw [ih.2 h] at has
        cases has
      | ok cs =>
        simp only [bind, Except.bind, pure, Except.pure, Except.ok.injEq]
        constructor
        · rintro rfl
          exact .cons ha (ih.1 has)
        · rintro (_ | ⟨h, hs⟩)
          rw [ha] at h
          rw [ih.2 hs] at has
          rw [Except.ok.inj h, Except.ok.inj has]

theorem exists_ok_of_mapM {α β ε : Type} {f : α → Except ε β} {as : List α} {bs : List β}
    (h : as.mapM f = .ok bs) {a : α} (ha : a ∈ as) : ∃ b, f a = .ok b := by
  have hall : List.Forall₂ (fun a b => (∃ b, f a = .ok b) ∧ f a = .ok b) as bs :=
    (mapM_eq_ok_iff.1 h).imp fun a b hb => ⟨⟨b, hb⟩, hb⟩
  exact ((List.forall₂_and_left as bs).1 hall).1 a ha

namespace Window

open Text Policy

/-- A window is written with digits and colons. -/
theorem mem_chars {c : Char} {w : Window} (h : c ∈ w.chars) : c.isDigit = true ∨ c = ':' := by
  simp only [chars, List.mem_append, List.mem_cons] at h
  rcases h with (h | rfl | h) | rfl | h
  · exact .inl (isDigit_of_mem_decimal h)
  · exact .inr rfl
  · exact .inl (isDigit_of_mem_decimal h)
  · exact .inr rfl
  · exact .inl (isDigit_of_mem_decimal h)

theorem isBlank_of_mem_chars {c : Char} {w : Window} (h : c ∈ w.chars) : isBlank c = false := by
  rcases mem_chars h with h | rfl
  · exact isBlank_of_isDigit h
  · decide

theorem pieces_chars (w : Window) :
    pieces ':' w.chars =
      [decimal w.hits.toNat, decimal w.period.toNat, decimal w.restriction.toNat] := by
  have hd (n : Nat) : ':' ∉ decimal n := fun h => by cases isDigit_of_mem_decimal h
  rw [chars, List.append_assoc, List.cons_append, pieces_append (hd _), pieces_append (hd _),
    pieces_of_notMem (hd _)]

/-- A window can stand in a list. -/
theorem element_chars (w : Window) : Element w.chars where
  ne_nil := by simp [chars]
  noComma h := by rcases mem_chars h with h | h <;> cases h
  trimmed := trimmed_of_clear fun _ => isBlank_of_mem_chars

/-- Windows are read as they were written. -/
theorem ofChars?_chars (w : Window) : ofChars? w.chars = .ok w := by
  unfold ofChars?
  rw [(element_chars w).trimmed.trim_eq_self, pieces_chars]
  simp only [List.map_cons, List.map_nil, trim_decimal, word32?_decimal]

/-- The three pieces that a window was read from. -/
theorem pieces_of_ofChars? {cs : List Char} {w : Window} (h : ofChars? cs = .ok w) :
    ∃ a b c, pieces ':' (trim cs) = [a, b, c] ∧ word32? (trim a) = some w.hits ∧
      word32? (trim b) = some w.period ∧ word32? (trim c) = some w.restriction := by
  unfold ofChars? at h
  split at h
  next hits period restriction hp =>
    rcases hps : pieces ':' (trim cs) with _ | ⟨a, _ | ⟨b, _ | ⟨c, _ | ⟨d, ps⟩⟩⟩⟩
    case cons.cons.cons.nil =>
      rw [hps] at hp
      injection hp with ha hp
      injection hp with hb hp
      injection hp with hc
      cases h
      exact ⟨a, b, c, rfl, ha, hb, hc⟩
    all_goals rw [hps] at hp; simp at hp
  next => cases h

theorem colon_mem_of_ofChars? {cs : List Char} {w : Window} (h : ofChars? cs = .ok w) :
    ':' ∈ cs := by
  obtain ⟨a, b, c, hp, -⟩ := pieces_of_ofChars? h
  by_contra hn
  rw [pieces_of_notMem fun hm => hn (mem_of_mem_trim hm)] at hp
  simp at hp

/-- A window is written no longer than it was read. -/
theorem length_chars_le {cs : List Char} {w : Window} (h : ofChars? cs = .ok w) :
    w.chars.length ≤ cs.length := by
  obtain ⟨a, b, c, hp, ha, hb, hc⟩ := pieces_of_ofChars? h
  have ha := (length_decimal_le ha).trans (length_trim_le a)
  have hb := (length_decimal_le hb).trans (length_trim_le b)
  have hc := (length_decimal_le hc).trans (length_trim_le c)
  have hcs := extent_pieces ':' (trim cs)
  have ht := length_trim_le cs
  rw [hp] at hcs
  simp only [extent_cons, extent_nil] at hcs
  simp only [chars, List.length_append, List.length_cons]
  omega

/-- The text of a header with these windows. -/
def listing (ws : List Window) : List Char := commaSeparated (ws.map chars)

/-- The windows that a header's text lists. -/
def ofListing? (cs : List Char) : Except PolicyError (List Window) := (listed cs).mapM ofChars?

theorem element_of_mem_map_chars {ws : List Window} : ∀ t ∈ ws.map chars, Element t := by
  simpa using fun w _ => element_chars w

theorem trim_listing (ws : List Window) : trim (listing ws) = listing ws :=
  (trimmed_commaSeparated element_of_mem_map_chars).trim_eq_self

theorem ofListing?_listing (ws : List Window) : ofListing? (listing ws) = .ok ws := by
  rw [ofListing?, listing, listed_commaSeparated element_of_mem_map_chars, mapM_eq_ok_iff,
    List.forall₂_map_left_iff]
  exact List.forall₂_same.2 fun w _ => ofChars?_chars w

theorem mem_listing {c : Char} {ws : List Window} (h : c ∈ listing ws) :
    c = ',' ∨ c.isDigit = true ∨ c = ':' := by
  refine (mem_commaSeparated h).imp_right ?_
  rintro ⟨t, ht, hc⟩
  obtain ⟨w, -, rfl⟩ := List.mem_map.1 ht
  exact mem_chars hc

theorem isBlank_of_mem_listing {c : Char} {ws : List Window} (h : c ∈ listing ws) :
    isBlank c = false := by
  rcases mem_listing h with rfl | h | rfl
  · decide
  · exact isBlank_of_isDigit h
  · decide

theorem listing_ne_nil {ws : List Window} (h : ws ≠ []) : listing ws ≠ [] :=
  commaSeparated_ne_nil (by simpa using h) fun t ht => (element_of_mem_map_chars t ht).ne_nil

/-- A list of windows is written no longer than it was read. -/
theorem length_listing_le {cs : List Char} {ws : List Window} (hne : ws ≠ [])
    (h : ofListing? cs = .ok ws) : (listing ws).length ≤ cs.length := by
  have hle : extent (ws.map chars) ≤ extent (listed cs) :=
    extent_le_extent <| List.forall₂_map_left_iff.2 <|
      ((mapM_eq_ok_iff.1 h).flip.imp fun _ _ hw => length_chars_le hw)
  have hl : (commaSeparated (ws.map chars)).length + 1 = extent (ws.map chars) :=
    length_commaSeparated (by simpa using hne)
  have hcs := extent_listed_le cs
  rw [listing]
  omega

end Window

end Throttle
