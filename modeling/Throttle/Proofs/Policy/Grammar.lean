import Throttle.Proofs.Policy.RoundTrip

/-!
  The grammar of the headers of a rule. A part of a list that is not blank denotes a window if it is
  three fields between colons, and a field is a numeral below 2 ^ 32 with white space around it
  (`Window.Denotes`, `Text.Field`). Windows are read from exactly such parts (`ofChars?_eq_ok_iff`),
  and a list of them is read part by part, up to the first one that is bad (`ofListing?_eq_ok_iff`,
  `ofListing?_eq_error_iff`).

  Both the text of a header and each of its parts are trimmed before they are cut again. That does
  not matter: trimming a text changes none of its pieces but for the blanks at their ends
  (`map_trim_pieces`).
-/

namespace Throttle

namespace Text

variable {c sep : Char} {cs pre post p : List Char} {n : Nat}

/-! ### White space -/

/-- A text of white space only. -/
def Blanks (cs : List Char) : Prop := ∀ c ∈ cs, isBlank c = true

instance (cs : List Char) : Decidable (Blanks cs) := inferInstanceAs (Decidable (∀ c ∈ cs, _))

theorem trim_blanks_append (h : Blanks pre) (cs : List Char) : trim (pre ++ cs) = trim cs := by
  rw [trim, List.dropWhile_append_of_pos h, ← trim]

theorem trim_append_blanks (h : Blanks post) (cs : List Char) : trim (cs ++ post) = trim cs := by
  have hreverse : ∀ c ∈ post.reverse, isBlank c = true := fun c hc => h c (List.mem_reverse.1 hc)
  unfold trim
  rw [List.dropWhile_append]
  split
  · rename_i hempty
    rw [List.isEmpty_iff.1 hempty, List.dropWhile_eq_nil_iff.2 h]
  · rw [List.reverse_append, List.dropWhile_append_of_pos hreverse]

/-- A text is what is left of it when it is trimmed, between two blank ends. -/
theorem exists_blanks_trim (cs : List Char) :
    ∃ pre post, Blanks pre ∧ Blanks post ∧ cs = pre ++ (trim cs ++ post) := by
  have hpost : trim cs ++ (cs.dropWhile isBlank).rtakeWhile isBlank = cs.dropWhile isBlank :=
    List.rdropWhile_append_rtakeWhile
  refine ⟨cs.takeWhile isBlank, (cs.dropWhile isBlank).rtakeWhile isBlank, ?_, ?_, ?_⟩
  · intro c hc
    exact List.mem_takeWhile_imp hc
  · intro c hc
    exact List.mem_rtakeWhile_imp hc
  · rw [hpost, List.takeWhile_append_dropWhile]

theorem trim_eq_nil_iff : trim cs = [] ↔ Blanks cs := by
  constructor
  · intro hnil
    obtain ⟨pre, post, hpre, hpost, hcs⟩ := exists_blanks_trim cs
    rw [hnil, List.nil_append] at hcs
    intro c hc
    rw [hcs, List.mem_append] at hc
    exact hc.elim (hpre c) (hpost c)
  · intro hblanks
    have htrim := trim_append_blanks hblanks []
    rwa [List.nil_append] at htrim

/-! ### Pieces of a trimmed text -/

/-- A text that is one piece. -/
theorem eq_of_pieces_eq_singleton (h : pieces sep cs = [p]) : cs = p := by
  induction cs generalizing p with
  | nil => exact List.singleton_inj.1 h
  | cons c cs ih =>
    by_cases hc : c = sep
    · rw [hc, pieces_cons_self] at h
      exact absurd (List.cons.inj h).2 (pieces_ne_nil sep cs)
    · rw [pieces_cons_of_ne hc] at h
      cases hp : pieces sep cs with
      | nil => exact absurd hp (pieces_ne_nil sep cs)
      | cons q qs =>
        rw [hp, List.modifyHead_cons] at h
        obtain ⟨rfl, rfl⟩ := List.cons.inj h
        rw [ih hp]

/-- A text with a first piece and more of them. -/
theorem exists_rest_of_pieces {q : List Char} {qs : List (List Char)}
    (h : pieces sep cs = p :: q :: qs) :
    ∃ rest, cs = p ++ sep :: rest ∧ pieces sep rest = q :: qs := by
  induction cs generalizing p with
  | nil => cases h
  | cons c cs ih =>
    by_cases hc : c = sep
    · rw [hc, pieces_cons_self] at h
      obtain ⟨rfl, hrest⟩ := List.cons.inj h
      exact ⟨cs, by rw [hc, List.nil_append], hrest⟩
    · rw [pieces_cons_of_ne hc] at h
      cases hp : pieces sep cs with
      | nil => exact absurd hp (pieces_ne_nil sep cs)
      | cons r rs =>
        rw [hp, List.modifyHead_cons] at h
        obtain ⟨rfl, rfl⟩ := List.cons.inj h
        obtain ⟨rest, hcs, hrest⟩ := ih hp
        exact ⟨rest, by rw [hcs, List.cons_append], hrest⟩

theorem notMem_of_blanks (hsep : isBlank sep = false) (h : Blanks cs) : sep ∉ cs := by
  intro hmem
  rw [h sep hmem] at hsep
  cases hsep

/-- Blanks in front of a text go to its first piece. -/
theorem map_trim_pieces_blanks_append (hsep : isBlank sep = false) (h : Blanks pre)
    (cs : List Char) : (pieces sep (pre ++ cs)).map trim = (pieces sep cs).map trim := by
  induction pre with
  | nil => rfl
  | cons c pre ih =>
    have hpre : Blanks pre := fun d hd => h d (List.mem_cons_of_mem c hd)
    have hne : c ≠ sep := by
      rintro rfl
      exact notMem_of_blanks hsep h List.mem_cons_self
    rw [List.cons_append, pieces_cons_of_ne hne, ← ih hpre]
    cases pieces sep (pre ++ cs) with
    | nil => rfl
    | cons p ps =>
      have hc : Blanks [c] := fun d hd => h d (List.mem_singleton.1 hd ▸ List.mem_cons_self)
      exact congrArg (· :: ps.map trim) (trim_blanks_append hc p)

/-- Blanks after a text go to its last piece. -/
theorem pieces_append_blanks (hsep : isBlank sep = false) (h : Blanks post) (cs : List Char) :
    List.Forall₂ (fun p q => ∃ r, Blanks r ∧ p = q ++ r) (pieces sep (cs ++ post))
      (pieces sep cs) := by
  have hpad (q : List Char) : ∃ r, Blanks r ∧ q = q ++ r := ⟨[], nofun, (List.append_nil q).symm⟩
  induction cs with
  | nil =>
    rw [List.nil_append, pieces_of_notMem (notMem_of_blanks hsep h)]
    exact .cons ⟨post, h, rfl⟩ .nil
  | cons c cs ih =>
    by_cases hc : c = sep
    · rw [List.cons_append, hc, pieces_cons_self, pieces_cons_self]
      exact .cons (hpad []) ih
    · rw [List.cons_append, pieces_cons_of_ne hc, pieces_cons_of_ne hc]
      generalize pieces sep (cs ++ post) = ps at ih
      generalize pieces sep cs = qs at ih
      cases ih with
      | nil => exact .nil
      | cons hp hps =>
        obtain ⟨r, hr, rfl⟩ := hp
        exact .cons ⟨r, hr, rfl⟩ hps

/-- Trimming a text changes its pieces only at their ends. -/
theorem map_trim_pieces (hsep : isBlank sep = false) (cs : List Char) :
    (pieces sep (trim cs)).map trim = (pieces sep cs).map trim := by
  obtain ⟨pre, post, hpre, hpost, hcs⟩ := exists_blanks_trim cs
  have hback : (pieces sep (trim cs ++ post)).map trim = (pieces sep (trim cs)).map trim := by
    rw [← List.forall₂_eq_eq_eq, List.forall₂_map_left_iff, List.forall₂_map_right_iff]
    refine (pieces_append_blanks hsep hpost (trim cs)).imp ?_
    rintro p q ⟨r, hr, rfl⟩
    exact trim_append_blanks hr q
  calc (pieces sep (trim cs)).map trim
      = (pieces sep (trim cs ++ post)).map trim := hback.symm
    _ = (pieces sep (pre ++ (trim cs ++ post))).map trim :=
        (map_trim_pieces_blanks_append hsep hpre _).symm
    _ = (pieces sep cs).map trim := by rw [← hcs]

/-! ### Numerals -/

/-- An optional plus sign, and decimal digits of some value. -/
def Numeral (cs : List Char) (n : Nat) : Prop :=
  ∃ sign ds, (sign = [] ∨ sign = ['+']) ∧ ds ≠ [] ∧ (∀ c ∈ ds, c.isDigit = true) ∧
    cs = sign ++ ds ∧ Nat.ofDigitChars 10 ds 0 = n

/-- A numeral of a 32-bit value, with white space around it. -/
def Field (cs : List Char) (n : UInt32) : Prop :=
  ∃ pre text post, Blanks pre ∧ Numeral text n.toNat ∧ Blanks post ∧ cs = pre ++ (text ++ post)

theorem digits?_eq_some_iff {ds : List Char} :
    digits? ds = some n ↔
      ds ≠ [] ∧ (∀ c ∈ ds, c.isDigit = true) ∧ Nat.ofDigitChars 10 ds 0 = n := by
  simp [digits?, and_assoc]

theorem dropPlus_of_digits {ds : List Char} (h : ∀ c ∈ ds, c.isDigit = true) :
    dropPlus ds = ds := by
  unfold dropPlus
  split
  · rename_i rest
    exact absurd (h '+' List.mem_cons_self) (by decide)
  · rfl

/-- Of a text, at most a sign is dropped. -/
theorem exists_sign (cs : List Char) :
    ∃ sign, (sign = [] ∨ sign = ['+']) ∧ cs = sign ++ dropPlus cs := by
  unfold dropPlus
  split
  · exact ⟨['+'], .inr rfl, rfl⟩
  · exact ⟨[], .inl rfl, rfl⟩

theorem digits?_dropPlus_iff : digits? (dropPlus cs) = some n ↔ Numeral cs n := by
  rw [digits?_eq_some_iff]
  constructor
  · rintro ⟨hne, hall, hn⟩
    obtain ⟨sign, hsign, hcs⟩ := exists_sign cs
    exact ⟨sign, dropPlus cs, hsign, hne, hall, hcs, hn⟩
  · rintro ⟨sign, ds, hsign, hne, hall, rfl, hn⟩
    have hdrop : dropPlus (sign ++ ds) = ds := by
      rcases hsign with rfl | rfl
      · exact dropPlus_of_digits hall
      · rfl
    rw [hdrop]
    exact ⟨hne, hall, hn⟩

theorem word32?_eq_some_iff {n : UInt32} : word32? cs = some n ↔ Numeral cs n.toNat := by
  rw [word32?, unsigned?, Option.map_eq_some_iff]
  constructor
  · rintro ⟨m, hm, rfl⟩
    obtain ⟨hd, hlt⟩ := Option.filter_eq_some_iff.1 hm
    rw [UInt32.toNat_ofNat_of_lt' (of_decide_eq_true hlt)]
    exact digits?_dropPlus_iff.1 hd
  · intro hnumeral
    refine ⟨n.toNat, Option.filter_eq_some_iff.2 ⟨digits?_dropPlus_iff.2 hnumeral, ?_⟩, ?_⟩
    · exact decide_eq_true n.toNat_lt_size
    · exact UInt32.ofNat_toNat

theorem Numeral.mem (h : Numeral cs n) (hc : c ∈ cs) : c = '+' ∨ c.isDigit = true := by
  obtain ⟨sign, ds, hsign, -, hall, rfl, -⟩ := h
  rcases List.mem_append.1 hc with hc | hc
  · rcases hsign with rfl | rfl
    · cases hc
    · exact .inl (List.mem_singleton.1 hc)
  · exact .inr (hall c hc)

theorem Numeral.trim_eq_self (h : Numeral cs n) : trim cs = cs := by
  refine (trimmed_of_clear fun c hc => ?_).trim_eq_self
  rcases h.mem hc with rfl | hc
  · decide
  · exact isBlank_of_isDigit hc

/-- The fields are what is read once blanks are trimmed off. -/
theorem word32?_trim_iff {n : UInt32} : word32? (trim cs) = some n ↔ Field cs n := by
  rw [word32?_eq_some_iff]
  constructor
  · intro hnumeral
    obtain ⟨pre, post, hpre, hpost, hcs⟩ := exists_blanks_trim cs
    exact ⟨pre, trim cs, post, hpre, hnumeral, hpost, hcs⟩
  · rintro ⟨pre, text, post, hpre, hnumeral, hpost, rfl⟩
    rw [trim_blanks_append hpre, trim_append_blanks hpost, hnumeral.trim_eq_self]
    exact hnumeral

/-- A field holds white space, a sign and digits alone. -/
theorem Field.notMem {n : UInt32} (h : Field cs n) (hblank : isBlank sep = false) (hsign : sep ≠ '+')
    (hdigit : sep.isDigit = false) : sep ∉ cs := by
  obtain ⟨pre, text, post, hpre, hnumeral, hpost, rfl⟩ := h
  simp only [List.mem_append, not_or]
  refine ⟨notMem_of_blanks hblank hpre, fun hmem => ?_, notMem_of_blanks hblank hpost⟩
  rcases hnumeral.mem hmem with h | h
  · exact hsign h
  · exact Bool.false_ne_true (hdigit.symm.trans h)

theorem Field.noColon {n : UInt32} (h : Field cs n) : ':' ∉ cs :=
  h.notMem (by decide) (by decide) (by decide)

theorem Field.noComma {n : UInt32} (h : Field cs n) : ',' ∉ cs :=
  h.notMem (by decide) (by decide) (by decide)

/-! ### Lists -/

/-- The parts of a list that are not blank. -/
def parts (cs : List Char) : List (List Char) := (pieces ',' cs).filter fun p => ¬ Blanks p

theorem listed_eq (cs : List Char) : listed cs = (parts cs).map trim := by
  rw [listed, parts, List.filter_map]
  refine congrArg (List.map trim) (List.filter_congr fun p _ => ?_)
  rw [Function.comp_apply, Bool.eq_iff_iff]
  simp [← trim_eq_nil_iff]

theorem listed_trim (cs : List Char) : listed (trim cs) = listed cs := by
  rw [listed, map_trim_pieces (by decide), ← listed]

end Text

/-- Reading a list one by one fails at the first reading that does. -/
theorem mapM_eq_error_iff {α β ε : Type} {f : α → Except ε β} {as : List α} {e : ε} :
    as.mapM f = .error e ↔ ∃ front a back, as = front ++ a :: back ∧
      (∀ b ∈ front, ∃ x, f b = .ok x) ∧ f a = .error e := by
  induction as with
  | nil => simp [pure, Except.pure]
  | cons a as ih =>
    rw [List.mapM_cons]
    cases ha : f a with
    | error e' =>
      constructor
      · intro h
        exact ⟨[], a, as, rfl, nofun, ha.trans (congrArg Except.error (Except.error.inj h))⟩
      · rintro ⟨front, b, back, hsplit, hgood, hbad⟩
        cases front with
        | nil =>
          obtain ⟨rfl, -⟩ := List.cons.inj hsplit
          exact congrArg Except.error (Except.error.inj (ha.symm.trans hbad))
        | cons d front =>
          obtain ⟨rfl, -⟩ := List.cons.inj hsplit
          obtain ⟨x, hx⟩ := hgood a List.mem_cons_self
          cases ha.symm.trans hx
    | ok x =>
      have hrest : (do let y ← Except.ok x; let ys ← as.mapM f; pure (y :: ys) : Except ε (List β)) =
          .error e ↔ as.mapM f = .error e := by
        cases as.mapM f <;> simp [bind, Except.bind, pure, Except.pure]
      rw [hrest, ih]
      constructor
      · rintro ⟨front, b, back, rfl, hgood, hbad⟩
        refine ⟨a :: front, b, back, rfl, ?_, hbad⟩
        exact List.forall_mem_cons.2 ⟨⟨x, ha⟩, hgood⟩
      · rintro ⟨front, b, back, hsplit, hgood, hbad⟩
        cases front with
        | nil =>
          obtain ⟨rfl, -⟩ := List.cons.inj hsplit
          cases ha.symm.trans hbad
        | cons d front =>
          obtain ⟨rfl, rfl⟩ := List.cons.inj hsplit
          exact ⟨front, b, back, rfl, (List.forall_mem_cons.1 hgood).2, hbad⟩

namespace Window

open Text Policy

variable {cs part : List Char} {w : Window} {ws : List Window} {e : PolicyError}

/-! ### Windows -/

/-- Three fields between colons. -/
def Denotes (part : List Char) (w : Window) : Prop :=
  ∃ a b c, part = a ++ ':' :: (b ++ ':' :: c) ∧ Field a w.hits ∧ Field b w.period ∧
    Field c w.restriction

theorem pieces_of_denotes (h : Denotes part w) :
    ∃ a b c, pieces ':' part = [a, b, c] ∧ Field a w.hits ∧ Field b w.period ∧
      Field c w.restriction := by
  obtain ⟨a, b, c, rfl, ha, hb, hc⟩ := h
  refine ⟨a, b, c, ?_, ha, hb, hc⟩
  rw [pieces_append ha.noColon, pieces_append hb.noColon, pieces_of_notMem hc.noColon]

/-- Windows are read from what denotes them. -/
theorem ofChars?_eq_ok_iff : ofChars? part = .ok w ↔ Denotes part w := by
  have hpieces : (pieces ':' (trim part)).map trim = (pieces ':' part).map trim :=
    map_trim_pieces (by decide) part
  constructor
  · intro hw
    obtain ⟨a, b, c, habc, ha, hb, hc⟩ := pieces_of_ofChars? hw
    rw [habc] at hpieces
    rcases hp : pieces ':' part with _ | ⟨a', _ | ⟨b', _ | ⟨c', _ | ⟨d, ps⟩⟩⟩⟩
    case cons.cons.cons.nil =>
      rw [hp] at hpieces
      simp only [List.map_cons, List.map_nil, List.cons.injEq, and_true] at hpieces
      obtain ⟨ha', hb', hc'⟩ := hpieces
      obtain ⟨rest, rfl, hrest⟩ := exists_rest_of_pieces hp
      obtain ⟨rest', rfl, hrest'⟩ := exists_rest_of_pieces hrest
      obtain rfl := eq_of_pieces_eq_singleton hrest'
      exact ⟨a', b', rest', rfl, word32?_trim_iff.1 (ha' ▸ ha), word32?_trim_iff.1 (hb' ▸ hb),
        word32?_trim_iff.1 (hc' ▸ hc)⟩
    all_goals rw [hp] at hpieces; simp at hpieces
  · intro hw
    obtain ⟨a, b, c, habc, ha, hb, hc⟩ := pieces_of_denotes hw
    have hread : (pieces ':' (trim part)).map (fun p => word32? (trim p)) =
        [some w.hits, some w.period, some w.restriction] := by
      have hcomp := congrArg (List.map word32?) hpieces
      rw [List.map_map, List.map_map, habc] at hcomp
      refine hcomp.trans ?_
      simp only [List.map_cons, List.map_nil, Function.comp_apply, word32?_trim_iff.2 ha,
        word32?_trim_iff.2 hb, word32?_trim_iff.2 hc]
    rw [ofChars?, hread]

theorem ofChars?_eq_error_iff :
    ofChars? part = .error e ↔ (¬ ∃ w, Denotes part w) ∧ e = .invalidItem (String.ofList part) := by
  have hfault : ∀ e, ofChars? part = .error e → e = .invalidItem (String.ofList part) := by
    intro e he
    unfold ofChars? at he
    split at he
    · cases he
    · exact (Except.error.inj he).symm
  cases hread : ofChars? part with
  | ok w =>
    simp only [reduceCtorEq, false_iff, not_and]
    intro hnone
    exact absurd ⟨w, ofChars?_eq_ok_iff.1 hread⟩ hnone
  | error e' =>
    have hnone : ¬ ∃ w, Denotes part w := by
      rintro ⟨w, hw⟩
      cases hread.symm.trans (ofChars?_eq_ok_iff.2 hw)
    simp only [hnone, not_false_iff, true_and, Except.error.injEq, hfault e' hread]
    exact eq_comm

/-- A part denotes the same window without the blanks around it. -/
theorem denotes_trim : Denotes (trim part) w ↔ Denotes part w := by
  rw [← ofChars?_eq_ok_iff, ← ofChars?_eq_ok_iff]
  have htrim : trim (trim part) = trim part := (trimmed_trim part).trim_eq_self
  unfold ofChars?
  rw [htrim]
  split <;> simp

/-- The first of some parts that denotes no window. -/
def FirstBad (ps : List (List Char)) (part : List Char) : Prop :=
  ∃ front back, ps = front ++ part :: back ∧ (∀ p ∈ front, ∃ w, Denotes p w) ∧
    ¬ ∃ w, Denotes part w

theorem ofListing?_eq (cs : List Char) :
    ofListing? cs = (parts cs).mapM fun p => ofChars? (trim p) := by
  rw [ofListing?, listed_eq, List.mapM_map]
  rfl

theorem ofListing?_eq_ok_iff : ofListing? cs = .ok ws ↔ List.Forall₂ Denotes (parts cs) ws := by
  rw [ofListing?_eq, mapM_eq_ok_iff]
  simp only [ofChars?_eq_ok_iff, denotes_trim]

theorem ofListing?_eq_error_iff :
    ofListing? cs = .error e ↔
      ∃ part, FirstBad (parts cs) part ∧ e = .invalidItem (String.ofList (trim part)) := by
  rw [ofListing?_eq, mapM_eq_error_iff]
  simp only [ofChars?_eq_ok_iff, ofChars?_eq_error_iff, denotes_trim, FirstBad]
  constructor
  · rintro ⟨front, part, back, hsplit, hgood, hbad, he⟩
    exact ⟨part, ⟨front, back, hsplit, hgood, hbad⟩, he⟩
  · rintro ⟨part, ⟨front, back, hsplit, hgood, hbad⟩, he⟩
    exact ⟨front, part, back, hsplit, hgood, hbad, he⟩

/-- A list is read if each of its parts denotes a window. -/
theorem exists_ofListing?_iff :
    (∃ ws, ofListing? cs = .ok ws) ↔ ∀ p ∈ parts cs, ∃ w, Denotes p w := by
  constructor
  · rintro ⟨ws, hws⟩ p hp
    rw [ofListing?_eq] at hws
    obtain ⟨w, hw⟩ := exists_ok_of_mapM hws hp
    exact ⟨w, denotes_trim.1 (ofChars?_eq_ok_iff.1 hw)⟩
  · intro hall
    cases hread : ofListing? cs with
    | ok ws => exact ⟨ws, rfl⟩
    | error e =>
      obtain ⟨part, ⟨front, back, hsplit, -, hbad⟩, -⟩ := ofListing?_eq_error_iff.1 hread
      refine absurd (hall part ?_) hbad
      rw [hsplit]
      exact List.mem_append_right front List.mem_cons_self

theorem ofListing?_trim (cs : List Char) : ofListing? (trim cs) = ofListing? cs := by
  rw [ofListing?, listed_trim, ← ofListing?]

end Window

end Throttle
