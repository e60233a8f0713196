import Throttle.Proofs.Policy.Grammar

/-!
  Rules in headers. Where both headers of a rule are there as text, the rule is read if their parts
  that are not blank denote windows, as many of one as of the other and one at least; else the error
  names the first bad part, the limits before the states, or the two counts
  (`Rule.ofHeaders?_grammar`).

  So there is more than one text for a list of windows. `Window.Spells` lists those that come from
  its written form when spaces, tabs, blank elements, leading zeros and plus signs are added; all of
  them are read alike (`Window.Spells.forall₂`).
-/

namespace Throttle

open Http Text

namespace Text

variable {n : UInt32} {cs : List Char}

/-- A text of spaces and tabs only. -/
def Spaces (cs : List Char) : Prop := ∀ c ∈ cs, c = ' ' ∨ c = '\t'

theorem Spaces.blanks (h : Spaces cs) : Blanks cs := by
  intro c hc
  rcases h c hc with rfl | rfl
  · decide
  · decide

/-- The decimal form of a number, with a sign and zeros added before it, and spaces around it. -/
def SpellsNumber (n : UInt32) (cs : List Char) : Prop :=
  ∃ pre sign zeros post, Spaces pre ∧ (sign = [] ∨ sign = ['+']) ∧ Spaces post ∧
    cs = pre ++ ((sign ++ (List.replicate zeros '0' ++ decimal n.toNat)) ++ post)

/-- Leading zeros do not change a number. -/
theorem ofDigitChars_zeros (zeros : Nat) (ds : List Char) :
    Nat.ofDigitChars 10 (List.replicate zeros '0' ++ ds) 0 = Nat.ofDigitChars 10 ds 0 := by
  induction zeros with
  | zero => rfl
  | succ zeros ih => exact ih

theorem SpellsNumber.field (h : SpellsNumber n cs) : Field cs n := by
  obtain ⟨pre, sign, zeros, post, hpre, hsign, hpost, rfl⟩ := h
  refine ⟨pre, _, post, hpre.blanks, ⟨sign, _, hsign, ?_, ?_, rfl, ?_⟩, hpost.blanks, rfl⟩
  · exact List.append_ne_nil_of_right_ne_nil _ (decimal_ne_nil _)
  · intro c hc
    rcases List.mem_append.1 hc with hc | hc
    · rw [List.eq_of_mem_replicate hc]
      decide
    · exact isDigit_of_mem_decimal hc
  · rw [ofDigitChars_zeros, ofDigitChars_decimal]

theorem spellsNumber_decimal (n : UInt32) : SpellsNumber n (decimal n.toNat) :=
  ⟨[], [], 0, [], nofun, .inl rfl, nofun, (List.append_nil _).symm⟩

end Text

namespace Window

open Policy

variable {w : Window} {ws : List Window} {cs part : List Char} {ps : List (List Char)}

/-- The written form of a window, with signs, zeros and spaces added. -/
def SpellsPart (w : Window) (part : List Char) : Prop :=
  ∃ a b c, part = a ++ ':' :: (b ++ ':' :: c) ∧ SpellsNumber w.hits a ∧ SpellsNumber w.period b ∧
    SpellsNumber w.restriction c

/-- The written forms of some windows, with blank parts put among them. -/
inductive SpellsParts : List Window → List (List Char) → Prop where
  | nil : SpellsParts [] []
  | blank {part : List Char} {ws : List Window} {ps : List (List Char)} (hpart : Spaces part)
      (hrest : SpellsParts ws ps) : SpellsParts ws (part :: ps)
  | window {w : Window} {part : List Char} {ws : List Window} {ps : List (List Char)}
      (hpart : w.SpellsPart part) (hrest : SpellsParts ws ps) : SpellsParts (w :: ws) (part :: ps)

/-- The text of a header with these windows, with spaces, tabs, blank elements, leading zeros and
signs added. -/
def Spells (ws : List Window) (cs : List Char) : Prop :=
  ∃ ps, SpellsParts ws ps ∧ cs = commaSeparated ps

theorem SpellsPart.denotes (h : w.SpellsPart part) : Denotes part w := by
  obtain ⟨a, b, c, hpart, ha, hb, hc⟩ := h
  exact ⟨a, b, c, hpart, ha.field, hb.field, hc.field⟩

theorem Denotes.noComma (h : Denotes part w) : ',' ∉ part := by
  obtain ⟨a, b, c, rfl, ha, hb, hc⟩ := h
  simp [ha.noComma, hb.noComma, hc.noComma]

theorem Denotes.not_blanks (h : Denotes part w) : ¬ Blanks part := by
  obtain ⟨a, b, c, rfl, -⟩ := h
  intro hblanks
  have hcolon := hblanks ':' (List.mem_append_right a List.mem_cons_self)
  exact absurd hcolon (by decide)

theorem SpellsParts.noComma (h : SpellsParts ws ps) : ∀ p ∈ ps, ',' ∉ p := by
  induction h with
  | nil => nofun
  | blank hpart hrest ih =>
    exact List.forall_mem_cons.2 ⟨notMem_of_blanks (by decide) hpart.blanks, ih⟩
  | window hpart hrest ih => exact List.forall_mem_cons.2 ⟨hpart.denotes.noComma, ih⟩

/-- Blank parts are left out, and each of the others denotes its window. -/
theorem SpellsParts.forall₂ (h : SpellsParts ws ps) :
    List.Forall₂ Denotes (ps.filter fun p => ¬ Blanks p) ws := by
  induction h with
  | nil => exact .nil
  | blank hpart hrest ih =>
    rw [List.filter_cons_of_neg (by simpa using hpart.blanks)]
    exact ih
  | window hpart hrest ih =>
    rw [List.filter_cons_of_pos (by simpa using hpart.denotes.not_blanks)]
    exact .cons hpart.denotes ih

/-- What is added to the text of a header does not change what its parts denote. -/
theorem Spells.forall₂ (h : Spells ws cs) : List.Forall₂ Denotes (parts cs) ws := by
  obtain ⟨ps, hps, rfl⟩ := h
  cases ps with
  | nil =>
    have hnone : parts (commaSeparated []) = [] := by
      simp [parts, commaSeparated, pieces, Blanks]
    cases hps
    rw [hnone]
    exact .nil
  | cons part ps =>
    rw [parts, pieces_commaSeparated (List.cons_ne_nil part ps) hps.noComma]
    exact hps.forall₂

/-- Nothing need be added. -/
theorem spells_listing (ws : List Window) : Spells ws (listing ws) := by
  refine ⟨ws.map chars, ?_, rfl⟩
  induction ws with
  | nil => exact .nil
  | cons w ws ih =>
    refine .window ⟨_, _, _, ?_, spellsNumber_decimal _, spellsNumber_decimal _,
      spellsNumber_decimal _⟩ ih
    rw [chars, List.append_assoc, List.cons_append]

end Window

theorem windows_of_textAt {h : Headers} {name : String} {cs : List Char}
    (ht : textAt h name = some cs) : windows h name = Window.ofListing? cs := by
  rw [windows, required_eq_ok_iff.2 ⟨cs, ht, rfl⟩, ← Window.ofListing?_trim cs]
  rfl

namespace Rule

open Window

variable {name : String} {h : Headers} {limitText stateText : List Char}

/-- What is wrong with a rule, given the parts of its limits and of its states. -/
inductive Fault (name : String) (limits states : List (List Char)) : PolicyError → Prop where
  | limit {part : List Char} (hbad : FirstBad limits part) :
      Fault name limits states (.invalidItem (String.ofList (trim part)))
  | state {part : List Char} (hlimits : ∀ p ∈ limits, ∃ w, Denotes p w)
      (hbad : FirstBad states part) :
      Fault name limits states (.invalidItem (String.ofList (trim part)))
  | counts (hlimits : ∀ p ∈ limits, ∃ w, Denotes p w) (hstates : ∀ p ∈ states, ∃ w, Denotes p w)
      (hcounts : limits.length ≠ states.length ∨ limits = []) :
      Fault name limits states (.itemCountMismatch name limits.length states.length)

section

variable (hlimit : textAt h (limitHeader name) = some limitText)
  (hstate : textAt h (stateHeader name) = some stateText)

include hlimit hstate

/-- A rule is read if the parts of its headers denote its windows. -/
theorem ofHeaders?_eq_ok_iff_denotes {r : Rule} :
    ofHeaders? name h = .ok r ↔ r.name = name ∧ r.items ≠ [] ∧
      List.Forall₂ Denotes (parts limitText) r.limits ∧
      List.Forall₂ Denotes (parts stateText) r.states := by
  rw [ofHeaders?_eq_ok_iff, windows_of_textAt hlimit, windows_of_textAt hstate,
    ofListing?_eq_ok_iff, ofListing?_eq_ok_iff]

/-- A rule that is not read has a fault. -/
theorem ofHeaders?_fault {e : PolicyError} (he : ofHeaders? name h = .error e) :
    Fault name (parts limitText) (parts stateText) e := by
  unfold ofHeaders? at he
  rw [windows_of_textAt hlimit, windows_of_textAt hstate] at he
  cases hl : ofListing? limitText with
  | error e' =>
    rw [hl] at he
    obtain ⟨part, hbad, rfl⟩ := ofListing?_eq_error_iff.1 hl
    obtain rfl := Except.error.inj he
    exact .limit hbad
  | ok limits =>
    have hlimits := exists_ofListing?_iff.1 ⟨limits, hl⟩
    cases hs : ofListing? stateText with
    | error e' =>
      rw [hl, hs] at he
      obtain ⟨part, hbad, rfl⟩ := ofListing?_eq_error_iff.1 hs
      obtain rfl := Except.error.inj he
      exact .state hlimits hbad
    | ok states =>
      have hlength := (ofListing?_eq_ok_iff.1 hl).length_eq
      have hlength' := (ofListing?_eq_ok_iff.1 hs).length_eq
      rw [hl, hs] at he
      change (if limits.length ≠ states.length ∨ limits = [] then _ else _) = _ at he
      split at he
      · rename_i hcounts
        obtain rfl := Except.error.inj he
        rw [← hlength, ← hlength'] at hcounts ⊢
        refine .counts hlimits (exists_ofListing?_iff.1 ⟨states, hs⟩) (hcounts.imp_right ?_)
        rintro rfl
        exact List.eq_nil_of_length_eq_zero hlength
      · cases he

/-- A rule with a fault is not read. -/
theorem ofHeaders?_of_fault {e : PolicyError}
    (hfault : Fault name (parts limitText) (parts stateText) e) :
    ofHeaders? name h = .error e := by
  unfold ofHeaders?
  rw [windows_of_textAt hlimit, windows_of_textAt hstate]
  cases hfault with
  | limit hbad =>
    rw [ofListing?_eq_error_iff.2 ⟨_, hbad, rfl⟩]
    rfl
  | state hlimits hbad =>
    obtain ⟨limits, hl⟩ := exists_ofListing?_iff.2 hlimits
    rw [hl, ofListing?_eq_error_iff.2 ⟨_, hbad, rfl⟩]
    rfl
  | counts hlimits hstates hcounts =>
    obtain ⟨limits, hl⟩ := exists_ofListing?_iff.2 hlimits
    obtain ⟨states, hs⟩ := exists_ofListing?_iff.2 hstates
    have hlength := (ofListing?_eq_ok_iff.1 hl).length_eq
    have hlength' := (ofListing?_eq_ok_iff.1 hs).length_eq
    rw [hl, hs, hlength, hlength']
    refine if_pos ?_
    rw [← hlength, ← hlength']
    refine hcounts.imp_right fun hnone => ?_
    rw [hnone] at hlength
    exact List.eq_nil_of_length_eq_zero hlength.symm

/-- Windows are paired by position. -/
theorem ofHeaders?_of_denotes {limits states : List Window}
    (hlimits : List.Forall₂ Denotes (parts limitText) limits)
    (hstates : List.Forall₂ Denotes (parts stateText) states)
    (hlength : limits.length = states.length) (hne : limits ≠ []) :
    ofHeaders? name h = .ok ⟨name, List.zipWith Item.mk limits states⟩ := by
  refine (ofHeaders?_eq_ok_iff_denotes hlimit hstate).2 ⟨rfl, ?_, ?_, ?_⟩
  · intro hnil
    rcases List.zipWith_eq_nil_iff.1 hnil with hnil | hnil
    · exact hne hnil
    · rw [hnil] at hlength
      exact hne (List.eq_nil_of_length_eq_zero hlength)
  · rw [limits_zipWith name hlength]
    exact hlimits
  · rw [states_zipWith name hlength]
    exact hstates

/-- The grammar of the headers of a rule. The rule is read if and only if the parts of both headers
that are not blank denote windows, as many of one as of the other and one at least; then they are
paired by position. Otherwise the error is the first fault. So the windows that are read do not
change when spaces, tabs, blank elements, leading zeros or signs are added to their written form. -/
theorem ofHeaders?_grammar :
    ((∃ r, ofHeaders? name h = .ok r) ↔
      (parts limitText).length = (parts stateText).length ∧ parts limitText ≠ [] ∧
        (∀ p ∈ parts limitText, ∃ w, Denotes p w) ∧ ∀ p ∈ parts stateText, ∃ w, Denotes p w) ∧
    (∀ r, ofHeaders? name h = .ok r → r.name = name ∧
      List.Forall₂ Denotes (parts limitText) r.limits ∧
      List.Forall₂ Denotes (parts stateText) r.states) ∧
    (∀ e, ofHeaders? name h = .error e ↔ Fault name (parts limitText) (parts stateText) e) ∧
    ∀ limits states, Spells limits limitText → Spells states stateText →
      limits.length = states.length → limits ≠ [] →
      ofHeaders? name h = .ok ⟨name, List.zipWith Item.mk limits states⟩ := by
  refine ⟨⟨?_, ?_⟩, ?_, ?_, ?_⟩
  · rintro ⟨r, hr⟩
    obtain ⟨-, hne, hl, hs⟩ := (ofHeaders?_eq_ok_iff_denotes hlimit hstate).1 hr
    have hlength : (parts limitText).length = r.items.length :=
      hl.length_eq.trans (List.length_map _)
    have hlength' : (parts stateText).length = r.items.length :=
      hs.length_eq.trans (List.length_map _)
    refine ⟨hlength.trans hlength'.symm, ?_,
      exists_ofListing?_iff.1 ⟨_, ofListing?_eq_ok_iff.2 hl⟩,
      exists_ofListing?_iff.1 ⟨_, ofListing?_eq_ok_iff.2 hs⟩⟩
    intro hnil
    rw [hnil] at hlength
    exact hne (List.eq_nil_of_length_eq_zero hlength.symm)
  · rintro ⟨hcount, hne, hlimits, hstates⟩
    obtain ⟨limits, hl⟩ := exists_ofListing?_iff.2 hlimits
    obtain ⟨states, hs⟩ := exists_ofListing?_iff.2 hstates
    rw [ofListing?_eq_ok_iff] at hl hs
    refine ⟨_, ofHeaders?_of_denotes hlimit hstate hl hs ?_ ?_⟩
    · rw [← hl.length_eq, ← hs.length_eq, hcount]
    · rintro rfl
      exact hne (List.eq_nil_of_length_eq_zero hl.length_eq)
  · intro r hr
    obtain ⟨hname, -, hl, hs⟩ := (ofHeaders?_eq_ok_iff_denotes hlimit hstate).1 hr
    exact ⟨hname, hl, hs⟩
  · exact fun e => ⟨ofHeaders?_fault hlimit hstate, ofHeaders?_of_fault hlimit hstate⟩
  · intro limits states hlimits hstates
    exact ofHeaders?_of_denotes hlimit hstate hlimits.forall₂ hstates.forall₂

end

/-- Headers of one rule. -/
def headersOf (limits states : String) : Headers :=
  let octets (text : String) : List UInt8 := text.toList.map fun c => UInt8.ofNat c.toNat
  ⟨[(⟨"x-rate-limit-ip"⟩, [⟨octets limits, false⟩]),
    (⟨"x-rate-limit-ip-state"⟩, [⟨octets states, false⟩])]⟩

/-- Limits with signs, zeros, tabs and a blank element. -/
def looseLimits : String := " +8:10 :060,,\t030: +300:1800 "

def looseStates : String := "7:10:0, ,+03:00300:0"

/-- The second of these states has four fields, the third one none. -/
def brokenStates : String := "7:10:0,, 3:300:0:0 ,x"

def looseRule : Rule :=
  ⟨"Ip", [⟨⟨8, 10, 60⟩, ⟨7, 10, 0⟩⟩, ⟨⟨30, 300, 1800⟩, ⟨3, 300, 0⟩⟩]⟩

/-- Loose headers are read, and broken ones are not: the error names the part with four fields. -/
theorem ofHeaders?_grammar_loose :
    (textAt (headersOf looseLimits looseStates) (limitHeader "Ip") = some looseLimits.toList ∧
      textAt (headersOf looseLimits looseStates) (stateHeader "Ip") = some looseStates.toList ∧
      ofHeaders? "Ip" (headersOf looseLimits looseStates) = .ok looseRule ∧
      List.Forall₂ Denotes (parts looseLimits.toList) looseRule.limits ∧
      List.Forall₂ Denotes (parts looseStates.toList) looseRule.states) ∧
    textAt (headersOf looseLimits brokenStates) (limitHeader "Ip") = some looseLimits.toList ∧
      textAt (headersOf looseLimits brokenStates) (stateHeader "Ip") = some brokenStates.toList ∧
      Fault "Ip" (parts looseLimits.toList) (parts brokenStates.toList)
        (.invalidItem "3:300:0:0") := by
  have hlimit : textAt (headersOf looseLimits looseStates) (limitHeader "Ip") =
      some looseLimits.toList := by decide +kernel
  have hstate : textAt (headersOf looseLimits looseStates) (stateHeader "Ip") =
      some looseStates.toList := by decide +kernel
  have hread : ofHeaders? "Ip" (headersOf looseLimits looseStates) = .ok looseRule := by
    decide +kernel
  have hlimit' : textAt (headersOf looseLimits brokenStates) (limitHeader "Ip") =
      some looseLimits.toList := by decide +kernel
  have hstate' : textAt (headersOf looseLimits brokenStates) (stateHeader "Ip") =
      some brokenStates.toList := by decide +kernel
  have hfault : ofHeaders? "Ip" (headersOf looseLimits brokenStates) =
      .error (.invalidItem "3:300:0:0") := by decide +kernel
  obtain ⟨-, hwindows, -⟩ := ofHeaders?_grammar hlimit hstate
  obtain ⟨-, -, herror, -⟩ := ofHeaders?_grammar hlimit' hstate'
  obtain ⟨-, hlimits, hstates⟩ := hwindows looseRule hread
  exact ⟨⟨hlimit, hstate, hread, hlimits, hstates⟩, hlimit', hstate', (herror _).1 hfault⟩

end Rule

end Throttle
