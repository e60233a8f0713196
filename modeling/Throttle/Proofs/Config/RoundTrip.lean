import Mathlib.Data.List.Perm.Subperm
import Throttle.Config.Document
import Throttle.Proofs.Json.Tokens
import Throttle.Proofs.Policy.Windows

/-!
  Configurations are read back from their documents. An object is written as its tokens, with any white
  space between them (`objectTokens`), and the reader takes member after member, as long as no key is
  there twice (`members_further`). Every member sets its own value, so their order does not matter, and
  what is left out keeps its default (`foldl_apply`). Together a document gives the configuration that
  it describes, or the fault of that configuration (`ofDocument?_written`).
-/

namespace Throttle

open Json Text

variable {c : Char} {cs rest : List Char}

namespace Text

/-- A number is written without zeros in front. -/
theorem decimal_ne_zero_cons (n : Nat) (c : Char) (cs : List Char) : decimal n ≠ '0' :: c :: cs := by
  intro h
  have hdigits : digits? (c :: cs) = some n := by
    have hall : (c :: cs).all Char.isDigit = true :=
      List.all_eq_true.2 fun d hd => isDigit_of_mem_decimal (h ▸ List.mem_cons_of_mem '0' hd)
    have hvalue : Nat.ofDigitChars 10 (c :: cs) 0 = n := by
      rw [← ofDigitChars_decimal n, h]
      rfl
    simp [digits?, hall, hvalue]
  -- the written form is the shortest text of a number, and without the zero it would be shorter
  have hlength := length_decimal_le_of_digits? hdigits
  rw [h] at hlength
  exact absurd hlength (Nat.not_succ_le_self _)

theorem opens_decimal (n : Nat) : Opens (decimal n) := by
  obtain ⟨d, ds, hds⟩ := List.exists_cons_of_ne_nil (decimal_ne_nil n)
  have hdigit : d.isDigit = true := isDigit_of_mem_decimal (hds ▸ List.mem_cons_self)
  refine ⟨d, ds, hds, ?_⟩
  by_contra hspace
  simp only [isSpace, Bool.not_eq_false, Bool.or_eq_true, beq_iff_eq] at hspace
  rcases hspace with ((rfl | rfl) | rfl) | rfl <;> exact absurd hdigit (by decide)

end Text

namespace Setting

theorem ofKey?_key (s : Setting) : ofKey? s.key = some s := by
  cases s <;> decide

theorem ofKey?_userAgentKey : ofKey? userAgentKey = none := by decide

end Setting

namespace Assignment

/-- The tokens of a member. -/
def tokens (a : Assignment) : List (List Char) := [(quote a.key).toList, [':'], a.value]

theorem flatten_tokens (a : Assignment) : a.tokens.flatten = a.chars := by
  simp [tokens, chars]

theorem opens_value (a : Assignment) : Opens a.value := by
  cases a with
  | number s n => exact opens_decimal n.toNat
  | userAgent v =>
    cases v with
    | none => exact ⟨'n', _, rfl, rfl⟩
    | some text => exact opens_quote text

end Assignment

namespace Config

variable {a : Assignment} {as done : List Assignment} {fuel : Nat}

/-! ## Values -/

/-- A text that does not go on with a number. -/
def Ends (cs : List Char) : Prop :=
  ∃ c rest, cs = c :: rest ∧ c.isDigit = false ∧ c ≠ '.' ∧ c ≠ 'e' ∧ c ≠ 'E'

/-- A number is read from its written form. -/
theorem word64_decimal (n : UInt64) (h : Ends rest) :
    word64 (decimal n.toNat ++ rest) = some (n, rest) := by
  obtain ⟨c, rest, rfl, hdigit, hpoint, he, hE⟩ := h
  have hall : ∀ d ∈ decimal n.toNat, d.isDigit = true := fun _ => isDigit_of_mem_decimal
  have htake : (decimal n.toNat ++ c :: rest).takeWhile Char.isDigit = decimal n.toNat := by
    rw [List.takeWhile_append_of_pos hall, List.takeWhile_cons_of_neg (by simp [hdigit]),
      List.append_nil]
  have hdrop : (decimal n.toNat ++ c :: rest).dropWhile Char.isDigit = c :: rest := by
    rw [List.dropWhile_append_of_pos hall, List.dropWhile_cons_of_neg (by simp [hdigit])]
  unfold word64
  rw [htake, hdrop]
  dsimp only
  split
  · rename_i hzero
    exact absurd hzero (decimal_ne_zero_cons _ _ _)
  · rename_i hc _
    exact absurd (List.cons.inj hc).1 hpoint
  · rename_i hc _
    exact absurd (List.cons.inj hc).1 he
  · rename_i hc _
    exact absurd (List.cons.inj hc).1 hE
  · have hfits : (digits? (decimal n.toNat)).filter (· < UInt64.size) = some n.toNat := by
      rw [digits?_decimal]
      exact Option.filter_some_pos (decide_eq_true n.toNat_lt_size)
    rw [hfits, Option.map_some, UInt64.ofNat_toNat]

/-- A text or nothing is read from its written form. -/
theorem optionalText_value (v : Option String) (rest : List Char) :
    optionalText ((Assignment.userAgent v).value ++ rest) = some (v, rest) := by
  cases v with
  | none => rfl
  | some text =>
    rw [Assignment.value, quote_toList, List.cons_append, List.append_assoc]
    change (unquoted _).map _ = _
    rw [List.singleton_append, unquoted_escaped, Option.map_some]
    exact congrArg (fun t => some (some t, rest)) String.ofList_toList

theorem memberValue_value {a : Assignment} (h : dropSpace cs = a.value ++ rest) (hrest : Ends rest) :
    memberValue a.key cs = some (some a, rest) := by
  cases a with
  | number s n =>
    have hkey : Setting.ofKey? (Assignment.number s n).key = some s := Setting.ofKey?_key s
    unfold memberValue
    rw [hkey, h]
    dsimp only
    rw [Assignment.value, word64_decimal n hrest]
    rfl
  | userAgent v =>
    have hkey : Setting.ofKey? (Assignment.userAgent v).key = none := Setting.ofKey?_userAgentKey
    unfold memberValue
    rw [hkey, h]
    dsimp only
    rw [if_pos (show (Assignment.userAgent v).key = userAgentKey from rfl), optionalText_value]
    rfl

/-! ## Members -/

theorem Ends.of_space (h : isSpace c = true) (rest : List Char) : Ends (c :: rest) := by
  simp only [isSpace, Bool.or_eq_true, beq_iff_eq] at h
  rcases h with ((rfl | rfl) | rfl) | rfl <;>
    exact ⟨_, rest, rfl, by decide, by decide, by decide, by decide⟩

/-- The tokens of what follows a member: the others, each after a comma, and the end. -/
def furtherTokens : List Assignment → List (List Char)
  | [] => [['\x7d']]
  | a :: as => [','] :: (a.tokens ++ furtherTokens as)

/-- The tokens of an object with some members. -/
def objectTokens : List Assignment → List (List Char)
  | [] => [['\x7b'], ['\x7d']]
  | a :: as => ['\x7b'] :: (a.tokens ++ furtherTokens as)

theorem flatten_furtherTokens (a : Assignment) (as : List Assignment) :
    a.chars ++ (furtherTokens as).flatten = commaSeparatedMembers (a :: as) ++ ['\x7d'] := by
  induction as generalizing a with
  | nil => rfl
  | cons b as ih =>
    have hmembers : commaSeparatedMembers (a :: b :: as) =
        a.chars ++ (',' :: commaSeparatedMembers (b :: as)) := rfl
    rw [furtherTokens, List.flatten_cons, List.flatten_append, b.flatten_tokens, ih b, hmembers,
      List.append_assoc]
    rfl

theorem length_le_further (as : List Assignment) :
    as.length ≤ (furtherTokens as).flatten.length := by
  induction as with
  | nil => exact Nat.zero_le _
  | cons a as ih =>
    simp only [furtherTokens, List.flatten_cons, List.flatten_append, List.length_append,
      List.length_cons, List.length_nil]
    omega

/-- The written form of an object is its tokens without white space. -/
theorem flatten_objectTokens (as : List Assignment) : (objectTokens as).flatten = objectChars as := by
  cases as with
  | nil => rfl
  | cons a as =>
    rw [objectTokens, List.flatten_cons, List.flatten_append, a.flatten_tokens,
      flatten_furtherTokens]
    rfl

/-- No white space is needed. -/
theorem spaced_objectChars (as : List Assignment) : Spaced (objectTokens as) (objectChars as) :=
  flatten_objectTokens as ▸ spaced_flatten _

/-- A number is ended by what follows a member. -/
theorem ends_of_further (h : Spaced (furtherTokens as) cs) : Ends cs := by
  obtain ⟨t, ts, hts, hmark⟩ : ∃ t ts, furtherTokens as = [t] :: ts ∧ (t = ',' ∨ t = '\x7d') := by
    cases as with
    | nil => exact ⟨_, _, rfl, .inr rfl⟩
    | cons a as => exact ⟨_, _, rfl, .inl rfl⟩
  rw [hts] at h
  cases h with
  | @cons s _ rest _ hs hrest =>
    cases s with
    | nil =>
      refine ⟨t, rest, rfl, ?_⟩
      rcases hmark with rfl | rfl
      · decide
      · decide
    | cons c s => exact .of_space (hs c List.mem_cons_self) _

/-- A member is read, and the reader goes on after a comma, and is done at the end. -/
theorem members_member (h : Spaced (a.tokens ++ furtherTokens as) cs)
    (hfresh : ∀ b ∈ done, b.key ≠ a.key) :
    ∃ rest, Spaced (furtherTokens as) rest ∧
      (∀ inner, dropSpace rest = ',' :: inner →
        members (fuel + 1) done cs = members fuel (done ++ [a]) inner) ∧
      ∀ inner, dropSpace rest = '\x7d' :: inner →
        members (fuel + 1) done cs = .ok (done ++ [a]) := by
  obtain ⟨afterKey, hkey, h⟩ := h.dropSpace (opens_quote a.key)
  obtain ⟨afterColon, hcolon, h⟩ := h.dropSpace_mark rfl
  obtain ⟨rest, hvalue, h⟩ := h.dropSpace a.opens_value
  have htext : expect '"' (dropSpace cs) >>= unquoted = some (a.key.toList, afterKey) := by
    rw [hkey, unquoted_quote]
  have hnew : done.any (fun b => b.key = a.key) = false := by simpa using hfresh
  have hmark : expect ':' (dropSpace afterKey) = some afterColon := by
    rw [hcolon, expect, if_pos rfl]
  have hmember : memberValue a.key afterColon = some (some a, rest) :=
    memberValue_value hvalue (ends_of_further h)
  refine ⟨rest, h, fun inner hinner => ?_, fun inner hinner => ?_⟩
  · simp only [members, htext, String.ofList_toList, hnew, if_neg Bool.false_ne_true, hmark, hmember,
      Option.toList_some, hinner]
  · simp only [members, htext, String.ofList_toList, hnew, if_neg Bool.false_ne_true, hmark, hmember,
      Option.toList_some, hinner]

theorem ne_key_of_nodup (h : ((done ++ a :: as).map Assignment.key).Nodup) :
    ∀ b ∈ done, b.key ≠ a.key := by
  rw [List.map_append, List.nodup_append] at h
  exact fun b hb => h.2.2 _ (List.mem_map_of_mem hb) _ List.mem_cons_self

/-- Members with different keys are read, with any white space. -/
theorem members_further (h : Spaced (a.tokens ++ furtherTokens as) cs)
    (hkeys : ((done ++ a :: as).map Assignment.key).Nodup) (hfuel : as.length ≤ fuel) :
    members (fuel + 1) done cs = .ok (done ++ a :: as) := by
  induction as generalizing a done fuel cs with
  | nil =>
    obtain ⟨rest, hrest, -, hdone⟩ := members_member h (ne_key_of_nodup hkeys)
    obtain ⟨after, hend, -⟩ := hrest.dropSpace_mark rfl
    exact hdone after hend
  | cons b as ih =>
    obtain ⟨fuel, rfl⟩ := Nat.exists_eq_add_one_of_ne_zero (Nat.ne_zero_of_lt hfuel)
    obtain ⟨rest, hrest, hnext, -⟩ := members_member h (ne_key_of_nodup hkeys)
    obtain ⟨after, hcomma, hafter⟩ := hrest.dropSpace_mark rfl
    rw [List.append_cons] at hkeys ⊢
    rw [hnext after hcomma]
    exact ih hafter hkeys (Nat.le_of_succ_le_succ hfuel)

theorem readDocument_of_empty {tail : List Char} (hopen : dropSpace cs = '\x7b' :: rest)
    (hclose : dropSpace rest = '\x7d' :: tail) : readDocument cs = .ok [] := by
  simp only [readDocument, hopen, hclose]

theorem readDocument_of_members {tail : List Char} (hopen : dropSpace cs = '\x7b' :: rest)
    (hkey : dropSpace rest = '"' :: tail) :
    readDocument cs = members (('"' :: tail).length + 1) [] ('"' :: tail) := by
  simp only [readDocument, hopen, hkey]
  rfl

/-- An object whose members have different keys is read, with any white space. -/
theorem readDocument_spaced (h : Spaced (objectTokens as) cs)
    (hkeys : (as.map Assignment.key).Nodup) : readDocument cs = .ok as := by
  cases as with
  | nil =>
    obtain ⟨inner, hopen, hinner⟩ := h.dropSpace_mark rfl
    obtain ⟨after, hclose, -⟩ := hinner.dropSpace_mark rfl
    exact readDocument_of_empty hopen hclose
  | cons a as =>
    obtain ⟨inner, hopen, hinner⟩ := h.dropSpace_mark rfl
    obtain ⟨afterKey, hkey, hafterKey⟩ := hinner.dropSpace (opens_quote a.key)
    -- the members are read from where the white space before the first key has been dropped
    have htrimmed : Spaced (a.tokens ++ furtherTokens as) ((quote a.key).toList ++ afterKey) :=
      hafterKey.append _
    have hfuel : as.length ≤ ((quote a.key).toList ++ afterKey).length := by
      refine Nat.le_trans (length_le_further as) (Nat.le_trans ?_ htrimmed.length_flatten_le)
      rw [List.flatten_append, List.length_append]
      exact Nat.le_add_left _ _
    have hmembers : members (((quote a.key).toList ++ afterKey).length + 1) []
        ((quote a.key).toList ++ afterKey) = .ok (a :: as) := members_further htrimmed hkeys hfuel
    rw [quote_toList] at hkey hmembers
    exact (readDocument_of_members hopen hkey).trans hmembers

/-! ## Configurations -/

/-- A configuration with the values of another one at some keys. -/
def patched (d c : Config) (keys : List String) : Config where
  number s := if s.key ∈ keys then c.number s else d.number s
  userAgent := if userAgentKey ∈ keys then c.userAgent else d.userAgent

theorem mem_assignments_iff {c : Config} :
    a ∈ c.assignments ↔ (∃ s, a = .number s (c.number s)) ∨ a = .userAgent c.userAgent := by
  simp [assignments, Setting.mem_all, eq_comm]

theorem userAgentKey_ne_key (s : Setting) : userAgentKey ≠ s.key := by
  cases s <;> decide

/-- A member with a value of `c` sets this value. -/
theorem patched_apply {c : Config} (h : a ∈ c.assignments) (d : Config) (keys : List String) :
    (a.apply d).patched c keys = d.patched c (a.key :: keys) := by
  rcases mem_assignments_iff.1 h with ⟨s, rfl⟩ | rfl
  · refine congrArg₂ Config.mk (funext fun t => ?_) ?_
    · by_cases hts : t = s
      · simp [Assignment.apply, Assignment.key, set, hts]
      · have hkey : t.key ≠ s.key := fun hkey => hts (Setting.key_inj hkey)
        simp [Assignment.apply, Assignment.key, set, hts, hkey]
    · simp [Assignment.apply, Assignment.key, set, userAgentKey_ne_key s]
  · refine congrArg₂ Config.mk (funext fun t => ?_) ?_
    · simp [Assignment.apply, Assignment.key, (userAgentKey_ne_key t).symm]
    · simp [Assignment.apply, Assignment.key]

/-- Members with values of `c`, one after the other, set these values. -/
theorem foldl_apply {c : Config} (h : ∀ a ∈ as, a ∈ c.assignments) (d : Config) :
    as.foldl Assignment.apply d = d.patched c (as.map Assignment.key) := by
  induction as generalizing d with
  | nil => simp [patched]
  | cons a as ih =>
    obtain ⟨ha, has⟩ := List.forall_mem_cons.1 h
    rw [List.foldl_cons, ih has, patched_apply ha, List.map_cons]

/-- The keys of all members, which do not depend on the configuration. -/
theorem keys_assignments (c : Config) :
    c.assignments.map Assignment.key = Setting.all.map Setting.key ++ [userAgentKey] := rfl

/-- A configuration is determined by what is written of it. -/
theorem patched_keys (d c : Config) : d.patched c (c.assignments.map Assignment.key) = c := by
  refine congrArg₂ Config.mk (funext fun s => ?_) ?_
  · have hmem : s.key ∈ c.assignments.map Assignment.key := by
      rw [keys_assignments]
      exact List.mem_append_left _ (List.mem_map_of_mem s.mem_all)
    rw [if_pos hmem]
  · rw [keys_assignments, if_pos (by simp)]

theorem nodup_keys {c : Config} (h : as.Subperm c.assignments) :
    (as.map Assignment.key).Nodup := by
  have hall : (c.assignments.map Assignment.key).Nodup := by
    rw [keys_assignments]
    decide
  obtain ⟨bs, hperm, hsub⟩ := h
  exact (hperm.map Assignment.key).nodup_iff.1 ((hsub.map Assignment.key).nodup hall)

/-- Some members with values of `c` describe a configuration that has these values. -/
theorem ofAssignments_eq {c : Config} (h : as.Subperm c.assignments) :
    ofAssignments as = default.patched c (as.map Assignment.key) :=
  foldl_apply h.subset default

theorem ofDocument?_of_valid (hread : readDocument cs = .ok as) (h : (ofAssignments as).Valid) :
    ofDocument? (String.ofList cs) = .ok (ofAssignments as) := by
  unfold ofDocument?
  rw [String.toList_ofList, hread]
  dsimp only
  rw [h]

theorem ofDocument?_of_fault {e : ConfigError} (hread : readDocument cs = .ok as)
    (h : (ofAssignments as).fault? = some e) : ofDocument? (String.ofList cs) = .error e := by
  unfold ofDocument?
  rw [String.toList_ofList, hread]
  dsimp only
  rw [h]

/-- A configuration is read back from its document, if a limiter can run on it. An object with some of
its members, in any order and with any white space, is read as the configuration that has these values
and the defaults elsewhere, if a limiter can run on that one; else the fault of that one is reported. -/
theorem ofDocument?_written (c : Config) :
    (c.Valid → ofDocument? c.document = .ok c) ∧
      ∀ as, as.Subperm c.assignments → ∀ cs, Spaced (objectTokens as) cs →
        ((default.patched c (as.map Assignment.key)).Valid →
          ofDocument? (String.ofList cs) = .ok (default.patched c (as.map Assignment.key))) ∧
        ∀ e, (default.patched c (as.map Assignment.key)).fault? = some e →
          ofDocument? (String.ofList cs) = .error e := by
  constructor
  · intro hvalid
    have hread : readDocument (objectChars c.assignments) = .ok c.assignments :=
      readDocument_spaced (spaced_objectChars _) (nodup_keys (List.Perm.refl _).subperm)
    have hsame : ofAssignments c.assignments = c :=
      (ofAssignments_eq (List.Perm.refl _).subperm).trans (patched_keys default c)
    exact (ofDocument?_of_valid hread (hsame.symm ▸ hvalid)).trans (congrArg _ hsame)
  · intro as has cs hcs
    have hread : readDocument cs = .ok as := readDocument_spaced hcs (nodup_keys has)
    rw [← ofAssignments_eq has]
    exact ⟨ofDocument?_of_valid hread, fun e => ofDocument?_of_fault hread⟩

/-- A user agent with characters that are escaped, and some that are not. -/
def quotingConfig : Config :=
  ((default.withUserAgent "a\"b\\c\tü☃").set .minimumInterval 750).set .eventCapacity
    18446744073709551615

/-- The last and the third of the members. -/
def chosenMembers : List Assignment :=
  [.userAgent (some "a\"b\\c\tü☃"), .number .minimumInterval 750]

/-- The only member is one that must not be zero. -/
def idleMembers : List Assignment := [.number .statusInterval 0]

/-- A configuration is read back, two of its members in another order are read with the defaults, and
a member with a fault is reported; a line starts before each object. -/
theorem ofDocument?_written_quotingConfig :
    (quotingConfig.Valid ∧ ofDocument? quotingConfig.document = .ok quotingConfig) ∧
    (chosenMembers.Subperm quotingConfig.assignments ∧
      Spaced (objectTokens chosenMembers) ('\n' :: objectChars chosenMembers) ∧
      (default.patched quotingConfig [userAgentKey, Setting.minimumInterval.key]).Valid ∧
      ofDocument? (String.ofList ('\n' :: objectChars chosenMembers)) =
        .ok (default.patched quotingConfig [userAgentKey, Setting.minimumInterval.key])) ∧
    idleMembers.Subperm (quotingConfig.set .statusInterval 0).assignments ∧
      Spaced (objectTokens idleMembers) ('\n' :: objectChars idleMembers) ∧
      ofDocument? (String.ofList ('\n' :: objectChars idleMembers)) =
        .error (.invalid "status_interval_ms" "the status tick must be positive") := by
  have hspaced (as : List Assignment) : Spaced (objectTokens as) ('\n' :: objectChars as) := by
    have hline : Space ['\n'] := by simp [Space, isSpace]
    rw [← flatten_objectTokens]
    cases as with
    | nil => exact .cons hline (spaced_flatten _)
    | cons a as => exact .cons hline (spaced_flatten _)
  have hvalid : quotingConfig.fault? = none := by decide +kernel
  have hchosen : chosenMembers.Subperm quotingConfig.assignments := by decide +kernel
  have hidle : idleMembers.Subperm (quotingConfig.set .statusInterval 0).assignments := by
    decide +kernel
  have hpatched : (default.patched quotingConfig [userAgentKey, Setting.minimumInterval.key]).fault? =
      none := by decide +kernel
  refine ⟨⟨hvalid, (ofDocument?_written quotingConfig).1 hvalid⟩, ?_, hidle, hspaced _, ?_⟩
  · exact ⟨hchosen, hspaced _, hpatched,
      ((ofDocument?_written quotingConfig).2 _ hchosen _ (hspaced _)).1 hpatched⟩
  · exact ((ofDocument?_written _).2 _ hidle _ (hspaced _)).2 _ (by decide +kernel)

end Config

end Throttle
