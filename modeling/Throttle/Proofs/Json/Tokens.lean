import Mathlib.Data.List.Basic
import Mathlib.Tactic.ByContra
import Throttle.Json.Skip

/-!
  Tokens of JSON documents. A document is spelled by writing its tokens one after the other, with any
  white space before each of them and after the last (`Spaced`); a reader that drops white space finds
  one token after the other (`Spaced.dropSpace`). A string is read back from what `quote` writes,
  whatever characters it holds (`unquoted_quote`).
-/

namespace Throttle.Json

variable {c d : Char} {cs rest t : List Char} {ts : List (List Char)} {n : Nat}

/-! ## White space between tokens -/

/-- A text of white space only. -/
def Space (cs : List Char) : Prop := ∀ c ∈ cs, isSpace c = true

/-- A text that starts with something else than white space. -/
def Opens (cs : List Char) : Prop := ∃ c rest, cs = c :: rest ∧ isSpace c = false

/-- A text that consists of some tokens, in order, with white space between them. -/
inductive Spaced : List (List Char) → List Char → Prop where
  | nil {s : List Char} (hs : Space s) : Spaced [] s
  | cons {s t rest : List Char} {ts : List (List Char)} (hs : Space s) (hrest : Spaced ts rest) :
      Spaced (t :: ts) (s ++ (t ++ rest))

theorem space_nil : Space [] := List.forall_mem_nil _

/-- No white space is needed before a token. -/
theorem Spaced.append (h : Spaced ts rest) (t : List Char) : Spaced (t :: ts) (t ++ rest) :=
  .cons (s := []) space_nil h

theorem spaced_flatten (ts : List (List Char)) : Spaced ts ts.flatten := by
  induction ts with
  | nil => exact .nil space_nil
  | cons t ts ih => exact ih.append t

theorem Opens.dropSpace (h : Opens cs) : dropSpace cs = cs := by
  obtain ⟨c, rest, rfl, hc⟩ := h
  exact List.dropWhile_cons_of_neg (by simp [hc])

theorem Opens.append (h : Opens cs) (rest : List Char) : Opens (cs ++ rest) := by
  obtain ⟨c, cs, rfl, hc⟩ := h
  exact ⟨c, cs ++ rest, rfl, hc⟩

/-- Where white space is dropped, the first token is found and the others follow. -/
theorem Spaced.dropSpace (h : Spaced (t :: ts) cs) (ht : Opens t) :
    ∃ rest, dropSpace cs = t ++ rest ∧ Spaced ts rest := by
  cases h with
  | @cons s _ rest _ hs hrest =>
    refine ⟨rest, ?_, hrest⟩
    rw [Json.dropSpace, List.dropWhile_append_of_pos hs]
    exact (ht.append rest).dropSpace

/-- The same for a token of one character. -/
theorem Spaced.dropSpace_mark (h : Spaced ([c] :: ts) cs) (hc : isSpace c = false) :
    ∃ rest, Json.dropSpace cs = c :: rest ∧ Spaced ts rest :=
  h.dropSpace ⟨c, [], rfl, hc⟩

/-- No token is shortened. -/
theorem Spaced.length_flatten_le (h : Spaced ts cs) : ts.flatten.length ≤ cs.length := by
  induction h with
  | nil => exact Nat.zero_le _
  | cons hs hrest ih =>
    simp only [List.flatten_cons, List.length_append]
    omega

/-! ## Strings -/

/-- A character that does not end the string moves the reader on. -/
theorem unquotedFrom_cons {spot next : Spot} {out : Option Char}
    (h : advance? spot c = some (out, next)) (hend : spot = .plain → c ≠ '"') (cs : List Char) :
    unquotedFrom spot (c :: cs) =
      (unquotedFrom next cs).map fun p => (out.toList ++ p.1, p.2) := by
  rw [unquotedFrom, h]
  exact fun hplain hquote => hend hplain (beq_iff_eq.1 hquote)

theorem hexValue?_digitChar (h : n < 16) : hexValue? (Nat.digitChar n) = some n := by
  have hall : ∀ n < 16, hexValue? (Nat.digitChar n) = some n := by decide
  exact hall n h

/-- A digit of a code unit, but for the last, moves the reader on. -/
theorem unquotedFrom_digit {owed unit : Nat} (hn : n < 16) (cs : List Char) :
    unquotedFrom (.digits (owed + 2) unit none) (Nat.digitChar n :: cs) =
      unquotedFrom (.digits (owed + 1) (unit * 16 + n) none) cs := by
  have hadvance : advance? (.digits (owed + 2) unit none) (Nat.digitChar n) =
      some (none, .digits (owed + 1) (unit * 16 + n) none) := by
    simp [advance?, hexValue?_digitChar hn]
  rw [unquotedFrom_cons hadvance (by simp)]
  exact congrFun Option.map_id _

/-- A code unit that is no half of a pair is read from its four digits. -/
theorem unquotedFrom_hex4 (h : n < 0xD800) (cs : List Char) :
    unquotedFrom (.digits 4 0 none) (hex4 n ++ cs) =
      (unquotedFrom .plain cs).map fun p => (Char.ofNat n :: p.1, p.2) := by
  have hsum : ((0 * 16 + n / 4096 % 16) * 16 + n / 256 % 16) * 16 + n / 16 % 16 = n / 16 := by omega
  have hlast : n / 16 * 16 + n % 16 = n := Nat.div_add_mod' n 16
  have hunit : unit? n none = some (some (Char.ofNat n), .plain) := by
    have hhigh : isHigh n = false := by simp [isHigh]; omega
    have hlow : isLow n = false := by simp [isLow]; omega
    simp [unit?, hhigh, hlow]
  have hadvance : advance? (.digits 1 (n / 16) none) (Nat.digitChar (n % 16)) =
      some (some (Char.ofNat n), .plain) := by
    simp only [advance?, hexValue?_digitChar (Nat.mod_lt n (by decide)), hlast, hunit]
    rfl
  simp only [hex4, List.map_cons, List.map_nil, List.cons_append, List.nil_append]
  rw [unquotedFrom_digit (Nat.mod_lt _ (by decide)), unquotedFrom_digit (Nat.mod_lt _ (by decide)),
    unquotedFrom_digit (Nat.mod_lt _ (by decide)), hsum, unquotedFrom_cons hadvance (by simp)]
  rfl

/-- An escape of one letter is read. -/
theorem unquotedFrom_short (h : shortEscape? c = some d) (cs : List Char) :
    unquotedFrom .plain ('\\' :: c :: cs) =
      (unquotedFrom .plain cs).map fun p => (d :: p.1, p.2) := by
  have hu : c ≠ 'u' := by
    rintro rfl
    cases h
  have hslash : advance? .plain '\\' = some (none, .slash) := rfl
  have hadvance : advance? .slash c = some (some d, .plain) := by simp [advance?, hu, h]
  rw [unquotedFrom_cons hslash (by simp), unquotedFrom_cons hadvance (by simp), Option.map_map]
  rfl

/-- A character is written as an escape of one letter, as a code unit, or as it is. -/
theorem escape_cases (c : Char) :
    (∃ letter, escape c = ['\\', letter] ∧ shortEscape? letter = some c) ∨
      escape c = '\\' :: 'u' :: hex4 c.toNat ∧ c.toNat < 0x20 ∨
        escape c = [c] ∧ c ≠ '"' ∧ c ≠ '\\' ∧ 0x20 ≤ c.toNat := by
  -- two of the characters with an escape of one letter are known by their number only
  have hnat (n : Nat) (h : c.toNat = n) : Char.ofNat n = c := h ▸ Char.ofNat_toNat c
  by_cases hquote : c = '"'
  · exact .inl ⟨'"', by simp [escape, hquote], by simp [hquote, shortEscape?]⟩
  by_cases hslash : c = '\\'
  · exact .inl ⟨'\\', by simp [escape, hslash], by simp [hslash, shortEscape?]⟩
  by_cases hn : c = '\n'
  · exact .inl ⟨'n', by simp [escape, hn], by simp [hn, shortEscape?]⟩
  by_cases hr : c = '\r'
  · exact .inl ⟨'r', by simp [escape, hr], by simp [hr, shortEscape?]⟩
  by_cases ht : c = '\t'
  · exact .inl ⟨'t', by simp [escape, ht], by simp [ht, shortEscape?]⟩
  by_cases hb : c.toNat = 8
  · exact .inl ⟨'b', by simp [escape, hquote, hslash, hn, hr, ht, hb],
      congrArg some (hnat 8 hb)⟩
  by_cases hf : c.toNat = 12
  · exact .inl ⟨'f', by simp [escape, hquote, hslash, hn, hr, ht, hf],
      congrArg some (hnat 12 hf)⟩
  have hescape : escape c = if c.toNat < 0x20 then '\\' :: 'u' :: hex4 c.toNat else [c] := by
    simp [escape, hquote, hslash, hn, hr, ht, hb, hf]
  by_cases hcontrol : c.toNat < 0x20
  · exact .inr (.inl ⟨hescape.trans (if_pos hcontrol), hcontrol⟩)
  · exact .inr (.inr ⟨hescape.trans (if_neg hcontrol), hquote, hslash, Nat.le_of_not_lt hcontrol⟩)

/-- A character is read from what is written for it. -/
theorem unquotedFrom_escape (c : Char) (cs : List Char) :
    unquotedFrom .plain (escape c ++ cs) =
      (unquotedFrom .plain cs).map fun p => (c :: p.1, p.2) := by
  rcases escape_cases c with ⟨letter, hc, hletter⟩ | ⟨hc, hlt⟩ | ⟨hc, hquote, hslash, hle⟩
  · rw [hc]
    exact unquotedFrom_short hletter cs
  · have hslash : advance? .plain '\\' = some (none, .slash) := rfl
    have hunit : advance? .slash 'u' = some (none, .digits 4 0 none) := rfl
    rw [hc, List.cons_append, List.cons_append, unquotedFrom_cons hslash (by simp),
      unquotedFrom_cons hunit (by simp), unquotedFrom_hex4 (by omega), Char.ofNat_toNat,
      Option.map_map, Option.map_map]
    rfl
  · have hplain : advance? .plain c = some (some c, .plain) := by
      simp [advance?, hslash, Nat.not_lt.2 hle]
    rw [hc, List.singleton_append, unquotedFrom_cons hplain fun _ => hquote]
    rfl

/-- A text is read from what is written for it. -/
theorem unquoted_escaped (text cs : List Char) :
    unquoted (text.flatMap escape ++ '"' :: cs) = some (text, cs) := by
  unfold unquoted
  induction text with
  | nil => rfl
  | cons c text ih =>
    rw [List.flatMap_cons, List.append_assoc, unquotedFrom_escape, ih]
    rfl

theorem quote_toList (text : String) :
    (quote text).toList = '"' :: (text.toList.flatMap escape ++ ['"']) :=
  String.toList_ofList

theorem opens_quote (text : String) : Opens (quote text).toList :=
  ⟨'"', _, quote_toList text, rfl⟩

/-- A string is read from its written form. -/
theorem unquoted_quote (text : String) (rest : List Char) :
    expect '"' ((quote text).toList ++ rest) >>= unquoted = some (text.toList, rest) := by
  rw [quote_toList, List.cons_append, List.append_assoc]
  exact unquoted_escaped text.toList rest

end Throttle.Json
