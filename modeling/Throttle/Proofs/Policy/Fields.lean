import Throttle.Proofs.Policy.Windows

/-!
Header fields as texts. A field that is written with `Policy.put` is read back as it was, where its
name is a token and its characters are visible (`textAt_put_same`), and every other field stays
(`textAt_put_other`). Of many fields that are written in a row (`putAll`), the last one of a name
stands: so what is read under a name was written under it (`textAt_putAll_of_mem`).
-/

namespace Throttle

namespace Text

/-- A character that a header value may hold and give back as text. -/
def Visible (c : Char) : Prop := c.toNat = 9 ∨ 32 ≤ c.toNat ∧ c.toNat < 127

theorem Visible.utf8Size {c : Char} (h : Visible c) : c.utf8Size = 1 := by
  have : c.toNat ≤ 127 := by unfold Visible at h; omega
  exact Char.utf8Size_eq_one_iff.2 (UInt32.le_iff_toNat_le.2 this)

theorem visible_of_isDigit {c : Char} (h : c.isDigit = true) : Visible c := by
  have h' : 48 ≤ c.toNat ∧ c.toNat ≤ 57 := Char.isDigit_iff_toNat.1 h
  unfold Visible; omega

theorem visible_of_mem_listing {c : Char} {ws : List Window} (h : c ∈ Window.listing ws) :
    Visible c := by
  rcases Window.mem_listing h with rfl | h | rfl
  · unfold Visible; decide
  · exact visible_of_isDigit h
  · unfold Visible; decide

theorem toNat_ofNat {n : Nat} (h : n.isValidChar) : (Char.ofNat n).toNat = n := by
  rw [Char.ofNat, dif_pos h]
  rfl

/-- A visible text has one octet for each character. -/
theorem utf8Len_of_visible {cs : List Char} (h : ∀ c ∈ cs, Visible c) :
    String.utf8Len cs = cs.length := by
  induction cs with
  | nil => rfl
  | cons c cs ih =>
    rw [String.utf8Len_cons, (h c List.mem_cons_self).utf8Size,
      ih fun d hd => h d (List.mem_cons_of_mem c hd), List.length_cons]

theorem length_le_utf8Len (cs : List Char) : cs.length ≤ String.utf8Len cs := by
  induction cs with
  | nil => exact Nat.le_refl 0
  | cons c cs ih =>
    have := Char.utf8Size_pos c
    rw [String.utf8Len_cons, List.length_cons]
    omega

namespace Utf8

/-- The octets from one on, after those already taken. -/
theorem toList_loop (bs : ByteArray) (i : Nat) (taken : List UInt8) :
    ByteArray.toList.loop bs i taken = taken.reverse ++ bs.data.toList.drop i := by
  induction i, taken using ByteArray.toList.loop.induct bs with
  | case1 i taken hi ih =>
    have hi' : i < bs.data.toList.length := by simpa using hi
    have hget : bs.get! i = bs.data.toList[i] := by
      simp only [ByteArray.get!, Array.getElem_toList]
      exact getElem!_pos bs.data i (by simpa using hi)
    rw [ByteArray.toList.loop, if_pos hi, ih, List.reverse_cons, List.append_assoc, hget,
      List.singleton_append, List.getElem_cons_drop]
  | case2 i taken hi =>
    rw [ByteArray.toList.loop, if_neg hi, List.drop_eq_nil_of_le (by simpa using hi),
      List.append_nil]

theorem encode_ofList (cs : List Char) :
    encode (String.ofList cs) = cs.flatMap String.utf8EncodeChar := by
  rw [encode, ByteArray.toList, toList_loop]
  exact List.toList_data_toByteArray

end Utf8

end Text

namespace Http

open Text

theorem lowercase_append (s t : String) : lowercase (s ++ t) = lowercase s ++ lowercase t := by
  simp [lowercase, String.toList_append, String.ofList_append]

theorem lowercase_lowercase (s : String) : lowercase (lowercase s) = lowercase s := by
  simp [lowercase, Function.comp_def]

theorem length_lowercase (s : String) : (lowercase s).toList.length = s.toList.length := by
  simp [lowercase]

namespace HeaderName

theorem text_of_ofString? {s : String} {n : HeaderName} (h : ofString? s = some n) :
    n.text = lowercase s := by
  unfold ofString? at h
  split at h
  · rw [← Option.some.inj h]
  · cases h

end HeaderName

namespace HeaderValue

theorem visible_of_chars? {v : HeaderValue} {cs : List Char} (h : v.chars? = some cs) :
    ∀ c ∈ cs, Visible c := by
  unfold chars? at h
  split at h
  next hall =>
    cases h
    intro c hc
    obtain ⟨b, hb, rfl⟩ := List.mem_map.1 hc
    have ht := List.all_eq_true.1 hall b hb
    have hb := b.toNat_lt
    rw [Visible, toNat_ofNat (.inl (by omega))]
    simpa [isTextOctet, ← UInt8.toNat_inj, UInt8.le_iff_toNat_le, UInt8.lt_iff_toNat_lt] using ht
  next => cases h

/-- The octet of a visible character. -/
theorem octet_of_visible {c : Char} (h : Visible c) :
    ∃ b, String.utf8EncodeChar c = [b] ∧ isTextOctet b = true ∧ isValueOctet b = true ∧
      Char.ofNat b.toNat = c := by
  have hc : c.toNat < 128 := by unfold Visible at h; omega
  have hb : c.toUInt8.toNat = c.toNat := by
    rw [← Char.toUInt8_val, UInt32.toNat_toUInt8]
    exact Nat.mod_eq_of_lt (hc.trans (by decide))
  refine ⟨c.toUInt8, String.utf8EncodeChar_eq_singleton h.utf8Size, ?_, ?_, ?_⟩
  · simpa [Visible, isTextOctet, ← UInt8.toNat_inj, UInt8.le_iff_toNat_le, UInt8.lt_iff_toNat_lt,
      hb] using h
  · rw [isValueOctet]
    simp only [Bool.or_eq_true, Bool.and_eq_true, beq_iff_eq, bne_iff_ne, decide_eq_true_eq, ne_eq,
      ← UInt8.toNat_inj, UInt8.le_iff_toNat_le, hb]
    exact h.imp_right fun ⟨h1, h2⟩ => ⟨h1, Nat.ne_of_lt h2⟩
  · rw [hb, Char.ofNat_toNat]

/-- A visible text makes a value that reads as that text. -/
theorem ofString?_of_visible {cs : List Char} (h : ∀ c ∈ cs, Visible c) :
    ∃ v, ofString? (String.ofList cs) = some v ∧ v.chars? = some cs := by
  have hbs : ∃ bs : List UInt8, cs.flatMap String.utf8EncodeChar = bs ∧
      bs.all isTextOctet = true ∧ bs.all isValueOctet = true ∧
      bs.map (fun b => Char.ofNat b.toNat) = cs := by
    induction cs with
    | nil => exact ⟨[], rfl, rfl, rfl, rfl⟩
    | cons c cs ih =>
      obtain ⟨b, hb, ht, hv, hc⟩ := octet_of_visible (h c List.mem_cons_self)
      obtain ⟨bs, hbs, hts, hvs, hcs⟩ := ih fun d hd => h d (List.mem_cons_of_mem c hd)
      exact ⟨b :: bs, by rw [List.flatMap_cons, hb, hbs, List.singleton_append], by simp [ht, hts],
        by simp [hv, hvs], by rw [List.map_cons, hc, hcs]⟩
  obtain ⟨bs, hbs, hts, hvs, hcs⟩ := hbs
  refine ⟨{ octets := bs }, ?_, ?_⟩
  · rw [ofString?, Utf8.encode_ofList, hbs, ofOctets?, if_pos hvs]
  · rw [chars?, if_pos hts, hcs]

end HeaderValue

end Http

open Http Text

/-- The text of a header, where it is there and readable. -/
def textAt (h : Headers) (name : String) : Option (List Char) :=
  (h.get? name).bind HeaderValue.chars?

theorem required_eq_ok_iff {h : Headers} {name : String} {cs : List Char} :
    required h name = .ok cs ↔ ∃ raw, textAt h name = some raw ∧ trim raw = cs := by
  unfold required textAt
  cases h.get? name with
  | none => simp
  | some v => cases hv : v.chars? <;> simp [hv]

theorem policyText?_eq_some_iff {h : Headers} {cs : List Char} :
    policyText? h = some cs ↔
      ∃ raw, textAt h policyHeader = some raw ∧ trim raw = cs ∧ cs ≠ [] := by
  unfold policyText? textAt
  cases (h.get? policyHeader).bind HeaderValue.chars? with
  | none => simp
  | some raw =>
    by_cases hraw : trim raw = []
    · simp [hraw]
    · simpa [hraw] using by rintro rfl; exact hraw

theorem visible_of_textAt {h : Headers} {name : String} {cs : List Char}
    (ht : textAt h name = some cs) : ∀ c ∈ cs, Visible c := by
  obtain ⟨v, -, hv⟩ := Option.bind_eq_some_iff.1 ht
  exact HeaderValue.visible_of_chars? hv

theorem isSome_of_textAt {h : Headers} {name : String} {cs : List Char}
    (ht : textAt h name = some cs) : (HeaderName.ofString? name).isSome = true := by
  obtain ⟨v, hv, -⟩ := Option.bind_eq_some_iff.1 ht
  obtain ⟨n, hn, -⟩ := Option.bind_eq_some_iff.1 hv
  rw [hn, Option.isSome_some]

namespace Policy

/-- A field that can be written: a name that is a token, and a visible text. -/
structure Writable (f : String × List Char) : Prop where
  name : (HeaderName.ofString? f.1).isSome = true
  text : ∀ c ∈ f.2, Visible c

theorem textAt_put_same (h : Headers) {name : String} {cs : List Char}
    (hf : Writable (name, cs)) : textAt (put h name cs) name = some cs := by
  obtain ⟨n, hn⟩ := Option.isSome_iff_exists.1 hf.name
  obtain ⟨v, hv, hcs⟩ := HeaderValue.ofString?_of_visible hf.text
  have hput : put h name cs = h.insert n v := by
    unfold put
    split
    next n' v' hn' hv' =>
      rw [hn] at hn'
      rw [hv] at hv'
      rw [Option.some.inj hn', Option.some.inj hv']
    next hno => exact absurd hv (hno n v hn)
  rw [textAt, hput, Headers.get?, hn, Option.bind_some, Headers.values_insert_same, List.head?_cons,
    Option.bind_some, hcs]

theorem textAt_put_other (h : Headers) {name other : String} (cs : List Char)
    (hne : lowercase other ≠ lowercase name) :
    textAt (put h name cs) other = textAt h other := by
  unfold put
  split
  next n v hn hv =>
    have hget : (h.insert n v).get? other = h.get? other := by
      unfold Headers.get?
      cases ho : HeaderName.ofString? other with
      | none => rfl
      | some k =>
        have hk : k ≠ n := by
          rintro rfl
          exact hne (by rw [← HeaderName.text_of_ofString? ho, HeaderName.text_of_ofString? hn])
        rw [Option.bind_some, Option.bind_some, Headers.values_insert_other h hk]
    rw [textAt, hget, textAt]
  next => rfl

/-- Writes fields one after the other. -/
def putAll (h : Headers) (fs : List (String × List Char)) : Headers :=
  fs.foldl (fun h f => put h f.1 f.2) h

theorem putAll_append (h : Headers) (fs gs : List (String × List Char)) :
    putAll h (fs ++ gs) = putAll (putAll h fs) gs :=
  List.foldl_append

theorem textAt_putAll_of_notMem (h : Headers) {fs : List (String × List Char)} {name : String}
    (hne : ∀ f ∈ fs, lowercase name ≠ lowercase f.1) :
    textAt (putAll h fs) name = textAt h name := by
  induction fs generalizing h with
  | nil => rfl
  | cons f fs ih =>
    rw [putAll, List.foldl_cons, ← putAll, ih _ fun g hg => hne g (List.mem_cons_of_mem f hg),
      textAt_put_other h f.2 (hne f List.mem_cons_self)]

/-- What is read under the name of a field that was written is what some field of that name said:
the last one. -/
theorem textAt_putAll_of_mem (h : Headers) {fs : List (String × List Char)}
    (hlow : ∀ f ∈ fs, lowercase f.1 = f.1) (hw : ∀ f ∈ fs, Writable f) {f : String × List Char}
    (hf : f ∈ fs) : ∃ g ∈ fs, g.1 = f.1 ∧ textAt (putAll h fs) f.1 = some g.2 := by
  induction fs generalizing h f with
  | nil => cases hf
  | cons e fs ih =>
    have hlow' : ∀ g ∈ fs, lowercase g.1 = g.1 := fun g hg => hlow g (List.mem_cons_of_mem e hg)
    have hw' : ∀ g ∈ fs, Writable g := fun g hg => hw g (List.mem_cons_of_mem e hg)
    rw [putAll, List.foldl_cons, ← putAll]
    by_cases hlater : ∃ g ∈ fs, g.1 = f.1
    · obtain ⟨g, hg, hgf⟩ := hlater
      obtain ⟨k, hk, hkg, ht⟩ := ih (put h e.1 e.2) hlow' hw' hg
      exact ⟨k, List.mem_cons_of_mem e hk, hkg.trans hgf, hgf ▸ ht⟩
    · have hef : f = e := (List.mem_cons.1 hf).resolve_right fun hm => hlater ⟨f, hm, rfl⟩
      subst hef
      refine ⟨f, List.mem_cons_self, rfl, ?_⟩
      rw [textAt_putAll_of_notMem _ fun g hg he => hlater ⟨g, hg, ?_⟩]
      · exact textAt_put_same h (hw f List.mem_cons_self)
      · rw [← hlow' g hg, ← hlow f List.mem_cons_self, he]

end Policy

end Throttle
