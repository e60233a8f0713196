import Throttle.Proofs.Policy.Fields

/-!
Policies in headers are read as they were written: `Policy.toHeaders` declares the policy that
`Policy.ofHeaders?` read (`Policy.ofHeaders?_toHeaders`).

The names of headers need not differ. Rules share headers if their names differ in case only, or if
one is named as another one with `-state` after it. Such rules were read from the same headers, so
they write the same windows, and it does not matter which one writes last (`windows_toHeaders`). No
rule writes over the list of rules: a rule named `rules` would have to be a window itself
(`ne_rulesHeader`). Only the name of the policy can be lost, to the limits of a rule named `policy`,
and these make a name as well (`name_toHeaders`).
-/

namespace Throttle

open Http Text

theorem windows_eq_ok_iff {h : Headers} {name : String} {ws : List Window} :
    windows h name = .ok ws ↔
      ∃ raw, textAt h name = some raw ∧ Window.ofListing? (trim raw) = .ok ws := by
  unfold windows
  cases hr : required h name with
  | error e =>
    simp only [bind, Except.bind, reduceCtorEq, false_iff, not_exists, not_and]
    intro raw ht
    rw [required_eq_ok_iff.2 ⟨raw, ht, rfl⟩] at hr
    cases hr
  | ok cs =>
    obtain ⟨raw, ht, rfl⟩ := required_eq_ok_iff.1 hr
    simp [ht, bind, Except.bind, Window.ofListing?]

theorem windows_of_textAt_listing {h : Headers} {name : String} {ws : List Window}
    (ht : textAt h name = some (Window.listing ws)) : windows h name = .ok ws :=
  windows_eq_ok_iff.2 ⟨_, ht, by rw [Window.trim_listing, Window.ofListing?_listing]⟩

namespace Rule

/-- The windows that a rule declares. -/
def limits (r : Rule) : List Window := r.items.map Item.limit

/-- The counts against them. -/
def states (r : Rule) : List Window := r.items.map Item.state

theorem limits_zipWith (name : String) {ls ss : List Window} (h : ls.length = ss.length) :
    limits ⟨name, List.zipWith Item.mk ls ss⟩ = ls := by
  apply List.ext_getElem <;> simp [limits, h]

theorem states_zipWith (name : String) {ls ss : List Window} (h : ls.length = ss.length) :
    states ⟨name, List.zipWith Item.mk ls ss⟩ = ss := by
  apply List.ext_getElem <;> simp [states, h]

theorem ofHeaders?_eq_ok_iff {name : String} {h : Headers} {r : Rule} :
    ofHeaders? name h = .ok r ↔
      r.name = name ∧ r.items ≠ [] ∧ windows h (limitHeader name) = .ok r.limits ∧
        windows h (stateHeader name) = .ok r.states := by
  unfold ofHeaders?
  cases hl : windows h (limitHeader name) with
  | error e => simp [bind, Except.bind]
  | ok limits =>
    cases hs : windows h (stateHeader name) with
    | error e => simp [bind, Except.bind]
    | ok states =>
      simp only [bind, Except.bind, Except.ok.injEq]
      constructor
      · intro hr
        split at hr
        · cases hr
        next hlen =>
          rw [not_or, not_not] at hlen
          cases hr
          refine ⟨rfl, ?_, ?_, ?_⟩
          · cases limits <;> cases states <;> simp_all
          · rw [limits_zipWith name hlen.1]
          · rw [states_zipWith name hlen.1]
      · rintro ⟨rfl, hne, rfl, rfl⟩
        rw [if_neg (by simpa [Rule.limits, Rule.states] using hne)]
        simp [Rule.limits, Rule.states]

/-- The fields that declare a rule. -/
def fields (r : Rule) : List (String × List Char) :=
  [(limitHeader r.name, Window.listing r.limits), (stateHeader r.name, Window.listing r.states)]

end Rule

/-- Windows make the name of a policy, where the name of one is no shorter. -/
theorem policyNameFault?_listing {ws : List Window} (hne : ws ≠ []) {name : PolicyName}
    (hle : (Window.listing ws).length ≤ name.text.toList.length) :
    policyNameFault? (String.ofList (Window.listing ws)) = none := by
  have hname := name.sound
  unfold policyNameFault? at hname ⊢
  split at hname
  next => cases hname
  next =>
    split at hname
    next => cases hname
    next =>
      split at hname
      next => cases hname
      next hsize =>
        have hbytes := length_le_utf8Len name.text.toList
        rw [String.utf8Len_toList] at hbytes
        rw [if_neg (by simpa using Window.listing_ne_nil hne), if_neg, if_neg]
        · rw [String.utf8ByteSize_ofList, utf8Len_of_visible fun _ => visible_of_mem_listing]
          omega
        · simpa using fun _ => Window.isBlank_of_mem_listing

/-! ### Names of headers -/

theorem isSome_policyHeader : (HeaderName.ofString? policyHeader).isSome = true := by decide

theorem isSome_rulesHeader : (HeaderName.ofString? rulesHeader).isSome = true := by decide

theorem lowercase_policyHeader_ne : lowercase policyHeader ≠ lowercase rulesHeader := by decide

theorem lowercase_limitHeader (rule : String) :
    lowercase (limitHeader rule) = limitHeader rule := by
  rw [limitHeader, lowercase_append, lowercase_lowercase]
  rfl

theorem lowercase_stateHeader (rule : String) :
    lowercase (stateHeader rule) = stateHeader rule := by
  rw [stateHeader, lowercase_append, ← limitHeader, lowercase_limitHeader]
  rfl

theorem lowercase_field {rules : List Rule} {f : String × List Char}
    (hf : f ∈ rules.flatMap Rule.fields) : lowercase f.1 = f.1 := by
  obtain ⟨r, -, hf⟩ := List.mem_flatMap.1 hf
  rcases List.mem_pair.1 hf with rfl | rfl
  · exact lowercase_limitHeader r.name
  · exact lowercase_stateHeader r.name

/-- Which rule has its limits in a header that starts as theirs do. -/
theorem limitHeader_eq_append_iff {rule ending : String} :
    limitHeader rule = rateLimitStem ++ ending ↔ lowercase rule = ending :=
  String.append_right_inj rateLimitStem

/-- No rule has its states in a header whose name is that short. -/
theorem stateHeader_ne_append {rule : String} (ending : String) (hne : rule.toList ≠ [])
    (hle : ending.toList.length ≤ 6) : stateHeader rule ≠ rateLimitStem ++ ending := by
  intro h
  rw [stateHeader, String.append_assoc, String.append_right_inj] at h
  have hlen := congrArg (·.toList.length) h
  have hpos := List.length_pos_iff.2 hne
  have hstate : "-state".toList.length = 6 := rfl
  simp only [String.toList_append, List.length_append, length_lowercase, hstate] at hlen
  omega

namespace Policy

/-- What headers hold that declare a policy. -/
structure Declares (h : Headers) (p : Policy) : Prop where
  name : policyText? h = some p.name.text.toList
  names : ∃ raw, textAt h rulesHeader = some raw ∧
    listed (trim raw) = p.rules.map (·.name.toList)
  rules : ∀ r ∈ p.rules, Rule.ofHeaders? r.name h = .ok r
  ne_nil : p.rules ≠ []
  status : p.status = (ofRules p.name p.rules).status

theorem eq_ofRules {p : Policy} (h : p.status = (ofRules p.name p.rules).status) :
    p = ofRules p.name p.rules := by
  cases p
  simp only [ofRules] at h ⊢
  rw [h]

theorem ofHeaders?_eq_ok_iff {h : Headers} {p : Policy} :
    ofHeaders? h = .ok p ↔ Declares h p := by
  constructor
  · intro hp
    unfold ofHeaders? at hp
    split at hp
    next => cases hp
    next text ht =>
      split at hp
      next => cases hp
      next name hn =>
        have htext := PolicyName.text_ofString? hn
        cases hr : required h rulesHeader with
        | error e => simp [hr, bind, Except.bind] at hp
        | ok cs =>
          cases hm : (listed cs).mapM fun r => Rule.ofHeaders? (String.ofList r) h with
          | error e => simp [hr, hm, bind, Except.bind] at hp
          | ok rules =>
            simp only [hr, hm, bind, Except.bind] at hp
            split at hp
            next => cases hp
            next hne =>
              cases hp
              obtain ⟨raw, hraw, rfl⟩ := required_eq_ok_iff.1 hr
              have hread : List.Forall₂ (fun r t => Rule.ofHeaders? r.name h = .ok r ∧
                  r.name.toList = t) rules (listed (trim raw)) := by
                refine (mapM_eq_ok_iff.1 hm).flip.imp fun r t hr => ?_
                have hname := (Rule.ofHeaders?_eq_ok_iff.1 hr).1
                exact ⟨hname ▸ hr, by rw [hname, String.toList_ofList]⟩
              obtain ⟨hrules, hnames⟩ := (List.forall₂_and_left _ _).1 hread
              rw [← List.forall₂_map_left_iff, List.forall₂_eq_eq_eq] at hnames
              exact {
                name := by rw [ht, ofRules, htext, String.toList_ofList]
                names := ⟨raw, hraw, hnames.symm⟩
                rules := hrules
                ne_nil := hne
                status := rfl }
  · rintro ⟨hname, ⟨raw, hraw, hnames⟩, hrules, hne, hstatus⟩
    have hm : (listed (trim raw)).mapM (fun r => Rule.ofHeaders? (String.ofList r) h) =
        .ok p.rules := by
      rw [hnames, mapM_eq_ok_iff, List.forall₂_map_left_iff]
      refine List.forall₂_same.2 fun r hr => ?_
      rw [String.ofList_toList]
      exact hrules r hr
    have hn : PolicyName.ofString? (String.ofList p.name.text.toList) = .ok p.name := by
      rw [String.ofList_toList, PolicyName.ofString?_text]
    unfold ofHeaders?
    simp only [hname, hn, required_eq_ok_iff.2 ⟨raw, hraw, rfl⟩, hm, bind, Except.bind, if_neg hne]
    rw [← eq_ofRules hstatus]

/-- The fields that name a policy and its rules. -/
def naming (p : Policy) : List (String × List Char) :=
  [(policyHeader, p.name.text.toList), (rulesHeader, commaSeparated (p.rules.map (·.name.toList)))]

theorem toHeaders_eq_putAll (p : Policy) :
    p.toHeaders = putAll (putAll Headers.empty p.naming) (p.rules.flatMap Rule.fields) := by
  have hrule (h : Headers) (r : Rule) : putRule h r = putAll h r.fields := by
    simp [putRule, putAll, Rule.fields, Window.listing, Rule.limits, Rule.states,
      Function.comp_def]
  have hfold (rules : List Rule) (h : Headers) :
      rules.foldl putRule h = putAll h (rules.flatMap Rule.fields) := by
    induction rules generalizing h with
    | nil => rfl
    | cons r rules ih => rw [List.foldl_cons, ih, hrule, List.flatMap_cons, putAll_append]
  exact hfold p.rules _

namespace Declares

variable {h : Headers} {p : Policy}

/-- The name of a rule was read from the list of rules. -/
theorem mem_listed (hp : Declares h p) {r : Rule} (hr : r ∈ p.rules) :
    ∃ raw, textAt h rulesHeader = some raw ∧ r.name.toList ∈ listed (trim raw) := by
  obtain ⟨raw, hraw, hnames⟩ := hp.names
  exact ⟨raw, hraw, hnames ▸ List.mem_map_of_mem hr⟩

theorem element_name (hp : Declares h p) {r : Rule} (hr : r ∈ p.rules) :
    Element r.name.toList := by
  obtain ⟨raw, -, hm⟩ := hp.mem_listed hr
  exact element_of_mem_listed hm

/-- What a field of a rule says was read from the header that it is written to. -/
theorem windows_field (hp : Declares h p) {f : String × List Char}
    (hf : f ∈ p.rules.flatMap Rule.fields) :
    ∃ ws, ws ≠ [] ∧ f.2 = Window.listing ws ∧ windows h f.1 = .ok ws := by
  obtain ⟨r, hr, hf⟩ := List.mem_flatMap.1 hf
  obtain ⟨-, hne, hl, hs⟩ := Rule.ofHeaders?_eq_ok_iff.1 (hp.rules r hr)
  rcases List.mem_pair.1 hf with rfl | rfl
  · exact ⟨r.limits, by simpa [Rule.limits] using hne, rfl, hl⟩
  · exact ⟨r.states, by simpa [Rule.states] using hne, rfl, hs⟩

theorem writable_field (hp : Declares h p) {f : String × List Char}
    (hf : f ∈ p.rules.flatMap Rule.fields) : Writable f := by
  obtain ⟨ws, -, ht, hw⟩ := hp.windows_field hf
  obtain ⟨raw, hraw, -⟩ := windows_eq_ok_iff.1 hw
  exact ⟨isSome_of_textAt hraw, ht ▸ fun _ => visible_of_mem_listing⟩

/-- Whichever rule writes a header last, what stands there reads to the windows that were read
from it. -/
theorem textAt_toHeaders (hp : Declares h p) {f : String × List Char}
    (hf : f ∈ p.rules.flatMap Rule.fields) :
    ∃ ws, ws ≠ [] ∧ textAt p.toHeaders f.1 = some (Window.listing ws) ∧ windows h f.1 = .ok ws := by
  obtain ⟨g, hg, hgf, ht⟩ := textAt_putAll_of_mem (putAll Headers.empty p.naming)
    (fun _ => lowercase_field) (fun _ => hp.writable_field) hf
  obtain ⟨ws, hne, hws, hw⟩ := hp.windows_field hg
  exact ⟨ws, hne, by rw [toHeaders_eq_putAll, ht, hws], hgf ▸ hw⟩

theorem windows_toHeaders (hp : Declares h p) {f : String × List Char}
    (hf : f ∈ p.rules.flatMap Rule.fields) : windows p.toHeaders f.1 = windows h f.1 := by
  obtain ⟨ws, -, ht, hw⟩ := hp.textAt_toHeaders hf
  rw [hw, windows_of_textAt_listing ht]

theorem rule_toHeaders (hp : Declares h p) {r : Rule} (hr : r ∈ p.rules) :
    Rule.ofHeaders? r.name p.toHeaders = .ok r := by
  have hread := Rule.ofHeaders?_eq_ok_iff.1 (hp.rules r hr)
  have hl := hp.windows_toHeaders (List.mem_flatMap.2 ⟨r, hr, List.mem_cons_self⟩)
  have hs := hp.windows_toHeaders
    (List.mem_flatMap.2 ⟨r, hr, List.mem_cons_of_mem _ List.mem_cons_self⟩)
  exact Rule.ofHeaders?_eq_ok_iff.2 ⟨rfl, hread.2.1, hl.trans hread.2.2.1, hs.trans hread.2.2.2⟩

/-- No field of a rule is written over the list of rules. -/
theorem ne_rulesHeader (hp : Declares h p) {f : String × List Char}
    (hf : f ∈ p.rules.flatMap Rule.fields) : f.1 ≠ rulesHeader := by
  intro he
  obtain ⟨ws, -, -, hw⟩ := hp.windows_field hf
  obtain ⟨r, hr, hfr⟩ := List.mem_flatMap.1 hf
  obtain ⟨raw, hraw, hm⟩ := hp.mem_listed hr
  rcases List.mem_pair.1 hfr with rfl | rfl
  · -- the rule is named `rules`, so its own name would be one of its windows
    have hname : lowercase r.name = "rules" := limitHeader_eq_append_iff.1 he
    rw [he, windows_eq_ok_iff] at hw
    obtain ⟨raw', hraw', hread⟩ := hw
    obtain rfl : raw = raw' := Option.some.inj (hraw.symm.trans hraw')
    obtain ⟨w, hw⟩ := exists_ok_of_mapM hread hm
    have hcolon : ':' ∈ (lowercase r.name).toList := by
      rw [lowercase, String.toList_ofList]
      exact List.mem_map.2 ⟨':', Window.colon_mem_of_ofChars? hw, rfl⟩
    rw [hname] at hcolon
    exact absurd hcolon (by decide)
  · exact stateHeader_ne_append "rules" (hp.element_name hr).ne_nil (by decide) he

theorem writable_naming (hp : Declares h p) : ∀ f ∈ p.naming, Writable f := by
  intro f hf
  rcases List.mem_pair.1 hf with rfl | rfl
  · obtain ⟨raw, hraw, htrim, -⟩ := policyText?_eq_some_iff.1 hp.name
    refine ⟨isSome_policyHeader, fun c hc => ?_⟩
    exact visible_of_textAt hraw c (mem_of_mem_trim (htrim ▸ hc))
  · obtain ⟨raw, hraw, hnames⟩ := hp.names
    refine ⟨isSome_rulesHeader, fun c hc => ?_⟩
    rcases mem_commaSeparated hc with rfl | ⟨t, ht, hc⟩
    · exact .inr (by decide)
    · exact visible_of_textAt hraw c (mem_of_mem_trim (mem_of_mem_listed (hnames ▸ ht) hc))

/-- A header that no rule writes is as the naming of the policy left it. -/
theorem textAt_toHeaders_of_ne {name : String} (hlow : lowercase name = name)
    (hne : ∀ f ∈ p.rules.flatMap Rule.fields, f.1 ≠ name) :
    textAt p.toHeaders name = textAt (putAll Headers.empty p.naming) name := by
  rw [toHeaders_eq_putAll, textAt_putAll_of_notMem]
  intro f hf he
  exact hne f hf (by rw [← lowercase_field hf, ← he, hlow])

theorem names_toHeaders (hp : Declares h p) :
    ∃ raw, textAt p.toHeaders rulesHeader = some raw ∧
      listed (trim raw) = p.rules.map (·.name.toList) := by
  have hel : ∀ t ∈ p.rules.map (·.name.toList), Element t := by
    simpa using fun r hr => hp.element_name hr
  refine ⟨commaSeparated (p.rules.map (·.name.toList)), ?_, ?_⟩
  · rw [textAt_toHeaders_of_ne rfl fun _ => hp.ne_rulesHeader]
    exact textAt_put_same _ (hp.writable_naming _ (List.mem_cons_of_mem _ List.mem_cons_self))
  · rw [(trimmed_commaSeparated hel).trim_eq_self, listed_commaSeparated hel]

/-- The policy is named in what it writes: by its name, or by the limits of a rule that is named
as the header is. -/
theorem name_toHeaders (hp : Declares h p) :
    ∃ name : PolicyName, policyText? p.toHeaders = some name.text.toList ∧
      ((∀ r ∈ p.rules, lowercase r.name ≠ "policy") → name = p.name) := by
  obtain ⟨raw, hraw, htrim, hne⟩ := policyText?_eq_some_iff.1 hp.name
  by_cases hkept : ∀ f ∈ p.rules.flatMap Rule.fields, f.1 ≠ policyHeader
  · refine ⟨p.name, policyText?_eq_some_iff.2 ⟨p.name.text.toList, ?_, ?_, hne⟩, fun _ => rfl⟩
    · rw [textAt_toHeaders_of_ne rfl hkept, naming, putAll, List.foldl_cons, List.foldl_cons,
        List.foldl_nil, textAt_put_other _ _ lowercase_policyHeader_ne]
      exact textAt_put_same _ (hp.writable_naming _ List.mem_cons_self)
    · rw [← htrim, (trimmed_trim raw).trim_eq_self]
  · push Not at hkept
    obtain ⟨f, hf, he⟩ := hkept
    obtain ⟨ws, hws, ht, hw⟩ := hp.textAt_toHeaders hf
    rw [he] at ht hw
    -- the limits were read from the name of the policy, so they are no longer than it
    have hlen : (Window.listing ws).length ≤ p.name.text.toList.length := by
      obtain ⟨raw', hraw', hread⟩ := windows_eq_ok_iff.1 hw
      obtain rfl : raw = raw' := Option.some.inj (hraw.symm.trans hraw')
      exact htrim ▸ Window.length_listing_le hws hread
    refine ⟨⟨String.ofList (Window.listing ws), policyNameFault?_listing hws hlen⟩, ?_, ?_⟩
    · rw [String.toList_ofList]
      exact policyText?_eq_some_iff.2 ⟨_, ht, Window.trim_listing ws, Window.listing_ne_nil hws⟩
    · intro hno
      obtain ⟨r, hr, hf⟩ := List.mem_flatMap.1 hf
      rcases List.mem_pair.1 hf with rfl | rfl
      · exact absurd (limitHeader_eq_append_iff.1 he) (hno r hr)
      · exact absurd he (stateHeader_ne_append "policy" (hp.element_name hr).ne_nil (by decide))

/-- What a policy writes declares its rules again. -/
theorem toHeaders (hp : Declares h p) :
    ∃ name, Declares p.toHeaders (ofRules name p.rules) ∧
      ((∀ r ∈ p.rules, lowercase r.name ≠ "policy") → name = p.name) := by
  obtain ⟨name, hname, hkept⟩ := hp.name_toHeaders
  refine ⟨name, ?_, hkept⟩
  exact {
    name := hname
    names := hp.names_toHeaders
    rules := fun _ => hp.rule_toHeaders
    ne_nil := hp.ne_nil
    status := rfl }

end Declares

/-- A policy that was read from headers writes headers that are read again, to the same rules, the
same status and the same maximum of hits; and to the same policy, unless a rule is named `policy`,
whose limits are written to the header that names the policy. -/
theorem ofHeaders?_toHeaders {h : Headers} {p : Policy} (hp : ofHeaders? h = .ok p) :
    ∃ q, ofHeaders? p.toHeaders = .ok q ∧ q.rules = p.rules ∧ q.status = p.status ∧
      q.maximumHits = p.maximumHits ∧
      ((∀ r ∈ p.rules, lowercase r.name ≠ "policy") → q = p) := by
  have hd := ofHeaders?_eq_ok_iff.1 hp
  obtain ⟨name, hname, hkept⟩ := hd.toHeaders
  refine ⟨ofRules name p.rules, ofHeaders?_eq_ok_iff.2 hname, rfl, hd.status.symm, rfl, ?_⟩
  intro hno
  rw [hkept hno, ← eq_ofRules hd.status]

/-- Headers of a policy with two rules that differ in case only, and with a rule named `policy`, so
that the name of the policy is a window, and written with a sign and a leading zero. -/
def crowdedHeaders : Headers :=
  let field (name text : String) : HeaderName × List HeaderValue :=
    (⟨name⟩, [⟨text.toList.map fun c => UInt8.ofNat c.toNat, false⟩])
  ⟨[field "x-rate-limit-policy" " +5:10:060", field "x-rate-limit-rules" "Policy,, ip , IP",
    field "x-rate-limit-policy-state" "1:10:0",
    field "x-rate-limit-ip" "8:10:60 ,, 030:300:1800",
    field "x-rate-limit-ip-state" "7:10:0,3:300:0"]⟩

def crowdedPolicy : Policy :=
  let shared : List Item := [⟨⟨8, 10, 60⟩, ⟨7, 10, 0⟩⟩, ⟨⟨30, 300, 1800⟩, ⟨3, 300, 0⟩⟩]
  ofRules ⟨"+5:10:060", by decide⟩
    [⟨"Policy", [⟨⟨5, 10, 60⟩, ⟨1, 10, 0⟩⟩]⟩, ⟨"ip", shared⟩, ⟨"IP", shared⟩]

theorem ofHeaders?_toHeaders_crowded :
    ofHeaders? crowdedHeaders = .ok crowdedPolicy ∧
      ∃ q, ofHeaders? crowdedPolicy.toHeaders = .ok q ∧ q.rules = crowdedPolicy.rules ∧
        q.status = crowdedPolicy.status ∧ q.maximumHits = crowdedPolicy.maximumHits ∧
        ((∀ r ∈ crowdedPolicy.rules, lowercase r.name ≠ "policy") → q = crowdedPolicy) := by
  have h : ofHeaders? crowdedHeaders = .ok crowdedPolicy := by decide +kernel
  exact ⟨h, ofHeaders?_toHeaders h⟩

end Policy

end Throttle
