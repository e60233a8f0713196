import Throttle.Http.Header
import Throttle.Policy.Basic

/-!
Policies in reply headers. One header names the policy, one lists its rules, and each rule has a
header with its limits and one with their states, matched by position. `Policy.ofHeaders?` reads
them, `Policy.toHeaders` writes them.
-/

namespace Throttle

open Http

def policyHeader : String := "x-rate-limit-policy"

def rulesHeader : String := "x-rate-limit-rules"

def rateLimitStem : String := "x-rate-limit-"

/-- The header with the limits of a rule. -/
def limitHeader (rule : String) : String := rateLimitStem ++ lowercase rule

/-- The header with the states of a rule. -/
def stateHeader (rule : String) : String := rateLimitStem ++ lowercase rule ++ "-state"

/-- The policy that a reply names, if it names one. -/
def policyText? (h : Headers) : Option (List Char) :=
  match (h.get? policyHeader).bind HeaderValue.chars? with
  | none => none
  | some cs => if (Text.trim cs).isEmpty then none else some (Text.trim cs)

/-- A reply names a policy. -/
def namesPolicy (h : Headers) : Bool := (policyText? h).isSome

/-- Every rate limit header with its text, for diagnostics. -/
def rateLimitHeaders (h : Headers) : List (String × String) :=
  (h.toList.filter fun (n, _) => n.text.startsWith rateLimitStem).map fun (n, v) =>
    (n.text, Text.Utf8.decode v.octets)

/-- The trimmed text of a header that has to be there. -/
def required (h : Headers) (name : String) : Except PolicyError (List Char) :=
  match h.get? name with
  | none => .error (.missingHeader name)
  | some v =>
    match v.chars? with
    | none => .error (.nonTextHeader name)
    | some cs => .ok (Text.trim cs)

/-- The windows of a header, in order. -/
def windows (h : Headers) (name : String) : Except PolicyError (List Window) := do
  let cs ← required h name
  (Text.listed cs).mapM Window.ofChars?

/-- Reads a rule: its limits first, then its states, as many of one as of the other. -/
def Rule.ofHeaders? (name : String) (h : Headers) : Except PolicyError Rule := do
  let limits ← windows h (limitHeader name)
  let states ← windows h (stateHeader name)
  if limits.length ≠ states.length ∨ limits = [] then
    .error (.itemCountMismatch name limits.length states.length)
  else .ok ⟨name, List.zipWith Item.mk limits states⟩

namespace Policy

/-- Reads the policy that a reply declares. -/
def ofHeaders? (h : Headers) : Except PolicyError Policy :=
  match policyText? h with
  | none => .error (.missingHeader policyHeader)
  | some text =>
    match PolicyName.ofString? (String.ofList text) with
    | .error e => .error (.invalidName e)
    | .ok name => do
      let listed ← required h rulesHeader
      let rules ← (Text.listed listed).mapM fun r => Rule.ofHeaders? (String.ofList r) h
      if rules = [] then .error .noRules else .ok (ofRules name rules)

/-- The texts between commas. -/
def commaSeparated : List (List Char) → List Char
  | [] => []
  | [t] => t
  | t :: ts => t ++ ',' :: commaSeparated ts

/-- Sets a header, where name and text can stand in one. -/
def put (h : Headers) (name : String) (text : List Char) : Headers :=
  match HeaderName.ofString? name, HeaderValue.ofString? (String.ofList text) with
  | some n, some v => h.insert n v
  | _, _ => h

/-- Sets the headers of one rule. -/
def putRule (h : Headers) (r : Rule) : Headers :=
  put (put h (limitHeader r.name) (commaSeparated (r.items.map (·.limit.chars))))
    (stateHeader r.name) (commaSeparated (r.items.map (·.state.chars)))

/-- Writes the headers that declare a policy. -/
def toHeaders (p : Policy) : Headers :=
  let h := put Headers.empty policyHeader p.name.text.toList
  let h := put h rulesHeader (commaSeparated (p.rules.map (·.name.toList)))
  p.rules.foldl putRule h

end Policy

end Throttle
