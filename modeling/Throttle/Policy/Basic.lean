import Throttle.Policy.Item

/-!
Policies: the named rules that a server declares, each a list of limits with their states. The
status of a policy is the most severe one among its items, unless it was marked as invalid.
-/

namespace Throttle

/-- A named group of limits. -/
structure Rule where
  name : String
  items : List Item
  deriving DecidableEq, Repr

namespace Rule

def status (r : Rule) : Status := Status.worst (r.items.map Item.status)

/-- The most hits that any limit of the rule allows. -/
def maximumHits (r : Rule) : Nat := (r.items.map fun i => i.limit.hits.toNat).foldr max 0

end Rule

/-- What a server declares about an endpoint, and how the current usage stands. -/
structure Policy where
  name : PolicyName
  rules : List Rule
  status : Status
  deriving DecidableEq

namespace Policy

/-- The policy with these rules, as severe as the worst of them. -/
def ofRules (name : PolicyName) (rules : List Rule) : Policy :=
  ⟨name, rules, Status.worst (rules.map Rule.status)⟩

/-- The policy of which only the name is known. -/
def unknown (name : PolicyName) : Policy := ⟨name, [], .unknown⟩

/-- The same rules, marked as not to be trusted. -/
def invalidated (p : Policy) : Policy := { p with status := .invalid }

/-- The most hits that any limit allows. -/
def maximumHits (p : Policy) : Nat := (p.rules.map Rule.maximumHits).foldr max 0

/-- Every item of every rule, in order. -/
def items (p : Policy) : List Item := p.rules.flatMap Rule.items

/-- The first item of a rule whose limit and state count over different periods. -/
def mismatchIn? (rule : String) (index : Nat) : List Item → Option PolicyError
  | [] => none
  | i :: rest =>
    if i.Consistent then mismatchIn? rule (index + 1) rest
    else some (.periodMismatch rule index i.limit i.state)

/-- The first mismatch of the whole policy. -/
def mismatch? (p : Policy) : Option PolicyError :=
  p.rules.findSome? fun r => mismatchIn? r.name 0 r.items

/-- The policy, if every state counts over the period of its limit. -/
def ensureConsistent (p : Policy) : Except PolicyError Policy :=
  match p.mismatch? with
  | some e => .error e
  | none => .ok p

/-- The penalty that a violated item asks for: what is left of it, or the declared one. -/
def penalty (i : Item) : Nat :=
  if i.state.restriction = 0 then i.limit.restriction.toNat else i.state.restriction.toNat

/-- The longest penalty among the violated items, in seconds. -/
def violationRestriction (p : Policy) : Option Nat :=
  ((p.items.filter fun i => i.status = .violation).map penalty).max?

/-- How long `count` requests take in the slowest item. -/
def estimate (p : Policy) (count : UInt32) (spacing : Delay) : Except Overflow Delay := do
  let each ← p.items.mapM fun i => i.estimate count spacing
  return each.foldr max 0

end Policy

end Throttle
