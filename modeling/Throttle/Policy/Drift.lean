import Throttle.Policy.Basic

/-!
What changed between two versions of a policy: names, counts and limits, position by position.
States and statuses change with every reply and are no drift.
-/

namespace Throttle

/-- One difference between an earlier policy and a later one. -/
inductive Drift where
  | renamed (before after : String)
  | ruleCount (before after : Nat)
  | ruleRenamed (before after : String)
  | itemCount (rule : String) (before after : Nat)
  | limit (rule : String) (index : Nat) (before after : Window)
  deriving DecidableEq, Repr

namespace Drift

def describe : Drift → String
  | renamed a b =>
    "policy renamed from " ++ PolicyError.quoted a ++ " to " ++ PolicyError.quoted b
  | ruleCount a b => "rule count went from " ++ toString a ++ " to " ++ toString b
  | ruleRenamed a b => "rule " ++ PolicyError.quoted a ++ " renamed to " ++ PolicyError.quoted b
  | itemCount r a b =>
    "rule " ++ PolicyError.quoted r ++ " went from " ++ toString a ++ " to " ++ toString b ++
      " items"
  | limit r i a b =>
    "rule " ++ PolicyError.quoted r ++ " item #" ++ toString i ++ " limit changed from " ++
      a.render ++ " to " ++ b.render

/-- The limits that differ, of two lists of items of one length. -/
def ofItems (rule : String) (index : Nat) : List Item → List Item → List Drift
  | a :: as, b :: bs =>
    (if a.limit = b.limit then [] else [limit rule index a.limit b.limit]) ++
      ofItems rule (index + 1) as bs
  | _, _ => []

/-- The differences between two rules at one position. -/
def ofRule (a b : Rule) : List Drift :=
  (if a.name = b.name then [] else [ruleRenamed a.name b.name]) ++
    if a.items.length = b.items.length then ofItems b.name 0 a.items b.items
    else [itemCount b.name a.items.length b.items.length]

def ofRules : List Rule → List Rule → List Drift
  | a :: as, b :: bs => ofRule a b ++ ofRules as bs
  | _, _ => []

end Drift

namespace Policy

/-- The differences from an earlier policy to this one. -/
def driftFrom (current previous : Policy) : List Drift :=
  (if previous.name = current.name then []
    else [.renamed previous.name.text current.name.text]) ++
    if previous.rules.length = current.rules.length then Drift.ofRules previous.rules current.rules
    else [.ruleCount previous.rules.length current.rules.length]

end Policy

end Throttle
