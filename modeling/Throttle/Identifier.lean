import Throttle.Text.Blank

/-!
Names of endpoints and of the policies that govern them. A policy name travels in a header, so it
is a single word of at most 256 bytes; an endpoint is any text that is not empty.
-/

namespace Throttle

/-- What an identifier names. -/
inductive IdentifierKind where
  | endpoint
  | policy
  deriving DecidableEq, Repr

def IdentifierKind.label : IdentifierKind → String
  | endpoint => "Endpoint"
  | policy => "Policy"

/-- Why a text is no identifier. -/
inductive IdentifierError where
  | empty (kind : IdentifierKind)
  | containsBlank (kind : IdentifierKind)
  | tooLong (kind : IdentifierKind)
  deriving DecidableEq, Repr

/-- The most bytes a policy name may have. -/
def maximumNameBytes : Nat := 256

def IdentifierError.message : IdentifierError → String
  | empty k => k.label ++ " identifier cannot be empty."
  | containsBlank k => k.label ++ " identifier contains whitespace."
  | tooLong k => k.label ++ " identifier exceeds " ++ toString maximumNameBytes ++ " characters."

/-- A logical route of the server; the requests to one endpoint share one policy. -/
structure Endpoint where
  text : String
  nonempty : text.isEmpty = false
  deriving DecidableEq

namespace Endpoint

def ofString? (s : String) : Except IdentifierError Endpoint :=
  if h : s.isEmpty = false then .ok ⟨s, h⟩ else .error (.empty .endpoint)

def describe (e : Endpoint) : String := "Endpoint(" ++ e.text ++ ")"

end Endpoint

/-- What keeps a text from being a policy name; the first fault counts. -/
def policyNameFault? (s : String) : Option IdentifierError :=
  if s.isEmpty then some (.empty .policy)
  else if s.toList.any Text.isBlank then some (.containsBlank .policy)
  else if s.utf8ByteSize > maximumNameBytes then some (.tooLong .policy)
  else none

/-- The name of a policy that a server declares. -/
structure PolicyName where
  text : String
  sound : policyNameFault? text = none
  deriving DecidableEq

namespace PolicyName

def ofString? (s : String) : Except IdentifierError PolicyName :=
  match h : policyNameFault? s with
  | none => .ok ⟨s, h⟩
  | some e => .error e

def describe (p : PolicyName) : String := "Policy(" ++ p.text ++ ")"

theorem ofString?_text (p : PolicyName) : ofString? p.text = .ok p := by
  unfold ofString?
  split
  · rfl
  · rename_i e h
    rw [p.sound] at h
    cases h

theorem text_ofString? {s : String} {p : PolicyName} (h : ofString? s = .ok p) : p.text = s := by
  unfold ofString? at h
  split at h
  · injection h with h
    rw [← h]
  · cases h

end PolicyName

end Throttle
