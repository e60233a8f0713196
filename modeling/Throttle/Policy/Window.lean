import Throttle.Identifier
import Throttle.Text.Numeral
import Throttle.Time.Moment

/-!
Rate limit windows, written `hits:period:restriction`, and the faults that rate limit headers can
have. `Window.ofChars?` reads what `Window.chars` writes.
-/

namespace Throttle

/-- One declared limit, or the server's count against it. Times are in seconds. -/
structure Window where
  /-- The most hits of a limit; the hits so far of a state. -/
  hits : UInt32
  /-- How far back the hits count. -/
  period : UInt32
  /-- The penalty of a limit; what is left of it in a state. -/
  restriction : UInt32
  deriving DecidableEq, Repr

namespace Window

/-- The written form of a window. -/
def chars (w : Window) : List Char :=
  Text.decimal w.hits.toNat ++ ':' :: Text.decimal w.period.toNat ++
    ':' :: Text.decimal w.restriction.toNat

def render (w : Window) : String := String.ofList w.chars

def periodDelay (w : Window) : Delay := Delay.ofSeconds w.period.toNat

def restrictionDelay (w : Window) : Delay := Delay.ofSeconds w.restriction.toNat

end Window

/-- What is wrong with the rate limit headers of a reply. -/
inductive PolicyError where
  | missingHeader (name : String)
  | nonTextHeader (name : String)
  | invalidItem (fragment : String)
  | itemCountMismatch (rule : String) (limits states : Nat)
  | periodMismatch (rule : String) (index : Nat) (limit state : Window)
  | noRules
  | invalidName (cause : IdentifierError)
  deriving DecidableEq, Repr

namespace PolicyError

def quoted (s : String) : String := String.ofList ('`' :: s.toList ++ ['`'])

def message : PolicyError → String
  | missingHeader name => "Missing rate limit header " ++ quoted name ++ "."
  | nonTextHeader name => "Rate limit header " ++ quoted name ++ " is not valid text."
  | invalidItem fragment =>
    "Rate limit item " ++ quoted fragment ++ " is not a hits:period:restriction triple."
  | itemCountMismatch rule limits states =>
    "Rule " ++ quoted rule ++ " has " ++ toString limits ++ " limit items but " ++
      toString states ++ " state items."
  | periodMismatch rule index limit state =>
    "Rule " ++ quoted rule ++ " item " ++ toString index ++ " pairs limit " ++
      quoted limit.render ++ " with state " ++ quoted state.render ++ "."
  | noRules => "Rate limit policy lists no rules."
  | invalidName _ => "Rate limit policy name is invalid."

end PolicyError

namespace Window

/-- Reads a window: three numbers between colons, each with blanks around it allowed. -/
def ofChars? (cs : List Char) : Except PolicyError Window :=
  match (Text.pieces ':' (Text.trim cs)).map fun p => Text.word32? (Text.trim p) with
  | [some hits, some period, some restriction] => .ok ⟨hits, period, restriction⟩
  | _ => .error (.invalidItem (String.ofList cs))

end Window

end Throttle
