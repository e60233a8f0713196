import Throttle.Text.Composite
import Throttle.Text.Mark

/-!
The composed form of a text, which two spellings of one text have in common: composites are taken
apart, marks are put in the order of their classes, and what can be joined is joined again.
-/

namespace Throttle.Text

/-- A base and its marks; no composite holds more marks than `steps` has to allow. -/
def takeApart (steps : Nat) (c : Char) : List Char :=
  match steps with
  | 0 => [c]
  | n + 1 =>
    match split? c with
    | none => [c]
    | some (base, mark) => takeApart n base ++ [mark]

/-- Puts a character in front of a text, but behind marks of lower classes. -/
def place (c : Char) : List Char → List Char
  | [] => [c]
  | d :: ds =>
    if 0 < markClass d && markClass d < markClass c then d :: place c ds else c :: d :: ds

/-- Puts marks in the order of their classes; those of one class keep theirs. -/
def ordered (cs : List Char) : List Char := cs.foldr place []

/-- Joins a base with what follows; `waiting` holds the marks that could not be joined, the last one
first, and a mark waits behind one of its own class. -/
def joinFrom (base : Char) (waiting : List Char) : List Char → List Char
  | [] => base :: waiting.reverse
  | c :: cs =>
    let free := waiting.head?.all (markClass · < markClass c)
    match if free then join? base c else none with
    | some whole => joinFrom whole waiting cs
    | none =>
      if markClass c = 0 then base :: (waiting.reverse ++ joinFrom c [] cs)
      else joinFrom base (c :: waiting) cs

/-- The composed form of a text. -/
def composed (cs : List Char) : List Char :=
  match ordered (cs.flatMap (takeApart 4)) with
  | [] => []
  | c :: cs => joinFrom c [] cs

end Throttle.Text
