import Throttle.Text.Composed
import Throttle.Text.Folding
import Throttle.Text.Punycode

/-!
Domains. A domain is looked up in ASCII: its letters are folded and composed, and a label with other
characters is written in Punycode after `xn--`.
-/

namespace Throttle.Http.Domain

/-- A folded label in ASCII. -/
def label (cs : List Char) : List Char :=
  if cs.all (·.toNat < 0x80) then cs else "xn--".toList ++ Text.Punycode.encode cs

def toAscii (cs : List Char) : List Char :=
  (((Text.pieces '.' (Text.composed (cs.flatMap Text.fold))).map label).intersperse ['.']).flatten

end Throttle.Http.Domain
