import Throttle.Text.Blank
import Throttle.Time.Calendar

/-!
Dates as mail and web servers write them, such as `Sun, 06 Nov 1994 08:49:37 GMT`. Comments in
parentheses may stand between the parts, names are read in either case, and the day of the week is
not compared with the date.
-/

namespace Throttle.MailDate

/-- A date as written: the local date and time, and how far local time is ahead of UTC. -/
structure Stamp where
  date : Date
  time : TimeOfDay
  /-- In seconds; negative to the west. -/
  offset : Int
  deriving DecidableEq, Repr

namespace Stamp

def moment (s : Stamp) : Moment := Moment.ofDate s.date s.time - s.offset * 1000000000

end Stamp

/-- Where a reader stands between the parts of a date. -/
inductive Gap where
  /-- Between characters. -/
  | plain
  /-- After a carriage return. -/
  | foldReturn
  /-- After both characters of a line break, which a blank has to follow. -/
  | foldFeed
  /-- After a backslash in a comment. -/
  | escaped
  /-- In a run of characters that an unusual escape covers. -/
  | covered
  /-- In such a run, after a carriage return. -/
  | coveredReturn

def isSpace (c : Char) : Bool := c == ' ' || c == '\t'

/-- A carriage return before such a character counts as one blank. -/
def endsReturn (c : Char) : Bool := !isSpace c && c != '\r' && c != '\n'

def isCommentText (c : Char) : Bool :=
  let n := c.toNat
  (1 ≤ n && n ≤ 8) || n == 11 || n == 12 || (14 ≤ n && n ≤ 31) || n == 127 ||
    (33 ≤ n && n ≤ 39) || (42 ≤ n && n ≤ 91) || (93 ≤ n && n ≤ 126)

def isEscapable (c : Char) : Bool :=
  let n := c.toNat
  (1 ≤ n && n ≤ 9) || n == 11 || n == 12 || (14 ≤ n && n ≤ 127)

def isCoverable (c : Char) : Bool :=
  c != ')' && c != '\n' && c != '\r' && c.toNat < 128

/-- Comments nest less deep than this. -/
def depthLimit : Nat := 32

/-- What one character does to a reader between parts. -/
inductive Move where
  | on (gap : Gap) (depth : Nat)
  /-- The character belongs to the next part. -/
  | stop
  | refuse

/-- One character between parts, or `depth` comments deep. -/
def plainMove (depth : Nat) (c : Char) : Move :=
  if isSpace c then .on .plain depth
  else if c == '\r' then .on .foldReturn depth
  else if c == '(' then (if depth + 1 < depthLimit then .on .plain (depth + 1) else .refuse)
  else if depth == 0 then .stop
  else if c == ')' then .on .plain (depth - 1)
  else if c == '\\' then .on .escaped depth
  else if isCommentText c then .on .plain depth
  else .refuse

def move (gap : Gap) (depth : Nat) (c : Char) : Move :=
  match gap with
  | .plain => plainMove depth c
  | .foldReturn =>
    if c == '\n' then .on .foldFeed depth
    else if endsReturn c then plainMove depth c
    else .refuse
  | .foldFeed => if isSpace c then .on .plain depth else .refuse
  | .escaped =>
    if isEscapable c then .on .plain depth
    else if c == '\r' then .on .coveredReturn depth
    else if c.toNat < 128 then .on .covered depth
    else .refuse
  | .covered =>
    if c == '\r' then .on .coveredReturn depth
    else if c == '\n' || isCoverable c then .on .covered depth
    else plainMove depth c
  | .coveredReturn =>
    if c == '\r' then .on .coveredReturn depth
    else if isCoverable c then .on .covered depth
    else plainMove depth c

/-- Skips blanks, folds and comments. -/
def skipFrom (gap : Gap) (depth : Nat) : List Char → Option (List Char)
  | [] =>
    match gap, depth with
    | .plain, 0 => some []
    | _, _ => none
  | c :: cs =>
    match move gap depth c with
    | .on gap depth => skipFrom gap depth cs
    | .stop => some (c :: cs)
    | .refuse => none

/-- Skips what may stand between two parts. -/
def skip (cs : List Char) : Option (List Char) := skipFrom .plain 0 cs

/-- Skips what has to stand between two parts. -/
def separator (cs : List Char) : Option (List Char) :=
  (skip cs).filter fun rest => rest.length < cs.length

/-- Skips line breaks that blanks follow. -/
def skipFolds (fuel : Nat) (cs : List Char) : Option (List Char) :=
  match fuel, cs with
  | fuel + 1, '\r' :: '\n' :: c :: rest =>
    if isSpace c then skipFolds fuel (rest.dropWhile isSpace) else none
  | _, cs => some cs

/-- Skips blanks, which may be folded, or one fold, or one carriage return. -/
def whiteSpace (cs : List Char) : Option (List Char) :=
  match cs with
  | '\r' :: '\n' :: c :: rest => if isSpace c then some (rest.dropWhile isSpace) else none
  | '\r' :: c :: rest => if endsReturn c then some (c :: rest) else none
  | c :: rest => if isSpace c then skipFolds rest.length (rest.dropWhile isSpace) else none
  | [] => none

/-- A number of exactly `width` digits. -/
def number (width : Nat) (cs : List Char) : Option (Nat × List Char) :=
  let ds := cs.take width
  if ds.length = width then (Text.digits? ds).map fun n => (n, cs.drop width) else none

/-- One character. -/
def literal (c : Char) : List Char → Option (List Char)
  | d :: cs => if d = c then some cs else none
  | [] => none

/-- The first three characters, in lowercase. -/
def three (cs : List Char) : List Char := (cs.take 3).map Char.toLower

/-- Position of a name among names of three letters. -/
def named (names : List String) (cs : List Char) : Option (Nat × List Char) :=
  (names.findIdx? fun n => n.toList = three cs).map fun i => (i, cs.drop 3)

def weekdays : List String := ["mon", "tue", "wed", "thu", "fri", "sat", "sun"]

def months : List String :=
  ["jan", "feb", "mar", "apr", "may", "jun", "jul", "aug", "sep", "oct", "nov", "dec"]

/-- Zones with a name of three letters, in hours. -/
def zones : List (String × Int) :=
  [("gmt", 0), ("est", -5), ("edt", -4), ("cst", -6), ("cdt", -5), ("mst", -7), ("mdt", -6),
    ("pst", -8), ("pdt", -7)]

/-- The day of the week, if one is given; a comma has to follow it. -/
def weekday (cs : List Char) : Option (List Char) :=
  match named weekdays cs with
  | none => some cs
  | some (_, cs) => literal ',' cs >>= skip

/-- The day of the month, in one or two digits. -/
def dayOfMonth (cs : List Char) : Option (Nat × List Char) :=
  number 2 cs <|> number 1 cs

/-- The year in four digits with white space after it, or in two digits of the years from 1950 to
2049. -/
def year (cs : List Char) : Option (Nat × List Char) :=
  match (number 4 cs).filter fun (y, _) => 1900 ≤ y with
  | some (y, cs) => (whiteSpace cs).map fun cs => (y, cs)
  | none => do
    let (y, cs) ← number 2 cs
    let cs ← separator cs
    return (if y < 50 then 2000 + y else 1900 + y, cs)

/-- A colon with what may stand around it. -/
def colon (cs : List Char) : Option (List Char) :=
  skip cs >>= literal ':' >>= skip

/-- The seconds, if they are given. -/
def seconds (cs : List Char) : Option (Nat × List Char) :=
  match colon cs with
  | none => some (0, cs)
  | some cs => number 2 cs

/-- A zone in hours and minutes; the minutes take the sign that the hours have as a number. -/
def numericZone (negative : Bool) (cs : List Char) : Option (Int × List Char) := do
  let (h, cs) ← number 2 cs
  let (m, cs) ← number 2 cs
  if h ≤ 25 && m ≤ 59 then
    let size : Int := if negative && h == 0 then m * 60 else h * 3600 + m * 60
    return (if negative && h != 0 then -size else size, cs)
  else none

/-- The zone: hours and minutes, or a name. -/
def zone (cs : List Char) : Option (Int × List Char) :=
  match cs with
  | '+' :: cs => numericZone false cs
  | '-' :: cs => numericZone true cs
  | [c] => if c.isAlpha && c.toLower != 'j' then some (0, []) else none
  | [u, t] => if u.toLower == 'u' && t.toLower == 't' then some (0, []) else none
  | cs => (zones.find? fun (n, _) => n.toList = three cs).map fun (_, h) => (h * 3600, cs.drop 3)

/-- The stamp of the parts as read; a second of 60 needs the end of a month in UTC, and counts as
the last nanosecond before it. -/
def stamp? (date : Date) (hour minute second : Nat) (offset : Int) : Option Stamp :=
  let time : TimeOfDay :=
    if second = 60 then ⟨hour, minute, 59, 999999999⟩ else ⟨hour, minute, second, 0⟩
  let s : Stamp := ⟨date, time, offset⟩
  if ¬ (date.Valid ∧ hour < 24 ∧ minute < 60 ∧ second ≤ 60) then none
  else if second < 60 then some s
  else
    let d := s.moment.date
    let t := s.moment.timeOfDay
    if t.hour = 23 ∧ t.minute = 59 ∧ t.second = 59 ∧ d.day = Date.monthLength d.year d.month ∧
        d.year ≤ 9999 then some s
    else none

/-- Reads a date of mail. -/
def strict? (cs : List Char) : Option Stamp := do
  let cs ← skip cs
  let cs ← weekday cs
  let (day, cs) ← dayOfMonth cs
  let cs ← separator cs
  let (month, cs) ← named months cs
  let cs ← separator cs
  let (year, cs) ← year cs
  let (hour, cs) ← number 2 cs
  let cs ← colon cs
  let (minute, cs) ← number 2 cs
  let (second, cs) ← seconds cs
  let cs ← separator cs
  let (offset, cs) ← zone cs
  let cs ← skip cs
  if cs.isEmpty then stamp? ⟨year, month + 1, day⟩ hour minute second offset else none

/-- Replaces a final `GMT` by the zone it stands for. -/
def numericZoneFor (cs : List Char) : Option (List Char) :=
  let stem := cs.take (cs.length - 3)
  if cs.drop (cs.length - 3) = ['G', 'M', 'T'] then some (stem ++ ['+', '0', '0', '0', '0'])
  else none

/-- Reads a date of a reply. -/
def read? (cs : List Char) : Option Stamp :=
  let cs := Text.trim cs
  strict? cs <|> (numericZoneFor cs >>= strict?)

end Throttle.MailDate
