import TaskBoard.Instant.Print
import TaskBoard.Text.Blank

/-!
# Reading an instant

A relaxed RFC 3339: a year of one to four digits, or signed with any number of digits; one or two
digits for the other numbers; blanks around the numbers; an offset that is `UTC`, `Z` or a sign
with hours and minutes. Each number is checked against its own range when it is read. The date as
a whole, the offset's hours and the range of years are checked last, after the end of the text.
-/

namespace TaskBoard.Instant

open Text

/-- Why a text is no instant. -/
inductive ReadError where
  /-- The text ends too early. -/
  | tooShort
  /-- A character cannot stand where it does. -/
  | invalid
  /-- A number is not in its range, or the date does not exist. -/
  | outOfRange
  /-- Something follows the offset. -/
  | trailing
  /-- In UTC the instant leaves the range of years. -/
  | impossible
deriving DecidableEq, Repr

/-- The wording of a reading error. -/
def ReadError.message : ReadError → String
  | tooShort => "premature end of input"
  | invalid => "input contains invalid characters"
  | outOfRange => "input is out of range"
  | trailing => "trailing input"
  | impossible => "no possible date and time matching input"

/-- A step that takes something off the front of a text. -/
abbrev Scan (α : Type) := List Char → Except ReadError (α × List Char)

/-- One or more digits, at most `most` of them, as a number. -/
def scanDigits (most : Nat) : Scan Nat := fun cs =>
  match cs with
  | [] => .error .tooShort
  | c :: _ =>
    if isDigit c then
      let ds := (cs.take most).takeWhile isDigit
      .ok ((readDigits 0 ds).getD 0, cs.drop ds.length)
    else .error .invalid

/-- A number of at most two digits between `low` and `high`, with blanks before it. -/
def scanNumber (low high : Nat) : Scan Nat := fun cs => do
  let (n, cs) ← scanDigits 2 (trimLeft cs)
  if low ≤ n ∧ n ≤ high then .ok (n, cs) else .error .outOfRange

/-- A year, with blanks before it. A signed year may have any number of digits; it has to fit 32
bits. -/
def scanYear : Scan Int := fun cs =>
  let inRange (y : Int) (cs : List Char) : Except ReadError (Int × List Char) :=
    if -2147483648 ≤ y ∧ y ≤ 2147483647 then .ok (y, cs) else .error .outOfRange
  match trimLeft cs with
  | '-' :: cs => do
    let (n, cs) ← scanDigits cs.length cs
    inRange (-(n : Int)) cs
  | '+' :: cs => do
    let (n, cs) ← scanDigits cs.length cs
    inRange n cs
  | cs => do
    let (n, cs) ← scanDigits 4 cs
    inRange n cs

/-- The character `c`, with blanks before it. -/
def scanMark (c : Char) (cs : List Char) : Except ReadError (List Char) :=
  match trimLeft cs with
  | [] => .error .tooShort
  | d :: cs => if d = c then .ok cs else .error .invalid

/-- The separator of date and time: `T` of either case or a space. -/
def scanSeparator : List Char → Except ReadError (List Char)
  | [] => .error .tooShort
  | c :: cs => if c = 'T' ∨ c = 't' ∨ c = ' ' then .ok cs else .error .invalid

/-- An optional fraction of a second in nanoseconds; digits after the ninth are dropped. -/
def scanFraction : Scan Nat
  | '.' :: cs => do
    let (n, after) ← scanDigits 9 cs
    .ok (n * Nat.pow 10 (9 - (cs.length - after.length)), after.dropWhile isDigit)
  | cs => .ok (0, cs)

/-- Exactly two digits. Whether the text is too short is decided on its UTF-8 length. -/
def scanPair : Scan (Nat × Nat)
  | [] => .error .tooShort
  | [c] => if c.utf8Size < 2 then .error .tooShort else .error .invalid
  | c :: d :: cs =>
    match digitValue? c, digitValue? d with
    | some a, some b => .ok ((a, b), cs)
    | _, _ => .error .invalid

/-- A signed offset's seconds: two digits, any colons and blanks, two digits. -/
def scanHoursMinutes (cs : List Char) : Except ReadError (Nat × List Char) := do
  let ((h, i), cs) ← scanPair cs
  let ((m, n), cs) ← scanPair (cs.dropWhile fun c => c = ':' || isBlank c)
  if m < 6 then .ok (((h * 10 + i) * 60 + m * 10 + n) * 60, cs) else .error .outOfRange

/-- Whether `c` is the letter `lower` or `upper`. -/
private def either (lower upper c : Char) : Bool := c == lower || c == upper

/-- An offset from UTC in seconds: `UTC` or `Z` in any case, or a sign, hours and minutes. -/
def scanOffset : Scan Int := fun cs =>
  match cs with
  | [] => .error .tooShort
  | c :: cs =>
    if either 'u' 'U' c ∧ cs.head?.any (either 't' 'T') ∧ cs[1]?.any (either 'c' 'C') then
      .ok (0, cs.drop 2)
    else if either 'z' 'Z' c then .ok (0, cs)
    else if c = '+' then (scanHoursMinutes cs).map fun (n, cs) => ((n : Int), cs)
    else if c = '-' ∨ c = '\u2212' then (scanHoursMinutes cs).map fun (n, cs) => (-(n : Int), cs)
    else .error .invalid

/-- What a text says before it is looked up in the calendar. -/
structure Reading where
  date : Date
  hour : Nat
  minute : Nat
  second : Nat
  nanos : Nat
  /-- Seconds east of UTC. -/
  offset : Int
deriving DecidableEq, Repr

/-- The parts of a text, in order, and the end of the text. -/
def scan (cs : List Char) : Except ReadError Reading := do
  let (year, cs) ← scanYear cs
  let cs ← scanMark '-' cs
  let (month, cs) ← scanNumber 1 12 cs
  let cs ← scanMark '-' cs
  let (day, cs) ← scanNumber 1 31 cs
  let cs ← scanSeparator cs
  let (hour, cs) ← scanNumber 0 23 cs
  let cs ← scanMark ':' cs
  let (minute, cs) ← scanNumber 0 59 cs
  let cs ← scanMark ':' cs
  let (second, cs) ← scanNumber 0 60 cs
  let (nanos, cs) ← scanFraction cs
  let (offset, cs) ← scanOffset (trimLeft cs)
  if (trimLeft cs).isEmpty then .ok ⟨⟨year, month, day⟩, hour, minute, second, nanos, offset⟩
  else .error .trailing

/-- The instant a reading means. A second 60 is the leap second after second 59. -/
def Reading.toInstant (r : Reading) : Except ReadError Instant :=
  let localSecond := r.date.dayNumber * 86400 + ((r.hour * 60 + r.minute) * 60 + min r.second 59 : Nat)
  let nanos := if r.second = 60 then nanosPerSecond + r.nanos else r.nanos
  if r.date.isValid ∧ firstSecond ≤ localSecond ∧ localSecond ≤ lastSecond ∧ r.offset.natAbs < 86400 then
    match ofParts? (localSecond - r.offset) nanos with
    | some t => .ok t
    | none => .error .impossible
  else .error .outOfRange

/-- The instant that a text denotes. -/
def read (cs : List Char) : Except ReadError Instant := do
  let r ← scan cs
  r.toInstant

end TaskBoard.Instant
