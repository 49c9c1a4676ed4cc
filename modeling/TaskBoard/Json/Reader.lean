import TaskBoard.Json.Error
import TaskBoard.Json.Number
import TaskBoard.Json.Skip

/-!
# Reading typed values

A `Reader` takes one value off the front of a list of tokens. Readers go through the text once and
the first thing wrong is the answer, so a value of the wrong type is reported even if the text
after it is malformed.

A `Record` describes an object with known members: they may come in any order, other members are
skipped, and a member given twice or not at all is an error. An array is read as a record too, its
elements being the members in the order of declaration.
-/

namespace TaskBoard.Json

/-- A step that takes a value off the front of the tokens. -/
abbrev Reader (α : Type) := List Token → Except Error (α × List Token)

/-- The value that a reader makes of a whole text. -/
def Reader.decode {α : Type} (read : Reader α) (text : List Text.Symbol) : Except Error α := do
  let (value, rest) ← read (tokens text)
  if rest.isEmpty then .ok value else .error .malformed

/-- An error for the wrong shape, right here. -/
def wrong (cause : Cause) : Error := .shape [] cause

/-- The error of a value that begins with `t` where something else is wanted. -/
def mismatch (wanted : Wanted) (t : Token) : Error :=
  let found (f : Found) : Error := wrong (.wrongType f wanted)
  match t with
  | .null => found .null
  | .bool b => found (.bool b)
  | .number spelling =>
    match Number.ofSpelling spelling with
    | .natural n => found (.natural n)
    | .negative n => found (.negative n)
    | .double f => found (.double (Number.layout.text f))
    | .tooLarge => .malformed
  | .string (some chars) => found (.string chars)
  | .openArray => found .sequence
  | .openObject => found .map
  | .string none | .closeArray | .closeObject | .colon | .comma | .junk => .malformed

/-- The error of a value that is not the one wanted, or of none. -/
def refuse {α : Type} (wanted : Wanted) : Reader α
  | [] => .error .malformed
  | t :: _ => .error (mismatch wanted t)

/-- A string. -/
def readString : Reader String
  | .string (some chars) :: ts => .ok (String.ofList chars, ts)
  | ts => refuse .string ts

/-- A boolean. -/
def readBool : Reader Bool
  | .bool b :: ts => .ok (b, ts)
  | ts => refuse .boolean ts

/-- An instant, as a string. -/
def readInstant : Reader Instant
  | .string (some chars) :: ts =>
    match Instant.read chars with
    | .ok t => .ok (t, ts)
    | .error e => .error (wrong (.badInstant e))
  | ts => refuse .instant ts

/-- An integer of 64 bits with sign. -/
def readInt64 : Reader Int64
  | .number spelling :: ts =>
    match Number.ofSpelling spelling with
    | .natural n =>
      if n < 9223372036854775808 then .ok (Int64.ofNat n, ts)
      else .error (wrong (.wrongValue (.natural n) .integer))
    | .negative n => .ok (Int64.ofInt (-(n : Int)), ts)
    | _ => refuse .integer (.number spelling :: ts)
  | ts => refuse .integer ts

/-- A value, or null for none. -/
def readOption {α : Type} (read : Reader α) : Reader (Option α)
  | .null :: ts => .ok (none, ts)
  | ts => (read ts).map fun (value, ts) => (some value, ts)

/-- An error of a reader, with one more step in front of its way. -/
def located {α : Type} (step : Step) (result : Except Error α) : Except Error α :=
  result.mapError (Error.within step)

/-- The elements of an array after its opening bracket and `index` elements, read so far in
reverse. The fuel bounds the number of elements. -/
def readElements {α : Type} (read : Reader α) : Nat → Nat → List α → Reader (List α)
  | 0, _, _, _ => .error .malformed
  | fuel + 1, index, values, ts => do
    let (value, ts) ← located (.element index) (read ts)
    match ts with
    | .comma :: ts => readElements read fuel (index + 1) (value :: values) ts
    | .closeArray :: ts => .ok ((value :: values).reverse, ts)
    | _ => .error .malformed

/-- An array of any length. -/
def readList {α : Type} (read : Reader α) : Reader (List α)
  | .openArray :: .closeArray :: ts => .ok ([], ts)
  | .openArray :: ts => readElements read ts.length 0 [] ts
  | ts => refuse .sequence ts

/-- A member of a record, whose parts are gathered in a value of type `σ`. -/
structure Member (σ : Type) where
  name : String
  /-- Whether the parts hold the member already. -/
  given : σ → Bool
  /-- Reads the member's value into the parts. -/
  read : σ → Reader σ
  /-- Whether an array may end before the member. -/
  optional : Bool

/-- A member whose value is put among the parts by `put`. -/
def Member.of {σ β : Type} (name : String) (read : Reader β) (get : σ → Option β)
    (put : σ → β → σ) (optional : Bool) : Member σ where
  name := name
  given s := (get s).isSome
  read s ts := (read ts).map fun (value, ts) => (put s value, ts)
  optional := optional

/-- How an object is read as a value of type `α`. -/
structure Record (σ α : Type) where
  name : String
  members : List (Member σ)
  /-- The parts before any member is read. -/
  start : σ
  /-- The value of the parts, or the name of the first member missing. -/
  finish : σ → Except String α

namespace Record

variable {σ α : Type}

/-- The value of all parts. -/
def close (r : Record σ α) (s : σ) : Except Error α :=
  match r.finish s with
  | .ok value => .ok value
  | .error name => .error (wrong (.missing name))

/-- The value of a member, after its key. -/
def readMember (r : Record σ α) (key : List Char) (s : σ) : Reader σ := fun ts =>
  match r.members.find? fun m => m.name.toList == key with
  | some m =>
    if m.given s then .error (wrong (.duplicate m.name))
    else
      match ts with
      | .colon :: ts => located (.member m.name) (m.read s ts)
      | _ => .error .malformed
  | none =>
    match ts with
    | .colon :: ts =>
      match skip ts with
      | some ts => .ok (s, ts)
      | none => .error .malformed
    | _ => .error .malformed

/-- The members from a key on, to the end of the object. The fuel bounds their number. -/
def readMembers (r : Record σ α) : Nat → σ → Reader σ
  | fuel + 1, s, .string (some key) :: ts => do
    let (s, ts) ← r.readMember key s ts
    match ts with
    | .comma :: ts => r.readMembers fuel s ts
    | .closeObject :: ts => .ok (s, ts)
    | _ => .error .malformed
  | _, _, _ => .error .malformed

/-- The elements of an array as the members from the one at `index` on. -/
def readPositions (r : Record σ α) : List (Member σ) → (index : Nat) → σ → Reader σ
  | [], _, s, ts =>
    match ts with
    | .closeArray :: ts => .ok (s, ts)
    | _ => .error .malformed
  | m :: ms, index, s, ts =>
    let here (ts : List Token) : Except Error (σ × List Token) := do
      let (s, ts) ← located (.element index) (m.read s ts)
      r.readPositions ms (index + 1) s ts
    match ts with
    | .closeArray :: _ =>
      if m.optional then r.readPositions ms (index + 1) s ts
      else .error (wrong (.wrongLength index r.name r.members.length))
    | .comma :: ts =>
      if index = 0 then .error .malformed
      else
        match ts with
        | .closeArray :: _ => .error .malformed
        | ts => here ts
    | ts => if index = 0 then here ts else .error .malformed

/-- A record, from an object or an array. -/
def read (r : Record σ α) : Reader α
  | .openObject :: .closeObject :: ts => (r.close r.start).map fun value => (value, ts)
  | .openObject :: ts => do
    let (s, ts) ← r.readMembers ts.length r.start ts
    let value ← r.close s
    .ok (value, ts)
  | .openArray :: ts => do
    let (s, ts) ← r.readPositions r.members 0 r.start ts
    let value ← r.close s
    .ok (value, ts)
  | ts => refuse (.record r.name) ts

end Record

end TaskBoard.Json
