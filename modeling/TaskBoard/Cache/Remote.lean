import TaskBoard.Cache.Call
import TaskBoard.Net.Wire
import TaskBoard.Text.Percent

/-!
# The cache on a server

The commands of a key-value server and what its replies mean. Dropping all keys that begin with a
text walks the keys batch by batch (`Walk`): the server hands out a cursor with each batch, and the
walk is over when the cursor is zero.
-/

namespace TaskBoard.Remote

open Text

/-- A reply of the server. -/
inductive Reply where
  | bulk (s : String)
  | integer (n : Int)
  | status (s : String)
  | error (message : String)
  | null
  | array (items : List Reply)

/-- A command and its arguments. -/
abbrev Command := List String

/-- The error of a reply that is not what the command asks for. -/
def unexpected : CacheError := .command "unexpected reply"

/-- A reply that is no error. -/
def Reply.check : Reply → Except CacheError Reply
  | error message => .error (.command message)
  | r => .ok r

/-- The text in a reply. -/
def Reply.toText : Reply → Except CacheError String
  | bulk s | status s => .ok s
  | integer n => .ok (intText n)
  | error message => .error (.command message)
  | _ => .error unexpected

/-- The unsigned integer in a reply. -/
def Reply.toNumber : Reply → Except CacheError Nat
  | integer n => .ok (n % 18446744073709551616).toNat
  | bulk s | status s =>
    match readUnsigned? s.toList with
    | some n => if n < 18446744073709551616 then .ok n else .error unexpected
    | none => .error unexpected
  | error message => .error (.command message)
  | _ => .error unexpected

/-- The texts in a reply. -/
def Reply.toTexts : Reply → Except CacheError (List String)
  | array items => items.mapM toText
  | null => .ok []
  | error message => .error (.command message)
  | _ => .error unexpected

/-- A cursor and a batch of keys. -/
def Reply.toBatch : Reply → Except CacheError (Nat × List String)
  | array [cursor, keys] => do
    let cursor ← cursor.toNumber
    let keys ← keys.toTexts
    return (cursor, keys)
  | error message => .error (.command message)
  | _ => .error unexpected

/-- The text in a reply, or nothing for null. -/
def Reply.toOptional : Reply → Except CacheError (Option String)
  | null => .ok none
  | r => r.toText.map some

/-- Reads a key. -/
def getCommand (key : String) : Command := ["GET", key]

/-- Writes a key that lives for a number of milliseconds, in whole seconds and at least one. -/
def setCommand (key value : String) (ttl : Nat) : Command :=
  ["SET", key, value, "EX", natText (max 1 (ttl / 1000))]

/-- The next step of a walk over the keys that begin with a text. -/
inductive Walk where
  /-- Asks for the batch at a cursor. -/
  | scan (cursor removed : Nat)
  /-- Drops the keys of a batch and goes on at a cursor. -/
  | drop (keys : List String) (cursor removed : Nat)
deriving DecidableEq, Repr

namespace Walk

/-- The walk before its first step. -/
def start : Walk := scan 0 0

/-- The command of a step. -/
def command (beginning : String) : Walk → Command
  | scan cursor _ => ["SCAN", natText cursor, "MATCH", beginning ++ "*", "COUNT", "100"]
  | drop keys _ _ => "DEL" :: keys

/-- What is next after a batch: another one, or the end with the number of keys dropped. -/
def resume (cursor removed : Nat) : Walk ⊕ Nat :=
  if cursor = 0 then .inr removed else .inl (scan cursor removed)

/-- What is next after a reply. -/
def next : Walk → Reply → Except CacheError (Walk ⊕ Nat)
  | scan _ removed, r => do
    let (cursor, keys) ← r.toBatch
    return if keys.isEmpty then resume cursor removed else .inl (drop keys cursor removed)
  | drop _ cursor removed, r => do
    let n ← r.toNumber
    return resume cursor (removed + n)

end Walk

/-- A wire to the server. -/
abbrev CacheWire := Net.Wire Command Reply

/-- The error of a command without an answer. -/
def unanswered : Net.Refusal → CacheError
  | .unreachable reason => .connection reason
  | .silent => .command "no answer"
  | .closed => .command "connection closed"

/-- The reply of the server to a command. -/
def send (c : Command) (w : CacheWire) : Except CacheError Reply × CacheWire :=
  let (reply, w) := w.send c
  ((reply.mapError unanswered).bind Reply.check, w)

/-- Takes a walk to its end. The fuel bounds the number of steps by that of the answers. -/
def walk (beginning : String) : Nat → Walk → CacheWire → Except CacheError Nat × CacheWire
  | 0, step, w =>
    let (reply, w) := send (step.command beginning) w
    (reply.bind fun _ => .error unexpected, w)
  | fuel + 1, step, w =>
    match send (step.command beginning) w with
    | (.error e, w) => (.error e, w)
    | (.ok r, w) =>
      match step.next r with
      | .error e => (.error e, w)
      | .ok (.inr n) => (.ok n, w)
      | .ok (.inl step) => walk beginning fuel step w

/-- Performs a cache call over a wire. -/
def perform : (call : CacheCall) → CacheWire → call.Reply × CacheWire
  | .get key, w =>
    let (r, w) := send (getCommand key) w
    (r.bind Reply.toOptional, w)
  | .set key value ttl, w =>
    let (r, w) := send (setCommand key value ttl) w
    (r.map fun _ => (), w)
  | .invalidate beginning, w => walk beginning w.unused .start w

/-- Asks whether the server is there, for at most `limit` milliseconds. -/
def ping (limit : Nat) (w : CacheWire) : Except CacheError Unit × CacheWire :=
  match w.send ["PING"] with
  | (.error .silent, w) =>
    (.error (.connection ("PING timed out after " ++ durationText (limit * 1000000))), w)
  | (.error refusal, w) => (.error (unanswered refusal), w)
  | (.ok r, w) => (r.toText.map fun _ => (), w)

end TaskBoard.Remote
