/-!
# Wires to servers

A link either cannot be made or leads to a server whose answers are given, one for each command in
order; an answer may never come. A wire is a link with what has been sent over it.
-/

namespace TaskBoard.Net

/-- The way to a server whose answers are of type `ρ`. -/
inductive Link (ρ : Type) where
  /-- No connection can be made, for this reason. -/
  | down (reason : String)
  /-- The server gives these answers; `none` is one that never comes. -/
  | up (answers : List (Option ρ))

/-- Why a command has no answer. -/
inductive Refusal where
  | unreachable (reason : String)
  /-- The server keeps silent. -/
  | silent
  /-- The server has no more to say. -/
  | closed
deriving DecidableEq, Repr

/-- A link and the commands sent over it, last first. -/
structure Wire (σ ρ : Type) where
  link : Link ρ
  sent : List σ := []

namespace Wire

variable {σ ρ : Type}

/-- How many answers have not been asked for. -/
def unused (w : Wire σ ρ) : Nat :=
  match w.link with
  | .down _ => 0
  | .up answers => answers.length

/-- Makes the connection, before anything is sent. -/
def connect (w : Wire σ ρ) : Except Refusal Unit :=
  match w.link with
  | .down reason => .error (.unreachable reason)
  | .up _ => .ok ()

/-- Sends a command and takes the answer to it. -/
def send (x : σ) (w : Wire σ ρ) : Except Refusal ρ × Wire σ ρ :=
  match w.link with
  | .down reason => (.error (.unreachable reason), w)
  | .up [] => (.error .closed, { w with sent := x :: w.sent })
  | .up (answer :: answers) =>
    (match answer with
      | some r => .ok r
      | none => .error .silent,
      { link := .up answers, sent := x :: w.sent })

end Wire

end TaskBoard.Net
