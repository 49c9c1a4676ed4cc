import TaskBoard.Text.Decimal
import TaskBoard.Text.Hidden

/-!
# Quoted text for messages

A text in double quotes in which every character can be seen: quotes and backslashes have a
backslash, and what does not show is given by name or number, as in `"a\u{200b}"`.
-/

namespace TaskBoard.Text

/-- A character as it stands between quotes. -/
def showChar (c : Char) : List Char :=
  match c with
  | '"' => ['\\', '"']
  | '\\' => ['\\', '\\']
  | '\n' => ['\\', 'n']
  | '\r' => ['\\', 'r']
  | '\t' => ['\\', 't']
  | '\x00' => ['\\', '0']
  | c => if isHidden c then ['\\', 'u', '\x7b'] ++ hexDigits c.toNat ++ ['\x7d'] else [c]

/-- A text between quotes. -/
def quoted (cs : List Char) : List Char := '"' :: cs.flatMap showChar ++ ['"']

end TaskBoard.Text
