import TaskBoard.Json.Token
import TaskBoard.Json.Writer

/-!
# What is written is read token by token

`Lexes cs ts` says that the machine, between two tokens, reads `cs` as the tokens `ts` and is then
between two tokens again. Such texts can be put one after the other, so the tokens of what is
written follow part by part. `LexesBefore cs ts` is the same for a text whose end is seen only at
the comma or the closing bracket after it.

* `lexes_writeString`: a string is one token, with every character escaped or not;
* `lexes_writeArray`, `lexes_writeObject`: arrays and objects of parts with known tokens;
* `Lexes.tokens_eq`: the tokens of a text that is read so.
-/

namespace TaskBoard.Json

open Text Lexer

/-- Between two tokens, `cs` is read as the tokens `ts`. -/
def Lexes (cs : List Char) (ts : List Token) : Prop :=
  ∀ out, cs.foldl stepChar { out } = { out := ts.reverse ++ out }

namespace Lexes

theorem nil : Lexes [] [] := fun _ => rfl

theorem append {cs cs' : List Char} {ts ts' : List Token} (h : Lexes cs ts)
    (h' : Lexes cs' ts') : Lexes (cs ++ cs') (ts ++ ts') := by
  intro out
  rw [List.foldl_append, h out, h' (ts.reverse ++ out), List.reverse_append, List.append_assoc]

/-- The machine reads characters as it reads symbols. -/
theorem foldl_step (cs : List Char) (s : State) :
    (cs.map Symbol.char).foldl step s = cs.foldl stepChar s := by
  rw [List.foldl_map]
  rfl

/-- The tokens of a text are those that it is read as. -/
theorem tokens_eq {cs : List Char} {ts : List Token} (h : Lexes cs ts) :
    tokens (cs.map Symbol.char) = ts := by
  have hread : cs.foldl stepChar {} = { out := ts.reverse ++ [] } := h []
  simp [tokens, foldl_step, hread, finish]

end Lexes

/-- The characters that may follow a value within an array or an object. -/
def isMark (c : Char) : Bool := c == ',' || c == ']' || c == '}'

/-- Between two tokens, `cs` is read as the tokens `ts` once a mark follows. -/
def LexesBefore (cs : List Char) (ts : List Token) : Prop :=
  ∀ out c, isMark c = true → stepChar (cs.foldl stepChar { out }) c = start (ts.reverse ++ out) c

theorem Lexes.before {cs : List Char} {ts : List Token} (h : Lexes cs ts) : LexesBefore cs ts := by
  intro out c _
  rw [h out]
  rfl

namespace LexesBefore

variable {cs cs' : List Char} {ts ts' : List Token}

/-- A text that is read before a mark, and the mark. -/
theorem append_mark {c : Char} {t : Token} (h : LexesBefore cs ts) (hmark : isMark c = true)
    (hc : Lexes [c] [t]) : Lexes (cs ++ [c]) (ts ++ [t]) := by
  intro out
  have hstart : start (ts.reverse ++ out) c = { out := t :: (ts.reverse ++ out) } :=
    hc (ts.reverse ++ out)
  rw [List.foldl_append, List.foldl_cons, List.foldl_nil, h out c hmark, hstart]
  simp

theorem after (h : Lexes cs ts) (h' : LexesBefore cs' ts') :
    LexesBefore (cs ++ cs') (ts ++ ts') := by
  intro out c hmark
  rw [List.foldl_append, h out, h' (ts.reverse ++ out) c hmark, List.reverse_append,
    List.append_assoc]

end LexesBefore

/-! ## Marks and words -/

theorem lexes_openObject : Lexes ['{'] [.openObject] := fun _ => rfl

theorem lexes_closeObject : Lexes ['}'] [.closeObject] := fun _ => rfl

theorem lexes_openArray : Lexes ['['] [.openArray] := fun _ => rfl

theorem lexes_closeArray : Lexes [']'] [.closeArray] := fun _ => rfl

theorem lexes_colon : Lexes [':'] [.colon] := fun _ => rfl

theorem lexes_comma : Lexes [','] [.comma] := fun _ => rfl

theorem lexes_null : Lexes "null".toList [.null] := fun _ => rfl

theorem lexes_writeBool (b : Bool) : Lexes (writeBool b) [.bool b] := by
  cases b with
  | false => exact fun _ => rfl
  | true => exact fun _ => rfl

/-- A value or null, as one token. -/
theorem lexes_writeOption {α : Type} {write : α → List Char} (token : α → Token)
    (hwrite : ∀ a, Lexes (write a) [token a]) (o : Option α) :
    Lexes (writeOption write o) [o.elim .null token] := by
  cases o with
  | none => exact lexes_null
  | some a => exact hwrite a

/-! ## Strings -/

/-- The digits of a control's escape have its value. -/
theorem hexPair_digits :
    ∀ n < 0x20, (hexPair n).map hexValue? = [some (n / 16), some (n % 16)] := by
  decide +kernel

/-- An escaped control is read back, from its four digits. -/
theorem foldl_control {c : Char} (hc : c.toNat < 0x20) (out : List Token) (chars : List Char) :
    (['\\', 'u', '0', '0'] ++ hexPair c.toNat).foldl stepChar
      { out, mode := .string { chars } } = { out, mode := .string { chars := c :: chars } } := by
  have hdigits := hexPair_digits c.toNat hc
  obtain ⟨a, as, hpair, ha, has⟩ := List.map_eq_cons_iff.1 hdigits
  obtain ⟨b, bs, rfl, hb, hbs⟩ := List.map_eq_cons_iff.1 has
  obtain rfl : bs = [] := List.map_eq_nil_iff.1 hbs
  rw [hpair]
  have hwhole : c.toNat / 16 * 16 + c.toNat % 16 = c.toNat := by omega
  have hzero : hexValue? '0' = some 0 := by decide
  have hplain : ¬ (0xD800 ≤ c.toNat ∧ c.toNat < 0xDC00) := by omega
  have hplain' : ¬ (0xDC00 ≤ c.toNat ∧ c.toNat < 0xE000) := by omega
  simp [stepChar, hzero, ha, hb, hwhole, Quoted.pushUnit, hplain, hplain', Quoted.push,
    Char.ofNat_toNat]

/-- One character of a string is read back, however it is written. -/
theorem foldl_escapeChar (c : Char) (out : List Token) (chars : List Char) :
    (escapeChar c).foldl stepChar { out, mode := .string { chars } }
      = { out, mode := .string { chars := c :: chars } } := by
  unfold escapeChar
  split
  · rfl
  · rfl
  · rfl
  · rfl
  · rfl
  · rfl
  · rfl
  · rename_i hquote hbackslash _ _ _ _ _
    by_cases hc : c.toNat < 0x20
    · rw [if_pos hc]
      exact foldl_control hc out chars
    · rw [if_neg hc]
      have hquote' : c ≠ '"' := hquote
      have hbackslash' : c ≠ '\\' := hbackslash
      simp [stepChar, hquote', hbackslash', hc, Quoted.push]

theorem foldl_escaped (cs : List Char) (out : List Token) (chars : List Char) :
    (cs.flatMap escapeChar).foldl stepChar { out, mode := .string { chars } }
      = { out, mode := .string { chars := cs.reverse ++ chars } } := by
  induction cs generalizing chars with
  | nil => rfl
  | cons c cs ih =>
    rw [List.flatMap_cons, List.foldl_append, foldl_escapeChar, ih, List.reverse_cons,
      List.append_assoc, List.singleton_append]

/-- A string is read back with all its characters. -/
theorem lexes_writeString (s : String) : Lexes (writeString s) [.string (some s.toList)] := by
  intro out
  have hopen : stepChar { out } '"' = { out, mode := .string {} } := rfl
  unfold writeString
  rw [List.cons_append, List.foldl_cons, hopen, List.foldl_append, foldl_escaped]
  simp [stepChar, Quoted.token]

/-! ## Arrays and objects -/

/-- Tokens with commas between them. -/
def commaTokens : List (List Token) → List Token
  | [] => []
  | [part] => part
  | part :: parts => part ++ .comma :: commaTokens parts

/-- Parts with commas between them are read as their tokens with commas between those. -/
theorem lexes_commaSeparated {α : Type} {write : α → List Char} {tokens : α → List Token}
    {parts : List α} (hparts : ∀ a ∈ parts, LexesBefore (write a) (tokens a)) :
    LexesBefore (commaSeparated (parts.map write)) (commaTokens (parts.map tokens)) := by
  induction parts with
  | nil => exact Lexes.nil.before
  | cons a parts ih =>
    have ha : LexesBefore (write a) (tokens a) := hparts a (by simp)
    have hrest := ih fun b hb => hparts b (by simp [hb])
    cases parts with
    | nil => exact ha
    | cons b parts =>
      have hcomma : Lexes (write a ++ [',']) (tokens a ++ [.comma]) :=
        ha.append_mark (by decide) lexes_comma
      have hall := LexesBefore.after hcomma hrest
      rw [List.append_assoc, List.append_assoc] at hall
      exact hall

/-- The tokens of an array. -/
def arrayTokens (parts : List (List Token)) : List Token :=
  .openArray :: (commaTokens parts ++ [.closeArray])

theorem lexes_writeArray {α : Type} {write : α → List Char} {tokens : α → List Token}
    {parts : List α} (hparts : ∀ a ∈ parts, LexesBefore (write a) (tokens a)) :
    Lexes (writeArray (parts.map write)) (arrayTokens (parts.map tokens)) :=
  lexes_openArray.append ((lexes_commaSeparated hparts).append_mark (by decide) lexes_closeArray)

/-- The tokens of a member of an object. -/
def memberTokens (m : String × List Token) : List Token :=
  .string (some m.1.toList) :: .colon :: m.2

/-- The tokens of an object. -/
def objectTokens (members : List (String × List Token)) : List Token :=
  .openObject :: (commaTokens (members.map memberTokens) ++ [.closeObject])

/-- Each member comes with its name, its value as written and the tokens of that. -/
theorem lexes_writeObject {members : List (String × List Char × List Token)}
    (hmembers : ∀ m ∈ members, LexesBefore m.2.1 m.2.2) :
    Lexes (writeObject (members.map fun m => (m.1, m.2.1)))
      (objectTokens (members.map fun m => (m.1, m.2.2))) := by
  have hmember : ∀ m ∈ members,
      LexesBefore (writeString m.1 ++ ':' :: m.2.1) (memberTokens (m.1, m.2.2)) :=
    fun m hm => .after (lexes_writeString m.1) (.after lexes_colon (hmembers m hm))
  have hinside := lexes_commaSeparated hmember
  unfold writeObject objectTokens
  rw [List.map_map, List.map_map]
  exact lexes_openObject.append (hinside.append_mark (by decide) lexes_closeObject)

end TaskBoard.Json
