import TaskBoard.Proofs.Json.Reading

/-!
# Texts that the grammar of JSON derives

`Derives` is the grammar of JSON as a relation, without a machine and without tokens: a text is a
value, or one of the phrases that values of any depth are made of. `StringText` says of a string
what it stands for, however it is escaped.

A number is seen to end only where something else follows. `LexesUpTo cs ts` says that `cs` is read
as the tokens `ts` once a mark or white space follows.

* `lexesUpTo_number`, `lexes_stringText`, `lexes_body`: numbers and strings are one token each;
* `Derives.readAs`: a value that is derived is read as tokens that are skipped as one value;
* `lexes_objectText`: the tokens of an object whose members are written in this order.
-/

namespace TaskBoard.Json

open Text Lexer

/-! ## Numbers and strings -/

/-- White space, or nothing. -/
def Spaces (cs : List Char) : Prop := ∀ c ∈ cs, c ∈ [' ', '\t', '\n', '\r']

/-- Nothing but digits, and at least one. -/
def Digits (cs : List Char) : Prop := cs ≠ [] ∧ ∀ c ∈ cs, isDigit c = true

/-- Zero, or digits of which the first is not zero. -/
inductive WholeText : List Char → Prop where
  | zero : WholeText ['0']
  | digits {c : Char} {cs : List Char} (hc : isDigit c = true) (hne : c ≠ '0')
      (hcs : ∀ d ∈ cs, isDigit d = true) : WholeText (c :: cs)

/-- The fraction of a number, if it has one. -/
inductive FractionText : List Char → Prop where
  | none : FractionText []
  | digits {cs : List Char} (hcs : Digits cs) : FractionText ('.' :: cs)

/-- The exponent of a number, if it has one. -/
inductive ExponentText : List Char → Prop where
  | none : ExponentText []
  | digits {e : Char} {sign cs : List Char} (he : e ∈ ['e', 'E'])
      (hsign : sign ∈ [[], ['+'], ['-']]) (hcs : Digits cs) : ExponentText (e :: (sign ++ cs))

/-- A number. -/
inductive NumberText : List Char → Prop where
  | mk {sign whole fraction exponent : List Char} (hsign : sign ∈ [[], ['-']])
      (hwhole : WholeText whole) (hfraction : FractionText fraction)
      (hexponent : ExponentText exponent) : NumberText (sign ++ whole ++ fraction ++ exponent)

/-- The characters that may follow a backslash, and what they stand for then. -/
def escapes : List (Char × Char) :=
  [('"', '"'), ('\\', '\\'), ('/', '/'), ('b', '\x08'), ('f', '\x0c'), ('n', '\n'), ('r', '\r'),
    ('t', '\t')]

/-- A UTF-16 unit by its four digits. -/
inductive UnitText : Nat → List Char → Prop where
  | mk {a b c d : Char} {i j k l : Nat} (ha : hexValue? a = some i) (hb : hexValue? b = some j)
      (hc : hexValue? c = some k) (hd : hexValue? d = some l) :
      UnitText (((i * 16 + j) * 16 + k) * 16 + l) ['\\', 'u', a, b, c, d]

/-- A piece of a string: a character, an escaped character or a unit, which may be half a
character. -/
inductive PieceText : List Char → Prop where
  | plain {c : Char} (hcontrol : 0x20 ≤ c.toNat) (hquote : c ≠ '"') (hbackslash : c ≠ '\\') :
      PieceText [c]
  | escape {c d : Char} (h : (c, d) ∈ escapes) : PieceText ['\\', c]
  | unit {u : Nat} {cs : List Char} (h : UnitText u cs) : PieceText cs

/-- What stands between the quotes of a string. -/
inductive BodyText : List Char → Prop where
  | nil : BodyText []
  | cons {piece cs : List Char} (hpiece : PieceText piece) (hcs : BodyText cs) :
      BodyText (piece ++ cs)

/-- The ways to write one character of a string. A pair of units makes a character together. -/
inductive CharText : Char → List Char → Prop where
  | plain {c : Char} (hcontrol : 0x20 ≤ c.toNat) (hquote : c ≠ '"') (hbackslash : c ≠ '\\') :
      CharText c [c]
  | escape {c d : Char} (h : (c, d) ∈ escapes) : CharText d ['\\', c]
  | unit {c : Char} {cs : List Char} (h : UnitText c.toNat cs) : CharText c cs
  | pair {c : Char} {high low : Nat} {cs cs' : List Char} (hhigh : 0xD800 ≤ high ∧ high < 0xDC00)
      (hlow : 0xDC00 ≤ low ∧ low < 0xE000)
      (hc : c.toNat = 0x10000 + (high - 0xD800) * 0x400 + (low - 0xDC00))
      (h : UnitText high cs) (h' : UnitText low cs') : CharText c (cs ++ cs')

/-- The ways to write characters one after the other. -/
inductive CharsText : List Char → List Char → Prop where
  | nil : CharsText [] []
  | cons {c : Char} {cs piece rest : List Char} (hc : CharText c piece) (hcs : CharsText cs rest) :
      CharsText (c :: cs) (piece ++ rest)

/-- The ways to write a string. -/
def StringText (s : String) (cs : List Char) : Prop :=
  ∃ body, CharsText s.toList body ∧ cs = '"' :: (body ++ ['"'])

/-! ## Values -/

/-- What the grammar has names for. -/
inductive Phrase where
  | value
  /-- A value with white space around it. -/
  | element
  | elements
  | member
  | members

/-- The grammar of JSON. -/
inductive Derives : Phrase → List Char → Prop where
  | null : Derives .value "null".toList
  | true : Derives .value "true".toList
  | false : Derives .value "false".toList
  | number {cs : List Char} (h : NumberText cs) : Derives .value cs
  | string {cs : List Char} (h : BodyText cs) : Derives .value ('"' :: (cs ++ ['"']))
  | emptyArray {cs : List Char} (h : Spaces cs) : Derives .value ('[' :: (cs ++ [']']))
  | array {cs : List Char} (h : Derives .elements cs) : Derives .value ('[' :: (cs ++ [']']))
  | emptyObject {cs : List Char} (h : Spaces cs) : Derives .value ('{' :: (cs ++ ['}']))
  | object {cs : List Char} (h : Derives .members cs) : Derives .value ('{' :: (cs ++ ['}']))
  | element {before cs after : List Char} (hbefore : Spaces before) (h : Derives .value cs)
      (hafter : Spaces after) : Derives .element (before ++ (cs ++ after))
  | last {cs : List Char} (h : Derives .element cs) : Derives .elements cs
  | more {cs cs' : List Char} (h : Derives .element cs) (h' : Derives .elements cs') :
      Derives .elements (cs ++ ',' :: cs')
  | member {before key after cs : List Char} (hbefore : Spaces before) (hkey : BodyText key)
      (hafter : Spaces after) (h : Derives .element cs) :
      Derives .member (before ++ ('"' :: (key ++ ['"'])) ++ after ++ ':' :: cs)
  | lastMember {cs : List Char} (h : Derives .member cs) : Derives .members cs
  | moreMembers {cs cs' : List Char} (h : Derives .member cs) (h' : Derives .members cs') :
      Derives .members (cs ++ ',' :: cs')

/-- A member with this name, its value written with these characters. -/
def MemberText (name : String) (value cs : List Char) : Prop :=
  ∃ before key between start after, Spaces before ∧ StringText name key ∧ Spaces between
    ∧ Spaces start ∧ Spaces after
    ∧ cs = before ++ key ++ between ++ ':' :: (start ++ (value ++ after))

/-- These members in this order, at least one. -/
inductive MembersText : List (String × List Char) → List Char → Prop where
  | last {name : String} {value cs : List Char} (h : MemberText name value cs) :
      MembersText [(name, value)] cs
  | more {name : String} {value cs cs' : List Char} {ms : List (String × List Char)}
      (h : MemberText name value cs) (h' : MembersText ms cs') :
      MembersText ((name, value) :: ms) (cs ++ ',' :: cs')

/-- An object with these members in this order, white space around it. -/
inductive ObjectText : List (String × List Char) → List Char → Prop where
  | empty {before cs after : List Char} (hbefore : Spaces before) (h : Spaces cs)
      (hafter : Spaces after) : ObjectText [] (before ++ '{' :: (cs ++ '}' :: after))
  | members {ms : List (String × List Char)} {before cs after : List Char}
      (hbefore : Spaces before) (h : MembersText ms cs) (hafter : Spaces after) :
      ObjectText ms (before ++ '{' :: (cs ++ '}' :: after))

/-! ## White space -/

theorem isSpace_of_spaces {cs : List Char} (h : Spaces cs) {c : Char} (hc : c ∈ cs) :
    isSpace c = true := by
  have hmem := h c hc
  simp only [List.mem_cons, List.not_mem_nil, or_false] at hmem
  rcases hmem with rfl | rfl | rfl | rfl <;> rfl

/-- White space is no token. -/
theorem lexes_spaces {cs : List Char} (h : Spaces cs) : Lexes cs [] := by
  intro out
  induction cs with
  | nil => rfl
  | cons c cs ih =>
    have hc : isSpace c = true := isSpace_of_spaces h (by simp)
    have hstep : stepChar { out } c = { out } := by simp [stepChar, start, hc]
    rw [List.foldl_cons, hstep]
    exact ih fun d hd => h d (by simp [hd])

/-- The characters that may follow a value. -/
def endsValue (c : Char) : Bool := isMark c || isSpace c

/-- Between two tokens, `cs` is read as the tokens `ts` once a mark or white space follows. -/
def LexesUpTo (cs : List Char) (ts : List Token) : Prop :=
  ∀ out c, endsValue c = true →
    stepChar (cs.foldl stepChar { out }) c = start (ts.reverse ++ out) c

theorem Lexes.upTo {cs : List Char} {ts : List Token} (h : Lexes cs ts) : LexesUpTo cs ts := by
  intro out c _
  rw [h out]
  rfl

/-- White space after a value changes nothing. -/
theorem LexesUpTo.append_spaces {cs after : List Char} {ts : List Token} (h : LexesUpTo cs ts)
    (hafter : Spaces after) : LexesBefore (cs ++ after) ts := by
  intro out c hc
  cases after with
  | nil =>
    rw [List.append_nil]
    exact h out c (by simp [endsValue, hc])
  | cons d after =>
    have hd : isSpace d = true := isSpace_of_spaces hafter (by simp)
    have hstart : start (ts.reverse ++ out) d = { out := ts.reverse ++ out } := by
      simp [start, hd]
    have hrest : Lexes after [] := lexes_spaces fun e he => hafter e (by simp [he])
    rw [List.foldl_append, List.foldl_cons, h out d (by simp [endsValue, hd]), hstart,
      hrest (ts.reverse ++ out)]
    rfl

/-! ## Numbers as tokens -/

/-- Within a number, these characters bring the machine from one place to another. -/
def Moves (place place' : NumberPlace) (cs : List Char) : Prop :=
  ∀ out spelling, cs.foldl stepChar { out, mode := .number place spelling }
    = { out, mode := .number place' (cs.reverse ++ spelling) }

section Number

variable {place place' place'' : NumberPlace} {c : Char} {cs cs' : List Char}

theorem Moves.nil : Moves place place [] := fun _ _ => rfl

theorem Moves.append (h : Moves place place' cs) (h' : Moves place' place'' cs') :
    Moves place place'' (cs ++ cs') := by
  intro out spelling
  rw [List.foldl_append, h, h', List.reverse_append, List.append_assoc]

theorem Moves.cons (h : numberMove place c = .goes place') (h' : Moves place' place'' cs) :
    Moves place place'' (c :: cs) := by
  intro out spelling
  have hstep : stepChar { out, mode := .number place spelling } c
      = { out, mode := .number place' (c :: spelling) } := by
    simp [stepChar, h]
  rw [List.foldl_cons, hstep, h', List.reverse_cons, List.append_assoc]
  rfl

/-- Where a digit leads back to the same place, any digits do. -/
theorem moves_digits (hplace : ∀ c, isDigit c = true → numberMove place c = .goes place)
    (hcs : ∀ c ∈ cs, isDigit c = true) : Moves place place cs := by
  induction cs with
  | nil => exact .nil
  | cons c cs ih => exact .cons (hplace c (hcs c (by simp))) (ih fun d hd => hcs d (by simp [hd]))

/-- One digit leads to a place at which any more digits stay. -/
theorem moves_of_digits (hfirst : ∀ c, isDigit c = true → numberMove place c = .goes place')
    (hmore : ∀ c, isDigit c = true → numberMove place' c = .goes place') (hcs : Digits cs) :
    Moves place place' cs := by
  obtain ⟨hne, hdigits⟩ := hcs
  cases cs with
  | nil => exact absurd rfl hne
  | cons c cs =>
    exact .cons (hfirst c (hdigits c (by simp)))
      (moves_digits hmore fun d hd => hdigits d (by simp [hd]))

/-- A sign and a whole number leave the machine within a number that may go on or end. -/
theorem foldl_whole {sign whole : List Char} (hsign : sign ∈ [[], ['-']]) (hwhole : WholeText whole)
    (out : List Token) : ∃ place, (place = .zero ∨ place = .integer)
      ∧ (sign ++ whole).foldl stepChar { out }
        = { out, mode := .number place (sign ++ whole).reverse } := by
  simp only [List.mem_cons, List.not_mem_nil, or_false] at hsign
  have hdigit : ∀ c, isDigit c = true → numberMove .integer c = .goes .integer := by
    intro c hc
    simp [numberMove, hc]
  rcases hsign with rfl | rfl
  · cases hwhole with
    | zero => exact ⟨.zero, .inl rfl, rfl⟩
    | @digits c cs hc hne hcs =>
      have hspace : isSpace c = false := by
        rw [isDigit_iff] at hc
        simp only [isSpace, Bool.or_eq_false_iff, decide_eq_false_iff_not]
        refine ⟨⟨⟨?_, ?_⟩, ?_⟩, ?_⟩ <;> rintro rfl <;> revert hc <;> decide
      have hstart : stepChar { out } c = { out, mode := .number .integer [c] } := by
        simp [stepChar, start, hspace, hc, hne]
      refine ⟨.integer, .inr rfl, ?_⟩
      rw [List.nil_append, List.foldl_cons, hstart, moves_digits hdigit hcs, List.reverse_cons]
  · have hminus : stepChar { out } '-' = { out, mode := .number .minus ['-'] } := rfl
    cases hwhole with
    | zero => exact ⟨.zero, .inl rfl, rfl⟩
    | @digits c cs hc hne hcs =>
      have hmoves : Moves .minus .integer (c :: cs) :=
        .cons (by simp [numberMove, hc, hne]) (moves_digits hdigit hcs)
      refine ⟨.integer, .inr rfl, ?_⟩
      rw [List.singleton_append, List.foldl_cons, hminus, hmoves]
      simp

/-- A fraction goes from a whole number to a place at which the number may end. -/
theorem moves_fraction (hplace : place = .zero ∨ place = .integer) (h : FractionText cs) :
    ∃ place', (place' = .zero ∨ place' = .integer ∨ place' = .fraction)
      ∧ Moves place place' cs := by
  cases h with
  | none => exact ⟨place, hplace.imp_right .inl, .nil⟩
  | digits hcs =>
    have hpoint : numberMove place '.' = .goes .point := by
      rcases hplace with rfl | rfl <;> rfl
    refine ⟨.fraction, .inr (.inr rfl), .cons hpoint (moves_of_digits ?_ ?_ hcs)⟩
    · intro c hc
      simp [numberMove, hc]
    · intro c hc
      simp [numberMove, hc]

/-- So does an exponent. -/
theorem moves_exponent (hplace : place = .zero ∨ place = .integer ∨ place = .fraction)
    (h : ExponentText cs) : ∃ place', place'.mayEnd = true ∧ Moves place place' cs := by
  cases h with
  | none => exact ⟨place, by rcases hplace with rfl | rfl | rfl <;> rfl, .nil⟩
  | @digits e sign cs he hsign hcs =>
    simp only [List.mem_cons, List.not_mem_nil, or_false] at he hsign
    have hmark : numberMove place e = .goes .mark := by
      rcases hplace with rfl | rfl | rfl <;> rcases he with rfl | rfl <;> rfl
    have hmore : ∀ c, isDigit c = true → numberMove .exponent c = .goes .exponent := by
      intro c hc
      simp [numberMove, hc]
    refine ⟨.exponent, rfl, .cons hmark ?_⟩
    rcases hsign with rfl | rfl | rfl
    · refine moves_of_digits ?_ hmore hcs
      intro c hc
      simp [numberMove, hc]
    · refine .cons rfl (moves_of_digits ?_ hmore hcs)
      intro c hc
      simp [numberMove, hc]
    · refine .cons rfl (moves_of_digits ?_ hmore hcs)
      intro c hc
      simp [numberMove, hc]

/-- A number that may end does so where its value ends. -/
theorem numberMove_of_endsValue (hplace : place.mayEnd = true) (hc : endsValue c = true) :
    numberMove place c = .ends := by
  simp only [endsValue, isMark, isSpace, Bool.or_eq_true, beq_iff_eq, decide_eq_true_eq] at hc
  rcases hc with ((rfl | rfl) | rfl) | ((rfl | rfl) | rfl) | rfl <;>
    cases place <;> first | rfl | cases hplace

/-- A number is one token. -/
theorem lexesUpTo_number (h : NumberText cs) : LexesUpTo cs [.number cs] := by
  obtain ⟨hsign, hwhole, hfraction, hexponent⟩ := h
  intro out c hc
  obtain ⟨place, hplace, hread⟩ := foldl_whole hsign hwhole out
  obtain ⟨place', hplace', hmoves⟩ := moves_fraction hplace hfraction
  obtain ⟨place'', hend, hmoves'⟩ := moves_exponent hplace' hexponent
  rw [List.foldl_append, List.foldl_append, hread, hmoves, hmoves']
  simp [stepChar, numberMove_of_endsValue hend hc]

end Number

/-! ## Strings as tokens -/

section Strings

variable {c : Char} {cs body : List Char} {u : Nat} {q : Quoted} {out : List Token}

theorem escaped?_of_mem {d : Char} (h : (c, d) ∈ escapes) : c ≠ 'u' ∧ escaped? c = some d := by
  simp only [escapes, List.mem_cons, List.not_mem_nil, or_false, Prod.mk.injEq] at h
  rcases h with ⟨rfl, rfl⟩ | ⟨rfl, rfl⟩ | ⟨rfl, rfl⟩ | ⟨rfl, rfl⟩ | ⟨rfl, rfl⟩ | ⟨rfl, rfl⟩ |
    ⟨rfl, rfl⟩ | ⟨rfl, rfl⟩ <;> decide

theorem foldl_plain (hcontrol : 0x20 ≤ c.toNat) (hquote : c ≠ '"') (hbackslash : c ≠ '\\') :
    [c].foldl stepChar { out, mode := .string q } = { out, mode := .string (q.push c) } := by
  simp [stepChar, hquote, hbackslash, Nat.not_lt.2 hcontrol]

theorem foldl_escape {d : Char} (h : (c, d) ∈ escapes) :
    ['\\', c].foldl stepChar { out, mode := .string q } = { out, mode := .string (q.push d) } := by
  obtain ⟨hne, hd⟩ := escaped?_of_mem h
  simp [stepChar, hne, hd]

/-- A unit is put after what has been read of the string. -/
theorem foldl_unit (h : UnitText u cs) :
    cs.foldl stepChar { out, mode := .string q } = { out, mode := .string (q.pushUnit u) } := by
  obtain ⟨ha, hb, hc, hd⟩ := h
  simp [stepChar, ha, hb, hc, hd]

/-- Whatever stands between the quotes, the machine stays in the string. -/
theorem foldl_body (h : BodyText body) (q : Quoted) : ∃ q', ∀ out,
    body.foldl stepChar { out, mode := .string q } = { out, mode := .string q' } := by
  induction h generalizing q with
  | nil => exact ⟨q, fun _ => rfl⟩
  | @cons piece cs hpiece hcs ih =>
    obtain ⟨q', hq'⟩ : ∃ q', ∀ out, piece.foldl stepChar { out, mode := .string q }
        = { out, mode := .string q' } := by
      cases hpiece with
      | plain hcontrol hquote hbackslash =>
        exact ⟨_, fun _ => foldl_plain hcontrol hquote hbackslash⟩
      | escape h => exact ⟨_, fun _ => foldl_escape h⟩
      | unit h => exact ⟨_, fun _ => foldl_unit h⟩
    obtain ⟨q'', hq''⟩ := ih q'
    exact ⟨q'', fun out => by rw [List.foldl_append, hq', hq'']⟩

/-- Any string is one token. -/
theorem lexes_body (h : BodyText body) :
    ∃ chars, Lexes ('"' :: (body ++ ['"'])) [.string chars] := by
  obtain ⟨q, hq⟩ := foldl_body h {}
  refine ⟨if q.sound && q.high.isNone then some q.chars.reverse else none, fun out => ?_⟩
  have hopen : stepChar { out } '"' = { out, mode := .string {} } := rfl
  rw [List.foldl_cons, hopen, List.foldl_append, hq]
  rfl

/-- A character that is written in any way is put after those that have been read. -/
theorem foldl_charText (h : CharText c cs) (chars : List Char) :
    cs.foldl stepChar { out, mode := .string { chars } }
      = { out, mode := .string { chars := c :: chars } } := by
  cases h with
  | plain hcontrol hquote hbackslash => exact foldl_plain hcontrol hquote hbackslash
  | escape h => exact foldl_escape h
  | unit h =>
    have hsmall : c.toNat < 0xD800 ∨ 0xE000 ≤ c.toNat := by
      have hvalid := c.valid
      simp only [UInt32.isValidChar, Nat.isValidChar] at hvalid
      have htoNat : c.val.toNat = c.toNat := rfl
      omega
    have hhigh : ¬ (0xD800 ≤ c.toNat ∧ c.toNat < 0xDC00) := by omega
    have hlow : ¬ (0xDC00 ≤ c.toNat ∧ c.toNat < 0xE000) := by omega
    rw [foldl_unit h]
    simp [Quoted.pushUnit, hhigh, hlow, Quoted.push, Char.ofNat_toNat]
  | @pair c high low cs cs' hhigh hlow hc h h' =>
    have hnot : ¬ (0xD800 ≤ low ∧ low < 0xDC00) := by omega
    have hofNat : Char.ofNat (0x10000 + (high - 0xD800) * 0x400 + (low - 0xDC00)) = c := by
      rw [← hc, Char.ofNat_toNat]
    rw [List.foldl_append, foldl_unit h, foldl_unit h']
    simp only [Quoted.pushUnit, if_pos hhigh, if_pos hlow, if_neg hnot, hofNat]
    rfl

theorem foldl_charsText {chars : List Char} (h : CharsText chars body) (before : List Char) :
    body.foldl stepChar { out, mode := .string { chars := before } }
      = { out, mode := .string { chars := chars.reverse ++ before } } := by
  induction h generalizing before with
  | nil => rfl
  | cons hc hcs ih =>
    rw [List.foldl_append, foldl_charText hc, ih, List.reverse_cons, List.append_assoc]
    rfl

/-- A string is one token with the characters that it stands for. -/
theorem lexes_stringText {s : String} (h : StringText s cs) :
    Lexes cs [.string (some s.toList)] := by
  obtain ⟨body, hbody, rfl⟩ := h
  intro out
  have hopen : stepChar { out } '"' = { out, mode := .string {} } := rfl
  rw [List.foldl_cons, hopen, List.foldl_append, foldl_charsText hbody]
  simp [stepChar, Quoted.token]

end Strings

/-! ## Values as tokens -/

/-- What is left to skip after a value within these frames. -/
def afterValue : List Frame → List Token → Option (List Token)
  | [], ts => some ts
  | f :: fs, ts => skipFrom .more (f :: fs) ts

/-- What is to be shown of the tokens of a phrase: they are skipped where the phrase may stand, also
where what is open may be closed instead. -/
def Phrase.Skips (ts : List Token) : Phrase → Prop
  | .value | .element => ∀ fs rest, skipFrom .value fs (ts ++ rest) = afterValue fs rest
      ∧ skipFrom .firstValue fs (ts ++ rest) = afterValue fs rest
  | .elements => ∀ fs rest,
      skipFrom .value (.array :: fs) (ts ++ .closeArray :: rest) = afterValue fs rest
      ∧ skipFrom .firstValue (.array :: fs) (ts ++ .closeArray :: rest) = afterValue fs rest
  | .member => ∀ fs rest,
      skipFrom .key (.object :: fs) (ts ++ rest) = afterValue (.object :: fs) rest
      ∧ skipFrom .firstKey (.object :: fs) (ts ++ rest) = afterValue (.object :: fs) rest
  | .members => ∀ fs rest,
      skipFrom .key (.object :: fs) (ts ++ .closeObject :: rest) = afterValue fs rest
      ∧ skipFrom .firstKey (.object :: fs) (ts ++ .closeObject :: rest) = afterValue fs rest

/-- A value may end at white space; behind the other phrases white space is their own. -/
def Phrase.Lexes : Phrase → List Char → List Token → Prop
  | .value => LexesUpTo
  | _ => LexesBefore

/-- A token that is a value. -/
theorem skips_token {t : Token} (ht : (∃ b, t = .bool b) ∨ t = .null ∨ (∃ cs, t = .number cs)
    ∨ ∃ chars, t = .string chars) : Phrase.Skips [t] .value := by
  intro fs rest
  rcases ht with ⟨b, rfl⟩ | rfl | ⟨cs, rfl⟩ | ⟨chars, rfl⟩ <;> cases fs <;> exact ⟨rfl, rfl⟩

theorem afterValue_closeArray (fs : List Frame) (rest : List Token) :
    skipFrom .more (.array :: fs) (.closeArray :: rest) = afterValue fs rest := by
  cases fs <;> rfl

theorem afterValue_closeObject (fs : List Frame) (rest : List Token) :
    skipFrom .more (.object :: fs) (.closeObject :: rest) = afterValue fs rest := by
  cases fs <;> rfl

/-- Everything that the grammar derives is read as tokens that are skipped. -/
theorem Derives.readAs {p : Phrase} {cs : List Char} (h : Derives p cs) :
    ∃ ts, p.Lexes cs ts ∧ p.Skips ts := by
  induction h with
  | null => exact ⟨_, lexes_null.upTo, skips_token (.inr (.inl rfl))⟩
  | true => exact ⟨_, (lexes_writeBool Bool.true).upTo, skips_token (.inl ⟨_, rfl⟩)⟩
  | false => exact ⟨_, (lexes_writeBool Bool.false).upTo, skips_token (.inl ⟨_, rfl⟩)⟩
  | number h => exact ⟨_, lexesUpTo_number h, skips_token (.inr (.inr (.inl ⟨_, rfl⟩)))⟩
  | string h =>
    obtain ⟨chars, hlex⟩ := lexes_body h
    exact ⟨_, hlex.upTo, skips_token (.inr (.inr (.inr ⟨_, rfl⟩)))⟩
  | emptyArray h =>
    have hlex := lexes_openArray.append ((lexes_spaces h).append lexes_closeArray)
    refine ⟨_, hlex.upTo, fun fs rest => ?_⟩
    cases fs <;> exact ⟨rfl, rfl⟩
  | array _ ih =>
    obtain ⟨ts, hlex, hskips⟩ := ih
    have hall := lexes_openArray.append (LexesBefore.append_mark hlex (by decide) lexes_closeArray)
    refine ⟨_, hall.upTo, fun fs rest => ?_⟩
    have hinside := (hskips fs rest).2
    constructor <;> simpa [skipFrom] using hinside
  | emptyObject h =>
    have hlex := lexes_openObject.append ((lexes_spaces h).append lexes_closeObject)
    refine ⟨_, hlex.upTo, fun fs rest => ?_⟩
    cases fs <;> exact ⟨rfl, rfl⟩
  | object _ ih =>
    obtain ⟨ts, hlex, hskips⟩ := ih
    have hall := lexes_openObject.append
      (LexesBefore.append_mark hlex (by decide) lexes_closeObject)
    refine ⟨_, hall.upTo, fun fs rest => ?_⟩
    have hinside := (hskips fs rest).2
    constructor <;> simpa [skipFrom] using hinside
  | element hbefore _ hafter ih =>
    obtain ⟨ts, hlex, hskips⟩ := ih
    exact ⟨ts, .after (lexes_spaces hbefore) (LexesUpTo.append_spaces hlex hafter), hskips⟩
  | last _ ih =>
    obtain ⟨ts, hlex, hskips⟩ := ih
    refine ⟨ts, hlex, fun fs rest => ?_⟩
    have hend := hskips (.array :: fs) (.closeArray :: rest)
    rwa [afterValue, afterValue_closeArray] at hend
  | more _ _ ih ih' =>
    obtain ⟨ts, hlex, hskips⟩ := ih
    obtain ⟨ts', hlex', hskips'⟩ := ih'
    have hcomma := LexesBefore.append_mark hlex (by decide) lexes_comma
    have hall := LexesBefore.after hcomma hlex'
    simp only [List.append_assoc, List.singleton_append] at hall
    refine ⟨_, hall, fun fs rest => ?_⟩
    have hfirst := hskips (.array :: fs) (.comma :: (ts' ++ .closeArray :: rest))
    have hrest : afterValue (.array :: fs) (.comma :: (ts' ++ .closeArray :: rest))
        = afterValue fs rest := (hskips' fs rest).1
    rw [hrest] at hfirst
    simpa using hfirst
  | member hbefore hkey hafter _ ih =>
    obtain ⟨ts, hlex, hskips⟩ := ih
    obtain ⟨chars, hchars⟩ := lexes_body hkey
    have hname := ((lexes_spaces hbefore).append hchars).append (lexes_spaces hafter)
    refine ⟨_, LexesBefore.after hname (.after lexes_colon hlex), fun fs rest => ?_⟩
    have hvalue := (hskips (.object :: fs) rest).1
    exact ⟨hvalue, hvalue⟩
  | lastMember _ ih =>
    obtain ⟨ts, hlex, hskips⟩ := ih
    refine ⟨ts, hlex, fun fs rest => ?_⟩
    have hend := hskips fs (.closeObject :: rest)
    rwa [afterValue, afterValue_closeObject] at hend
  | moreMembers _ _ ih ih' =>
    obtain ⟨ts, hlex, hskips⟩ := ih
    obtain ⟨ts', hlex', hskips'⟩ := ih'
    have hcomma := LexesBefore.append_mark hlex (by decide) lexes_comma
    have hall := LexesBefore.after hcomma hlex'
    simp only [List.append_assoc, List.singleton_append] at hall
    refine ⟨_, hall, fun fs rest => ?_⟩
    have hfirst := hskips fs (.comma :: (ts' ++ .closeObject :: rest))
    have hrest : afterValue (.object :: fs) (.comma :: (ts' ++ .closeObject :: rest))
        = afterValue fs rest := (hskips' fs rest).1
    rw [hrest] at hfirst
    simpa using hfirst

/-- A value of any shape is read as tokens that are skipped as one value. -/
theorem Derives.skip_eq {cs : List Char} (h : Derives .value cs) :
    ∃ ts, LexesUpTo cs ts ∧ ∀ rest, skip (ts ++ rest) = some rest := by
  obtain ⟨ts, hlex, hskips⟩ := h.readAs
  exact ⟨ts, hlex, fun rest => (hskips [] rest).1⟩

/-! ## Objects -/

section Objects

variable {ms : List (String × List Char)} {cs : List Char}
  {tokens : String × List Char → List Token}

theorem lexesBefore_memberText {name : String} {value : List Char} {ts : List Token}
    (hvalue : LexesUpTo value ts) (h : MemberText name value cs) :
    LexesBefore cs (memberTokens (name, ts)) := by
  obtain ⟨before, key, between, start, after, hbefore, hkey, hbetween, hstart, hafter, rfl⟩ := h
  have hname := ((lexes_spaces hbefore).append (lexes_stringText hkey)).append
    (lexes_spaces hbetween)
  exact .after hname (.after lexes_colon
    (.after (lexes_spaces hstart) (hvalue.append_spaces hafter)))

theorem lexesBefore_membersText (hvalues : ∀ m ∈ ms, LexesUpTo m.2 (tokens m))
    (h : MembersText ms cs) :
    LexesBefore cs (commaTokens ((ms.map fun m => (m.1, tokens m)).map memberTokens)) := by
  induction h with
  | last h => exact lexesBefore_memberText (hvalues _ (by simp)) h
  | @more name value cs cs' ms h h' ih =>
    have hfirst := lexesBefore_memberText (hvalues (name, value) (by simp)) h
    have hrest := ih fun m hm => hvalues m (by simp [hm])
    have hall := LexesBefore.after (hfirst.append_mark (by decide) lexes_comma) hrest
    rw [List.append_assoc, List.append_assoc] at hall
    cases h' <;> exact hall

/-- The tokens of an object are those of its members. -/
theorem lexes_objectText (hvalues : ∀ m ∈ ms, LexesUpTo m.2 (tokens m)) (h : ObjectText ms cs) :
    Lexes cs (objectTokens (ms.map fun m => (m.1, tokens m))) := by
  cases h with
  | empty hbefore h hafter =>
    have hinside := lexes_openObject.append ((lexes_spaces h).append
      (lexes_closeObject.append (lexes_spaces hafter)))
    exact (lexes_spaces hbefore).append hinside
  | members hbefore h hafter =>
    have hclosed := (lexesBefore_membersText hvalues h).append_mark (by decide) lexes_closeObject
    have hinside := (lexes_openObject.append hclosed).append (lexes_spaces hafter)
    have hall := (lexes_spaces hbefore).append hinside
    simpa [objectTokens] using hall

end Objects

end TaskBoard.Json
