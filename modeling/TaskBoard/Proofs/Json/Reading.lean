import TaskBoard.Json.Reader
import TaskBoard.Proofs.Instant.RoundTrip
import TaskBoard.Proofs.Json.Lexing

/-!
# Readers take back what was written

`Reads read tokens a` says that the reader takes exactly these tokens, whatever follows them, and
makes them the value `a`. An object is taken member by member: `Gathers` follows the parts of a
record from one member to the next.

* `reads_list`: a list of values that are taken back is taken back;
* `Record.reads_object`: so is an object whose members gather the parts of a value;
* `Reads.decode_eq`: reading the whole text of such a value gives the value.
-/

namespace TaskBoard.Json

open Text

/-- The reader takes these tokens off the front of any others and makes them the value. -/
def Reads {α : Type} (read : Reader α) (tokens : List Token) (a : α) : Prop :=
  ∀ ts, read (tokens ++ ts) = .ok (a, ts)

/-- A text of these tokens and no others is decoded as the value. -/
theorem Reads.decode_eq {α : Type} {read : Reader α} {cs : List Char} {ts : List Token} {a : α}
    (hread : Reads read ts a) (hlex : Lexes cs ts) :
    read.decode (cs.map Symbol.char) = .ok a := by
  have hall : read ts = .ok (a, []) := by simpa using hread []
  simp [Reader.decode, hlex.tokens_eq, hall, bind, Except.bind]

/-! ## Single tokens -/

theorem reads_string (s : String) : Reads readString [.string (some s.toList)] s := by
  intro ts
  simp [readString]

theorem reads_bool (b : Bool) : Reads readBool [.bool b] b := fun _ => rfl

theorem reads_instant (t : Instant) : Reads readInstant [.string (some t.text.toList)] t := by
  intro ts
  simp [readInstant, Instant.text, Instant.read_print]

/-- A value that is one token, and that is not null, is taken back where null may stand. -/
theorem reads_option_some {α : Type} {read : Reader α} {t : Token} {a : α}
    (hread : Reads read [t] a) (hnull : t ≠ .null) : Reads (readOption read) [t] (some a) := by
  intro ts
  have ha : read (t :: ts) = .ok (a, ts) := hread ts
  rw [List.singleton_append]
  unfold readOption
  split
  · rename_i heq
    exact absurd (List.cons.inj heq).1 hnull
  · rw [ha]
    rfl

/-- A value or null is taken back if a value is one token and that is not null. -/
theorem reads_option {α : Type} {read : Reader α} (token : α → Token)
    (hread : ∀ a, Reads read [token a] a) (hnull : ∀ a, token a ≠ .null) (o : Option α) :
    Reads (readOption read) [o.elim .null token] o := by
  cases o with
  | none => exact fun _ => rfl
  | some a => exact reads_option_some (hread a) (hnull a)

@[simp] theorem located_ok {α : Type} (step : Step) (a : α) :
    located step (.ok a : Except Error α) = .ok a := rfl

/-! ## Lists -/

/-- The elements after the first ones are taken up to the end of the array. -/
theorem readElements_eq {α : Type} {read : Reader α} {tokens : α → List Token} (a : α)
    (as : List α) (hread : ∀ b ∈ a :: as, Reads read (tokens b) b) (fuel index : Nat)
    (hfuel : as.length < fuel) (before : List α) (ts : List Token) :
    readElements read fuel index before
        (commaTokens ((a :: as).map tokens) ++ .closeArray :: ts)
      = .ok (before.reverse ++ a :: as, ts) := by
  induction as generalizing a fuel index before with
  | nil =>
    obtain ⟨fuel, rfl⟩ : ∃ n, fuel = n + 1 := ⟨fuel - 1, by simp at hfuel; omega⟩
    have ha := hread a (by simp) (.closeArray :: ts)
    simp only [List.map_cons, List.map_nil, commaTokens, readElements, ha, located_ok]
    simp [bind, Except.bind]
  | cons b as ih =>
    obtain ⟨fuel, rfl⟩ : ∃ n, fuel = n + 1 := ⟨fuel - 1, by simp at hfuel; omega⟩
    have ha := hread a (by simp)
      (.comma :: (commaTokens ((b :: as).map tokens) ++ .closeArray :: ts))
    have hrest := ih b (fun c hc => hread c (by simp [hc])) fuel (index + 1)
      (by simpa using hfuel) (a :: before)
    have hsplit : commaTokens ((a :: b :: as).map tokens) ++ .closeArray :: ts
        = tokens a ++ (.comma :: (commaTokens ((b :: as).map tokens) ++ .closeArray :: ts)) := by
      simp [commaTokens]
    rw [hsplit]
    simp only [readElements, ha, located_ok]
    simpa [bind, Except.bind] using hrest

/-- Tokens with commas between them are at least as many as the parts, if no part is empty. -/
theorem length_le_length_commaTokens (parts : List (List Token)) (hparts : ∀ p ∈ parts, p ≠ []) :
    parts.length ≤ (commaTokens parts).length := by
  induction parts with
  | nil => simp
  | cons p parts ih =>
    have hp : 1 ≤ p.length := List.length_pos_iff.2 (hparts p (by simp))
    have hrest := ih fun q hq => hparts q (by simp [hq])
    cases parts with
    | nil => simpa [commaTokens] using hp
    | cons q parts =>
      simp only [commaTokens, List.length_cons, List.length_append] at hrest ⊢
      omega

/-- A list is taken back if its elements are, and no element begins like the end of the list. -/
theorem reads_list {α : Type} {read : Reader α} {tokens : α → List Token} {as : List α}
    (hread : ∀ a ∈ as, Reads read (tokens a) a)
    (hopen : ∀ a ∈ as, ∃ t ts, tokens a = t :: ts ∧ t ≠ .closeArray) :
    Reads (readList read) (arrayTokens (as.map tokens)) as := by
  intro ts
  cases as with
  | nil => rfl
  | cons a as =>
    obtain ⟨t, rest, ht, hne⟩ := hopen a (by simp)
    obtain ⟨tail, htail⟩ : ∃ tail,
        commaTokens ((a :: as).map tokens) ++ Token.closeArray :: ts = t :: tail := by
      cases as <;> simp [commaTokens, ht]
    have hlong : (a :: as).length ≤ (commaTokens ((a :: as).map tokens)).length := by
      have hle := length_le_length_commaTokens ((a :: as).map tokens) (by
        intro p hp
        obtain ⟨b, hb, rfl⟩ := List.mem_map.1 hp
        obtain ⟨u, us, hu, -⟩ := hopen b hb
        rw [hu]
        exact List.cons_ne_nil u us)
      simpa using hle
    have hall := readElements_eq a as hread
      (commaTokens ((a :: as).map tokens) ++ Token.closeArray :: ts).length 0
      (by simp only [List.length_append, List.length_cons] at hlong ⊢; omega) [] ts
    have htokens : arrayTokens ((a :: as).map tokens) ++ ts
        = .openArray :: (commaTokens ((a :: as).map tokens) ++ .closeArray :: ts) := by
      simp [arrayTokens]
    rw [htokens]
    unfold readList
    split
    · rename_i heq
      rw [htail] at heq
      exact absurd (List.cons.inj (List.cons.inj heq).2).1 hne
    · rename_i us _ heq
      rw [← (List.cons.inj heq).2]
      exact hall
    · rename_i hno
      exact absurd rfl (hno _)

/-! ## Records -/

namespace Record

variable {σ α : Type}

/-- Reading these members of an object one after the other takes the parts `s` to `s'`. -/
inductive Gathers (r : Record σ α) : List (String × List Token) → σ → σ → Prop where
  | nil (s : σ) : Gathers r [] s s
  | cons {name : String} {value : List Token} {ms : List (String × List Token)} {s s₁ s₂ : σ}
      (hmember : ∀ ts, r.readMember name.toList s (.colon :: (value ++ ts)) = .ok (s₁, ts))
      (hrest : Gathers r ms s₁ s₂) : Gathers r ((name, value) :: ms) s s₂

theorem Gathers.append {r : Record σ α} {ms ms' : List (String × List Token)} {s s₁ s₂ : σ}
    (h : r.Gathers ms s s₁) (h' : r.Gathers ms' s₁ s₂) : r.Gathers (ms ++ ms') s s₂ := by
  induction h with
  | nil s => exact h'
  | cons hmember hrest ih => exact .cons hmember (ih h')

/-- A member of a known name that is not given yet is read by its own reader. -/
theorem readMember_eq {β : Type} {r : Record σ α} {name : String} {read : Reader β}
    {get : σ → Option β} {put : σ → β → σ} {optional : Bool} {s : σ} {value : List Token} {b : β}
    (hfind : (r.members.find? fun m => m.name.toList == name.toList)
      = some (.of name read get put optional))
    (hgiven : get s = none) (hread : Reads read value b) (ts : List Token) :
    r.readMember name.toList s (.colon :: (value ++ ts)) = .ok (put s b, ts) := by
  simp [readMember, hfind, Member.of, hgiven, hread ts, Except.map]

/-- Members that gather the parts are read up to the end of the object. -/
theorem readMembers_eq {r : Record σ α} {m : String × List Token}
    {ms : List (String × List Token)} {s s' : σ} (hgather : Gathers r (m :: ms) s s') (fuel : Nat)
    (hfuel : ms.length < fuel) (ts : List Token) :
    r.readMembers fuel s (commaTokens ((m :: ms).map memberTokens) ++ .closeObject :: ts)
      = .ok (s', ts) := by
  induction ms generalizing m s fuel with
  | nil =>
    obtain ⟨fuel, rfl⟩ : ∃ n, fuel = n + 1 := ⟨fuel - 1, by simp at hfuel; omega⟩
    cases hgather with
    | cons hmember hrest =>
      cases hrest
      simp [commaTokens, memberTokens, readMembers, hmember, bind, Except.bind]
  | cons n ms ih =>
    obtain ⟨fuel, rfl⟩ : ∃ n, fuel = n + 1 := ⟨fuel - 1, by simp at hfuel; omega⟩
    cases hgather with
    | cons hmember hrest =>
      have htail := ih hrest fuel (by simpa using hfuel)
      simp only [List.map_cons, commaTokens, memberTokens, List.cons_append, List.append_assoc,
        readMembers, hmember]
      simpa [bind, Except.bind, memberTokens] using htail

/-- An object whose members gather the parts of a value is read as the value. -/
theorem reads_object {r : Record σ α} {ms : List (String × List Token)} {s : σ} {a : α}
    (hgather : Gathers r ms r.start s) (hclose : r.close s = .ok a) :
    Reads r.read (objectTokens ms) a := by
  intro ts
  cases ms with
  | nil =>
    cases hgather
    simp [objectTokens, commaTokens, read, hclose, Except.map]
  | cons m ms =>
    have hlong : (m :: ms).length ≤ (commaTokens ((m :: ms).map memberTokens)).length := by
      have hle := length_le_length_commaTokens ((m :: ms).map memberTokens) (by
        intro p hp
        obtain ⟨n, -, rfl⟩ := List.mem_map.1 hp
        exact List.cons_ne_nil _ _)
      simpa using hle
    have hall := readMembers_eq hgather
      (commaTokens ((m :: ms).map memberTokens) ++ Token.closeObject :: ts).length
      (by simp only [List.length_append, List.length_cons] at hlong ⊢; omega) ts
    obtain ⟨key, tail, htail⟩ : ∃ key tail,
        commaTokens ((m :: ms).map memberTokens) ++ Token.closeObject :: ts
          = .string key :: tail := by
      cases ms <;> simp [commaTokens, memberTokens]
    have htokens : objectTokens (m :: ms) ++ ts
        = .openObject :: (commaTokens ((m :: ms).map memberTokens) ++ .closeObject :: ts) := by
      simp [objectTokens]
    rw [htokens]
    unfold read
    split
    · rename_i heq
      rw [htail] at heq
      exact absurd (List.cons.inj (List.cons.inj heq).2).1 (by simp)
    · rename_i us _ heq
      rw [← (List.cons.inj heq).2]
      simp only [hall, hclose, bind, Except.bind]
    · rename_i heq
      exact absurd (List.cons.inj heq).1 (by simp)
    · rename_i hno _
      exact absurd rfl (hno _)

end Record

end TaskBoard.Json
