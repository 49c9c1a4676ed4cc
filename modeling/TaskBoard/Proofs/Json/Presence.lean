import Mathlib.Data.List.Induction
import Mathlib.Tactic.Choose
import Mathlib.Tactic.Tauto
import TaskBoard.Proofs.Json.Grammar

/-!
# Records read by the names that are there

The members of an object come in any order, with others between them. What has been gathered after
some of them is told by their names alone: `parts names` are the parts of a record when the members
of these names have been read. `Record.Takes` is what one more member does to them.

* `Record.gathers_names`: the members one after the other gather the parts of their names;
* `Record.decode_of_takes`: an object whose members are all taken is decoded as the value of its
  parts, in any order and with any white space;
* `Record.decode_twice`: an object with a second member of a known name is refused.
-/

namespace TaskBoard.Json

/-- A reader that fails on the tokens of a text fails on the text. -/
theorem Reader.decode_error {α : Type} {read : Reader α} {cs : List Char} {ts : List Token}
    {e : Error} (hlex : Lexes cs ts) (hread : read ts = .error e) :
    read.decode (cs.map .char) = .error e := by
  simp [Reader.decode, hlex.tokens_eq, hread, bind, Except.bind]

namespace Record

variable {σ α β : Type} {r : Record σ α} {parts : List String → σ} {key : String}
  {seen : List String} {ts : List Token}

/-- The names of the members. -/
def keys (r : Record σ α) : List String := r.members.map (·.name)

/-- A member of this name and these tokens is taken, if it has not been taken before; only a member
that the record does not know may come again. -/
def Takes (r : Record σ α) (parts : List String → σ) (key : String) (ts : List Token) : Prop :=
  ∀ seen, (key ∈ r.keys → key ∉ seen) → ∀ rest,
    r.readMember key.toList (parts seen) (.colon :: (ts ++ rest))
      = .ok (parts (seen ++ [key]), rest)

/-- A member that the record knows is taken as its own value. -/
theorem takes_of_reads {read : Reader β} {get : σ → Option β} {put : σ → β → σ} {optional : Bool}
    {value : β}
    (hfind : (r.members.find? fun m => m.name.toList == key.toList)
      = some (.of key read get put optional))
    (hget : ∀ seen, key ∉ seen → get (parts seen) = none)
    (hput : ∀ seen, put (parts seen) value = parts (seen ++ [key]))
    (hread : Reads read ts value) : r.Takes parts key ts := by
  intro seen hnew rest
  have hknown : key ∈ r.keys :=
    List.mem_map.2 ⟨_, List.mem_of_find?_eq_some hfind, rfl⟩
  rw [readMember_eq hfind (hget seen (hnew hknown)) hread, hput]

theorem find?_eq_none (hkey : key ∉ r.keys) :
    (r.members.find? fun m => m.name.toList == key.toList) = none := by
  rw [List.find?_eq_none]
  intro m hm heq
  have hname : m.name = key := String.toList_injective (by simpa using heq)
  exact hkey (List.mem_map.2 ⟨m, hm, hname⟩)

/-- A key that the record knows is found, as the member of its name. -/
theorem exists_find? (hkey : key ∈ r.keys) : ∃ m ∈ r.members, m.name = key
    ∧ (r.members.find? fun m => m.name.toList == key.toList) = some m := by
  obtain ⟨known, hmem, hname⟩ := List.mem_map.1 hkey
  have hsome : (r.members.find? fun m => m.name.toList == key.toList).isSome = true :=
    List.find?_isSome.2 ⟨known, hmem, by simp [hname]⟩
  obtain ⟨m, hm⟩ := Option.isSome_iff_exists.1 hsome
  have hfound := List.find?_some hm
  exact ⟨m, List.mem_of_find?_eq_some hm, String.toList_injective (by simpa using hfound), hm⟩

/-- A member that the record does not know is skipped, whatever value it has. -/
theorem takes_of_skip (hkey : key ∉ r.keys) (hparts : ∀ seen, parts (seen ++ [key]) = parts seen)
    (hskip : ∀ rest, skip (ts ++ rest) = some rest) : r.Takes parts key ts := by
  intro seen _ rest
  simp only [readMember, find?_eq_none hkey, hskip, hparts]

/-- Members that are taken one after the other gather the parts of their names, up to any of
them. -/
theorem gathers_names {ms before after : List (String × List Char)}
    {tokens : String × List Char → List Token}
    (htakes : ∀ m ∈ ms, r.Takes parts m.1 (tokens m))
    (honce : ∀ key ∈ r.keys, (ms.map Prod.fst).count key ≤ 1) (hms : ms = before ++ after) :
    r.Gathers (before.map fun m => (m.1, tokens m)) (parts []) (parts (before.map Prod.fst)) := by
  induction before using List.reverseRecOn generalizing after with
  | nil => exact .nil _
  | append_singleton before m ih =>
    have hsplit : ms = before ++ m :: after := by simpa using hms
    have hbefore := ih hsplit
    have hnew : m.1 ∈ r.keys → m.1 ∉ before.map Prod.fst := by
      intro hknown hmem
      have hcount := honce m.1 hknown
      have hpos := List.count_pos_iff.2 hmem
      simp only [hms, List.map_append, List.map_cons, List.count_append, List.count_cons,
        List.map_nil, List.count_nil] at hcount
      simp at hcount
      omega
    have hlast : r.Gathers [(m.1, tokens m)] (parts (before.map Prod.fst))
        (parts (before.map Prod.fst ++ [m.1])) :=
      .cons (htakes m (by simp [hms]) _ hnew) (.nil _)
    simpa using hbefore.append hlast

/-! ## All members taken -/

/-- An object whose members are all taken is decoded as the value of its parts. -/
theorem decode_of_takes {ms : List (String × List Char)} {text : List Char} {a : α}
    (hstart : parts [] = r.start)
    (hmembers : ∀ m ∈ ms, ∃ ts, LexesUpTo m.2 ts ∧ r.Takes parts m.1 ts)
    (honce : ∀ key ∈ r.keys, (ms.map Prod.fst).count key ≤ 1)
    (hclose : r.close (parts (ms.map Prod.fst)) = .ok a) (htext : ObjectText ms text) :
    r.read.decode (text.map .char) = .ok a := by
  choose! tokens hlex htakes using hmembers
  have hgather := gathers_names htakes honce (List.append_nil ms).symm
  rw [hstart] at hgather
  exact (reads_object hgather hclose).decode_eq (lexes_objectText hlex htext)

/-! ## A member that comes twice -/

theorem exists_commaTokens_cons (part : List Token) (parts : List (List Token)) :
    ∃ tail, commaTokens (part :: parts) = part ++ tail := by
  cases parts with
  | nil => exact ⟨[], by simp [commaTokens]⟩
  | cons next parts => exact ⟨_, rfl⟩

/-- What is wrong with a member is wrong with all members. -/
theorem readMembers_error {ms ms' : List (String × List Token)} {m : String × List Token}
    {s s' : σ} {e : Error} (hgather : r.Gathers ms s s')
    (herror : ∀ ts, r.readMember m.1.toList s' (.colon :: (m.2 ++ ts)) = .error e) (fuel : Nat)
    (hfuel : ms.length < fuel) (ts : List Token) :
    r.readMembers fuel s (commaTokens ((ms ++ m :: ms').map memberTokens) ++ ts) = .error e := by
  induction hgather generalizing fuel with
  | nil s =>
    obtain ⟨fuel, rfl⟩ : ∃ n, fuel = n + 1 := ⟨fuel - 1, by simp at hfuel; omega⟩
    obtain ⟨tail, htail⟩ := exists_commaTokens_cons (memberTokens m) (ms'.map memberTokens)
    rw [List.nil_append, List.map_cons, htail]
    simp [memberTokens, readMembers, herror, bind, Except.bind]
  | @cons name value ms s s₁ s₂ hmember hrest ih =>
    obtain ⟨fuel, rfl⟩ : ∃ n, fuel = n + 1 := ⟨fuel - 1, by simp at hfuel; omega⟩
    have htail := ih herror fuel (by simpa using hfuel)
    have hcomma : commaTokens (((name, value) :: ms ++ m :: ms').map memberTokens)
        = memberTokens (name, value)
          ++ .comma :: commaTokens ((ms ++ m :: ms').map memberTokens) := by
      cases ms <;> rfl
    rw [hcomma]
    simpa [memberTokens, readMembers, hmember, bind, Except.bind] using htail

/-- An object with a wrong member is refused for what is wrong there. -/
theorem read_error {ms ms' : List (String × List Token)} {m : String × List Token} {s : σ}
    {e : Error} (hgather : r.Gathers ms r.start s)
    (herror : ∀ ts, r.readMember m.1.toList s (.colon :: (m.2 ++ ts)) = .error e) :
    r.read (objectTokens (ms ++ m :: ms')) = .error e := by
  have hlong : (ms ++ m :: ms').length
      ≤ (commaTokens ((ms ++ m :: ms').map memberTokens)).length := by
    have hle := length_le_length_commaTokens ((ms ++ m :: ms').map memberTokens) (by
      intro p hp
      obtain ⟨n, -, rfl⟩ := List.mem_map.1 hp
      exact List.cons_ne_nil _ _)
    simpa using hle
  let inside := commaTokens ((ms ++ m :: ms').map memberTokens) ++ [Token.closeObject]
  have hfuel : ms.length < inside.length := by
    simp only [inside, List.length_append, List.length_cons] at hlong ⊢
    omega
  have hall : r.readMembers inside.length r.start inside = .error e :=
    readMembers_error hgather herror inside.length hfuel [.closeObject]
  obtain ⟨key, tail, htail⟩ : ∃ key tail, inside = .string key :: tail := by
    cases ms with
    | nil =>
      obtain ⟨tail, htail⟩ := exists_commaTokens_cons (memberTokens m) (ms'.map memberTokens)
      exact ⟨_, _, by simp only [inside, List.nil_append, List.map_cons, htail]; rfl⟩
    | cons n ms =>
      obtain ⟨tail, htail⟩ :=
        exists_commaTokens_cons (memberTokens n) ((ms ++ m :: ms').map memberTokens)
      exact ⟨_, _, by simp only [inside, List.cons_append, List.map_cons, htail]; rfl⟩
  have htokens : objectTokens (ms ++ m :: ms') = .openObject :: inside := rfl
  rw [htokens]
  unfold read
  split
  · rename_i heq
    rw [htail] at heq
    cases heq
  · rename_i us _ heq
    rw [← (List.cons.inj heq).2]
    simp only [hall, bind, Except.bind]
  · rename_i heq
    cases heq
  · rename_i hno _
    exact absurd rfl (hno _)

/-- Once a member of a known name has been taken, another one is refused wherever it stands. -/
theorem decode_twice {before between after : List (String × List Char)}
    {first second : String × List Char} {text : List Char} (hstart : parts [] = r.start)
    (hmembers : ∀ m ∈ before ++ first :: (between ++ after),
      ∃ ts, LexesUpTo m.2 ts ∧ r.Takes parts m.1 ts)
    (honce : ∀ key ∈ r.keys,
      ((before ++ first :: (between ++ after)).map Prod.fst).count key ≤ 1)
    (hgiven : ∀ m ∈ r.members, ∀ seen, m.name ∈ seen → m.given (parts seen) = true)
    (hknown : first.1 ∈ r.keys) (hkey : second.1 = first.1) (hsecond : Derives .value second.2)
    (htext : ObjectText (before ++ first :: (between ++ second :: after)) text) :
    r.read.decode (text.map .char) = .error (.shape [] (.duplicate first.1)) := by
  -- the second one may be any value, so it has tokens, but nothing takes them
  have htokens : ∀ m, m ∈ before ++ first :: (between ++ second :: after) →
      ∃ ts, LexesUpTo m.2 ts ∧ (m ∈ before ++ first :: (between ++ after) →
        r.Takes parts m.1 ts) := by
    intro m hm
    by_cases hvalid : m ∈ before ++ first :: (between ++ after)
    · obtain ⟨ts, hlex, htakes⟩ := hmembers m hvalid
      exact ⟨ts, hlex, fun _ => htakes⟩
    · obtain rfl : m = second := by
        simp only [List.mem_append, List.mem_cons, not_or] at hm hvalid
        tauto
      obtain ⟨ts, hlex, -⟩ := hsecond.skip_eq
      exact ⟨ts, hlex, fun h => absurd h hvalid⟩
  choose! tokens hlex htakes using htokens
  have hsplit : before ++ first :: (between ++ after) = (before ++ first :: between) ++ after := by
    simp
  have hvalid : ∀ m ∈ before ++ first :: (between ++ after), r.Takes parts m.1 (tokens m) :=
    fun m hm => htakes m (by simp at hm ⊢; tauto) hm
  have hgather := gathers_names hvalid honce hsplit
  rw [hstart] at hgather
  obtain ⟨known, hmem, hname, hfind⟩ := exists_find? hknown
  have hthere : known.given (parts ((before ++ first :: between).map Prod.fst)) = true :=
    hgiven known hmem _ (by simp [hname])
  have herror : ∀ ts, r.readMember second.1.toList
      (parts ((before ++ first :: between).map Prod.fst)) (.colon :: (tokens second ++ ts))
      = .error (wrong (.duplicate first.1)) := by
    intro ts
    simp only [readMember, hkey, hfind, hthere, if_true, hname]
  have hread : r.read (objectTokens ((before ++ first :: between).map (fun m => (m.1, tokens m))
      ++ (second.1, tokens second) :: after.map fun m => (m.1, tokens m)))
      = .error (wrong (.duplicate first.1)) := read_error hgather herror
  refine Reader.decode_error (lexes_objectText hlex htext) ?_
  simpa [wrong] using hread

end Record

end TaskBoard.Json
