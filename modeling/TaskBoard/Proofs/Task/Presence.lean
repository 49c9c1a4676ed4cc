import TaskBoard.Proofs.Json.Presence
import TaskBoard.Proofs.Task.Requests

/-!
# Requests decoded by the keys that are there

A request is told by the keys of its object: what they stand for, and that they are there. Their
order, the white space, the way in which strings are escaped and all members of other keys do not
matter. `SpelledBy` says of a request which members may stand for it, and `ObjectText` which texts
may stand for the members.

* `UpdateRequest.takes_of_spelledBy`, `CreateRequest.takes_of_spelledBy`: one member at a time;
* `decode_by_presence`: every such text is decoded as the request, and none with a second member of
  a known key is decoded at all.
-/

namespace TaskBoard

open Json

variable {α β : Type}

/-! ## Members that stand for a request -/

/-- The values that stand under a key. -/
def valuesOf (key : String) (ms : List (String × List Char)) : List (List Char) :=
  (ms.filter fun m => m.1 == key).map Prod.snd

/-- A value that is there stands under its key once; none is nothing there, or null. -/
def GivenOption (Text : α → List Char → Prop) : Option α → List (List Char) → Prop
  | none, values => values = [] ∨ values = ["null".toList]
  | some a, values => ∃ value, values = [value] ∧ Text a value

/-- A field that is kept is not there, one that is emptied is null. -/
def GivenChange (Text : α → List Char → Prop) : Change α → List (List Char) → Prop
  | .keep, values => values = []
  | .clear, values => values = ["null".toList]
  | .set a, values => ∃ value, values = [value] ∧ Text a value

/-- A truth value. -/
def BoolText (b : Bool) (cs : List Char) : Prop := cs = (if b then "true" else "false").toList

/-- An instant, as a string that is read as this instant. -/
def InstantText (t : Instant) (cs : List Char) : Prop :=
  ∃ s, StringText s cs ∧ Instant.read s.toList = .ok t

/-- The keys of an update request. -/
def UpdateRequest.keys : List String :=
  ["title", "description", "assignee", "completed", "due_date"]

/-- The members that may stand for an update request, in any order and with any others. Its due date
is written as `DateText` says. -/
structure UpdateRequest.SpelledBy (r : UpdateRequest) (DateText : Instant → List Char → Prop)
    (ms : List (String × List Char)) : Prop where
  title : GivenOption StringText r.title (valuesOf "title" ms)
  description : GivenChange StringText r.description (valuesOf "description" ms)
  assignee : GivenChange StringText r.assignee (valuesOf "assignee" ms)
  completed : GivenOption BoolText r.completed (valuesOf "completed" ms)
  dueDate : GivenChange DateText r.dueDate (valuesOf "due_date" ms)
  others : ∀ m ∈ ms, m.1 ∉ UpdateRequest.keys → Derives .value m.2

/-- The keys of a create request. -/
def CreateRequest.keys : List String := ["title", "description", "assignee", "due_date"]

/-- The members that may stand for a create request, in any order and with any others. Its due date
is written as `DateText` says. -/
structure CreateRequest.SpelledBy (r : CreateRequest) (DateText : Instant → List Char → Prop)
    (ms : List (String × List Char)) : Prop where
  title : ∃ value, valuesOf "title" ms = [value] ∧ StringText r.title value
  description : GivenOption StringText r.description (valuesOf "description" ms)
  assignee : GivenOption StringText r.assignee (valuesOf "assignee" ms)
  dueDate : GivenOption DateText r.dueDate (valuesOf "due_date" ms)
  others : ∀ m ∈ ms, m.1 ∉ CreateRequest.keys → Derives .value m.2

/-! ## Other ways to write a date -/

section Dates

variable {Text Text' : α → List Char → Prop} {values : List (List Char)}
  {DateText DateText' : Instant → List Char → Prop} {ms : List (String × List Char)}

theorem GivenOption.mono {o : Option α} (h : GivenOption Text o values)
    (htext : ∀ a value, Text a value → Text' a value) : GivenOption Text' o values := by
  cases o with
  | none => exact h
  | some a =>
    obtain ⟨value, hvalue, ha⟩ := h
    exact ⟨value, hvalue, htext a value ha⟩

theorem GivenChange.mono {c : Change α} (h : GivenChange Text c values)
    (htext : ∀ a value, Text a value → Text' a value) : GivenChange Text' c values := by
  cases c with
  | keep => exact h
  | clear => exact h
  | set a =>
    obtain ⟨value, hvalue, ha⟩ := h
    exact ⟨value, hvalue, htext a value ha⟩

theorem UpdateRequest.SpelledBy.mono {r : UpdateRequest} (h : r.SpelledBy DateText ms)
    (htext : ∀ t value, DateText t value → DateText' t value) : r.SpelledBy DateText' ms :=
  { h with dueDate := h.dueDate.mono htext }

theorem CreateRequest.SpelledBy.mono {r : CreateRequest} (h : r.SpelledBy DateText ms)
    (htext : ∀ t value, DateText t value → DateText' t value) : r.SpelledBy DateText' ms :=
  { h with dueDate := h.dueDate.mono htext }

end Dates

/-! ## What is written is one of the spellings -/

/-- A string as it is written. -/
theorem stringText_writeString (s : String) : StringText s (writeString s) := by
  have hchar : ∀ c, CharText c (escapeChar c) := by
    intro c
    unfold escapeChar
    split
    · exact .escape (by decide)
    · exact .escape (by decide)
    · exact .escape (by decide)
    · exact .escape (by decide)
    · exact .escape (by decide)
    · exact .escape (by decide)
    · exact .escape (by decide)
    · rename_i hquote hbackslash _ _ _ _ _
      by_cases hc : c.toNat < 0x20
      · rw [if_pos hc]
        obtain ⟨a, as, hpair, ha, has⟩ := List.map_eq_cons_iff.1 (hexPair_digits c.toNat hc)
        obtain ⟨b, bs, rfl, hb, hbs⟩ := List.map_eq_cons_iff.1 has
        obtain rfl : bs = [] := List.map_eq_nil_iff.1 hbs
        have hzero : Text.hexValue? '0' = some 0 := by decide
        have hunit := UnitText.mk hzero hzero ha hb
        have hwhole : ((0 * 16 + 0) * 16 + c.toNat / 16) * 16 + c.toNat % 16 = c.toNat := by omega
        rw [hpair]
        rw [hwhole] at hunit
        exact .unit hunit
      · rw [if_neg hc]
        exact .plain (Nat.not_lt.1 hc) hquote hbackslash
  have hchars : ∀ cs, CharsText cs (cs.flatMap escapeChar) := by
    intro cs
    induction cs with
    | nil => exact .nil
    | cons c cs ih => exact .cons (hchar c) ih
  exact ⟨_, hchars s.toList, rfl⟩

/-! ## Values that are read -/

/-- A value that is one token, and that is not null. -/
def OneToken (read : Reader α) (a : α) (value : List Char) : Prop :=
  ∃ t, LexesUpTo value [t] ∧ Reads read [t] a ∧ t ≠ .null

theorem oneToken_string {s : String} {value : List Char} (h : StringText s value) :
    OneToken readString s value :=
  ⟨_, (lexes_stringText h).upTo, reads_string s, by simp⟩

theorem oneToken_bool {b : Bool} {value : List Char} (h : BoolText b value) :
    OneToken readBool b value := by
  obtain rfl : value = writeBool b := by
    rw [h]
    cases b <;> rfl
  exact ⟨_, (lexes_writeBool b).upTo, reads_bool b, by simp⟩

theorem oneToken_instant {t : Instant} {value : List Char} (h : InstantText t value) :
    OneToken readInstant t value := by
  obtain ⟨s, hs, hread⟩ := h
  refine ⟨_, (lexes_stringText hs).upTo, fun ts => ?_, by simp⟩
  simp [readInstant, hread]

/-- The values under a key of a record: at most one, and that is read as the value of the field. -/
structure Given (read : Reader β) (b : β) (values : List (List Char)) : Prop where
  one : values.length ≤ 1
  reads : ∀ value ∈ values, ∃ ts, LexesUpTo value ts ∧ Reads read ts b

section Given

variable {Text : α → List Char → Prop} {read : Reader α} {values : List (List Char)}
  (htext : ∀ {a value}, Text a value → OneToken read a value)

include htext

theorem given_one {a : α} (h : ∃ value, values = [value] ∧ Text a value) : Given read a values := by
  obtain ⟨value, rfl, ha⟩ := h
  obtain ⟨t, hlex, hread, -⟩ := htext ha
  refine ⟨Nat.le_refl _, fun v hv => ?_⟩
  rw [List.mem_singleton.1 hv]
  exact ⟨_, hlex, hread⟩

theorem GivenOption.given {o : Option α} (h : GivenOption Text o values) :
    Given (readOption read) o values := by
  have hnull : Given (readOption read) none ["null".toList] := by
    refine ⟨Nat.le_refl _, fun v hv => ?_⟩
    rw [List.mem_singleton.1 hv]
    exact ⟨_, lexes_null.upTo, fun _ => rfl⟩
  cases o with
  | none =>
    rcases h with rfl | rfl
    · exact ⟨Nat.zero_le _, by simp⟩
    · exact hnull
  | some a =>
    obtain ⟨value, rfl, ha⟩ := h
    obtain ⟨t, hlex, hread, ht⟩ := htext ha
    refine ⟨Nat.le_refl _, fun v hv => ?_⟩
    rw [List.mem_singleton.1 hv]
    exact ⟨_, hlex, reads_option_some hread ht⟩

theorem GivenChange.given {c : Change α} (h : GivenChange Text c values) :
    Given (Change.reader read) c values := by
  have hoption : ∀ o, GivenOption Text o values →
      Given (Change.reader read) (.ofOption o) values := by
    intro o ho
    obtain ⟨hone, hreads⟩ := ho.given htext
    refine ⟨hone, fun value hvalue => ?_⟩
    obtain ⟨ts, hlex, hread⟩ := hreads value hvalue
    refine ⟨ts, hlex, fun rest => ?_⟩
    rw [Change.reader, hread rest]
    rfl
  cases c with
  | keep =>
    cases h
    exact ⟨Nat.zero_le _, by simp⟩
  | clear => exact hoption none (.inr h)
  | set a => exact hoption (some a) h

end Given

theorem GivenOption.eq_none {Text : α → List Char → Prop} {o : Option α}
    (h : GivenOption Text o []) : o = none := by
  cases o with
  | none => rfl
  | some a =>
    obtain ⟨value, hvalue, -⟩ := h
    cases hvalue

theorem GivenChange.eq_keep {Text : α → List Char → Prop} {c : Change α}
    (h : GivenChange Text c []) : c = .keep := by
  cases c with
  | keep => rfl
  | clear => cases h
  | set a =>
    obtain ⟨value, hvalue, -⟩ := h
    cases hvalue

/-! ## Keys -/

section Keys

variable {key : String} {ms : List (String × List Char)} {m : String × List Char}

theorem length_valuesOf : (valuesOf key ms).length = (ms.map Prod.fst).count key := by
  rw [valuesOf, List.length_map, List.count, List.countP_map, List.countP_eq_length_filter]
  rfl

theorem mem_valuesOf (hm : m ∈ ms) (hkey : m.1 = key) : m.2 ∈ valuesOf key ms :=
  List.mem_map.2 ⟨m, List.mem_filter.2 ⟨hm, by simp [hkey]⟩, rfl⟩

/-- A key that is not there has no values. -/
theorem valuesOf_eq_nil (h : key ∉ ms.map Prod.fst) : valuesOf key ms = [] := by
  rw [← List.length_eq_zero_iff, length_valuesOf]
  exact List.count_eq_zero.2 h

/-- A member of a known key is taken as the value of its field. -/
theorem takes_of_given {σ γ : Type} {r : Record σ γ} {parts : List String → σ} {read : Reader β}
    {get : σ → Option β} {put : σ → β → σ} {optional : Bool} {b : β}
    (hgiven : Given read b (valuesOf key ms)) (hm : m ∈ ms) (hkey : m.1 = key)
    (hfind : (r.members.find? fun m => m.name.toList == key.toList)
      = some (.of key read get put optional))
    (hget : ∀ seen, key ∉ seen → get (parts seen) = none)
    (hput : ∀ seen, put (parts seen) b = parts (seen ++ [key])) :
    ∃ ts, LexesUpTo m.2 ts ∧ r.Takes parts m.1 ts := by
  obtain ⟨ts, hlex, hread⟩ := hgiven.reads m.2 (mem_valuesOf hm hkey)
  rw [hkey]
  exact ⟨ts, hlex, Record.takes_of_reads hfind hget hput hread⟩

/-- A field that takes its value if the key is there, and is empty anyway if it is not. -/
theorem getD_ite {names : List String} {b d : β} (h : key ∉ names → b = d) :
    (if key ∈ names then some b else none).getD d = b := by
  by_cases hkey : key ∈ names
  · rw [if_pos hkey]
    rfl
  · rw [if_neg hkey, h hkey]
    rfl

theorem join_ite {names : List String} {o : Option β} (h : key ∉ names → o = none) :
    (if key ∈ names then some o else none).join = o := by
  by_cases hkey : key ∈ names
  · rw [if_pos hkey]
    rfl
  · rw [if_neg hkey, h hkey]
    rfl

end Keys

/-! ## Update requests -/

namespace UpdateRequest

variable {r : UpdateRequest} {ms : List (String × List Char)}

/-- The parts of the request that have been read with these keys. -/
def partsOf (r : UpdateRequest) (seen : List String) : Parts where
  title := if "title" ∈ seen then some r.title else none
  description := if "description" ∈ seen then some r.description else none
  assignee := if "assignee" ∈ seen then some r.assignee else none
  completed := if "completed" ∈ seen then some r.completed else none
  dueDate := if "due_date" ∈ seen then some r.dueDate else none

/-- Each member of the object is taken as what it stands for. -/
theorem takes_of_spelledBy (h : r.SpelledBy InstantText ms) :
    ∀ m ∈ ms, ∃ ts, LexesUpTo m.2 ts ∧ record.Takes r.partsOf m.1 ts := by
  intro m hm
  by_cases hknown : m.1 ∈ keys
  · simp only [keys, List.mem_cons, List.not_mem_nil, or_false] at hknown
    rcases hknown with hkey | hkey | hkey | hkey | hkey
    · exact takes_of_given (h.title.given oneToken_string) hm hkey rfl
        (fun _ hnew => if_neg hnew) (by simp [partsOf])
    · exact takes_of_given (h.description.given oneToken_string) hm hkey rfl
        (fun _ hnew => if_neg hnew) (by simp [partsOf])
    · exact takes_of_given (h.assignee.given oneToken_string) hm hkey rfl
        (fun _ hnew => if_neg hnew) (by simp [partsOf])
    · exact takes_of_given (h.completed.given oneToken_bool) hm hkey rfl
        (fun _ hnew => if_neg hnew) (by simp [partsOf])
    · exact takes_of_given (h.dueDate.given oneToken_instant) hm hkey rfl
        (fun _ hnew => if_neg hnew) (by simp [partsOf])
  · obtain ⟨ts, hlex, hskip⟩ := (h.others m hm hknown).skip_eq
    have hparts : ∀ seen, r.partsOf (seen ++ [m.1]) = r.partsOf seen := by
      intro seen
      simp only [keys, List.mem_cons, List.not_mem_nil, or_false, not_or] at hknown
      simp [partsOf, Ne.symm hknown.1, Ne.symm hknown.2.1, Ne.symm hknown.2.2.1,
        Ne.symm hknown.2.2.2.1, Ne.symm hknown.2.2.2.2]
    exact ⟨ts, hlex, Record.takes_of_skip hknown hparts hskip⟩

/-- No known key comes twice. -/
theorem once_of_spelledBy (h : r.SpelledBy InstantText ms) :
    ∀ key ∈ record.keys, (ms.map Prod.fst).count key ≤ 1 := by
  intro key hkey
  have hkeys : key ∈ keys := hkey
  rw [← length_valuesOf]
  simp only [keys, List.mem_cons, List.not_mem_nil, or_false] at hkeys
  rcases hkeys with rfl | rfl | rfl | rfl | rfl
  · exact (h.title.given oneToken_string).one
  · exact (h.description.given oneToken_string).one
  · exact (h.assignee.given oneToken_string).one
  · exact (h.completed.given oneToken_bool).one
  · exact (h.dueDate.given oneToken_instant).one

/-- The parts of all keys are those of the request: what has no key there is not said. -/
theorem close_of_spelledBy (h : r.SpelledBy InstantText ms) :
    record.close (r.partsOf (ms.map Prod.fst)) = .ok r := by
  have htitle : "title" ∉ ms.map Prod.fst → r.title = none := fun hnew =>
    GivenOption.eq_none (valuesOf_eq_nil hnew ▸ h.title)
  have hdescription : "description" ∉ ms.map Prod.fst → r.description = .keep := fun hnew =>
    GivenChange.eq_keep (valuesOf_eq_nil hnew ▸ h.description)
  have hassignee : "assignee" ∉ ms.map Prod.fst → r.assignee = .keep := fun hnew =>
    GivenChange.eq_keep (valuesOf_eq_nil hnew ▸ h.assignee)
  have hcompleted : "completed" ∉ ms.map Prod.fst → r.completed = none := fun hnew =>
    GivenOption.eq_none (valuesOf_eq_nil hnew ▸ h.completed)
  have hdue : "due_date" ∉ ms.map Prod.fst → r.dueDate = .keep := fun hnew =>
    GivenChange.eq_keep (valuesOf_eq_nil hnew ▸ h.dueDate)
  have hrequest : (r.partsOf (ms.map Prod.fst)).toRequest = r := by
    simp only [Parts.toRequest, partsOf, join_ite htitle, getD_ite hdescription,
      getD_ite hassignee, join_ite hcompleted, getD_ite hdue]
  simp only [Record.close, record, hrequest]

/-- Every text that holds the members is decoded as the request. -/
theorem decode_of_spelledBy (h : r.SpelledBy InstantText ms) {text : List Char}
    (htext : ObjectText ms text) : reader.decode (text.map .char) = .ok r := by
  have hstart : r.partsOf [] = record.start := rfl
  exact Record.decode_of_takes hstart (takes_of_spelledBy h) (once_of_spelledBy h)
    (close_of_spelledBy h) htext

/-- A key that has been read is given. -/
theorem given_of_mem {m : Member Parts} (hm : m ∈ record.members) (seen : List String)
    (hseen : m.name ∈ seen) : m.given (r.partsOf seen) = true := by
  simp only [record, List.mem_cons, List.not_mem_nil, or_false] at hm
  rcases hm with rfl | rfl | rfl | rfl | rfl <;>
    · simp only [Member.of] at hseen
      simp [Member.of, partsOf, hseen]

end UpdateRequest

/-! ## Create requests -/

namespace CreateRequest

variable {r : CreateRequest} {ms : List (String × List Char)}

/-- The parts of the request that have been read with these keys. -/
def partsOf (r : CreateRequest) (seen : List String) : Parts where
  title := if "title" ∈ seen then some r.title else none
  description := if "description" ∈ seen then some r.description else none
  assignee := if "assignee" ∈ seen then some r.assignee else none
  dueDate := if "due_date" ∈ seen then some r.dueDate else none

/-- Each member of the object is taken as what it stands for. -/
theorem takes_of_spelledBy (h : r.SpelledBy InstantText ms) :
    ∀ m ∈ ms, ∃ ts, LexesUpTo m.2 ts ∧ record.Takes r.partsOf m.1 ts := by
  intro m hm
  by_cases hknown : m.1 ∈ keys
  · simp only [keys, List.mem_cons, List.not_mem_nil, or_false] at hknown
    rcases hknown with hkey | hkey | hkey | hkey
    · exact takes_of_given (given_one oneToken_string h.title) hm hkey rfl
        (fun _ hnew => if_neg hnew) (by simp [partsOf])
    · exact takes_of_given (h.description.given oneToken_string) hm hkey rfl
        (fun _ hnew => if_neg hnew) (by simp [partsOf])
    · exact takes_of_given (h.assignee.given oneToken_string) hm hkey rfl
        (fun _ hnew => if_neg hnew) (by simp [partsOf])
    · exact takes_of_given (h.dueDate.given oneToken_instant) hm hkey rfl
        (fun _ hnew => if_neg hnew) (by simp [partsOf])
  · obtain ⟨ts, hlex, hskip⟩ := (h.others m hm hknown).skip_eq
    have hparts : ∀ seen, r.partsOf (seen ++ [m.1]) = r.partsOf seen := by
      intro seen
      simp only [keys, List.mem_cons, List.not_mem_nil, or_false, not_or] at hknown
      simp [partsOf, Ne.symm hknown.1, Ne.symm hknown.2.1, Ne.symm hknown.2.2.1,
        Ne.symm hknown.2.2.2]
    exact ⟨ts, hlex, Record.takes_of_skip hknown hparts hskip⟩

/-- No known key comes twice. -/
theorem once_of_spelledBy (h : r.SpelledBy InstantText ms) :
    ∀ key ∈ record.keys, (ms.map Prod.fst).count key ≤ 1 := by
  intro key hkey
  have hkeys : key ∈ keys := hkey
  rw [← length_valuesOf]
  simp only [keys, List.mem_cons, List.not_mem_nil, or_false] at hkeys
  rcases hkeys with rfl | rfl | rfl | rfl
  · exact (given_one oneToken_string h.title).one
  · exact (h.description.given oneToken_string).one
  · exact (h.assignee.given oneToken_string).one
  · exact (h.dueDate.given oneToken_instant).one

/-- The parts of all keys are those of the request. The title is there. -/
theorem close_of_spelledBy (h : r.SpelledBy InstantText ms) :
    record.close (r.partsOf (ms.map Prod.fst)) = .ok r := by
  have htitle : "title" ∈ ms.map Prod.fst := by
    by_contra hnew
    obtain ⟨value, hvalue, -⟩ := h.title
    rw [valuesOf_eq_nil hnew] at hvalue
    cases hvalue
  have hdescription : "description" ∉ ms.map Prod.fst → r.description = none := fun hnew =>
    GivenOption.eq_none (valuesOf_eq_nil hnew ▸ h.description)
  have hassignee : "assignee" ∉ ms.map Prod.fst → r.assignee = none := fun hnew =>
    GivenOption.eq_none (valuesOf_eq_nil hnew ▸ h.assignee)
  have hdue : "due_date" ∉ ms.map Prod.fst → r.dueDate = none := fun hnew =>
    GivenOption.eq_none (valuesOf_eq_nil hnew ▸ h.dueDate)
  have hrequest : (r.partsOf (ms.map Prod.fst)).toRequest = .ok r := by
    simp only [Parts.toRequest, partsOf, if_pos htitle, join_ite hdescription, join_ite hassignee,
      join_ite hdue]
  simp only [Record.close, record, hrequest]

/-- Every text that holds the members is decoded as the request. -/
theorem decode_of_spelledBy (h : r.SpelledBy InstantText ms) {text : List Char}
    (htext : ObjectText ms text) : reader.decode (text.map .char) = .ok r := by
  have hstart : r.partsOf [] = record.start := rfl
  exact Record.decode_of_takes hstart (takes_of_spelledBy h) (once_of_spelledBy h)
    (close_of_spelledBy h) htext

/-- A key that has been read is given. -/
theorem given_of_mem {m : Member Parts} (hm : m ∈ record.members) (seen : List String)
    (hseen : m.name ∈ seen) : m.given (r.partsOf seen) = true := by
  simp only [record, List.mem_cons, List.not_mem_nil, or_false] at hm
  rcases hm with rfl | rfl | rfl | rfl <;>
    · simp only [Member.of] at hseen
      simp [Member.of, partsOf, hseen]

end CreateRequest

/-! ## Both requests -/

/-- Requests are decoded by the keys that are there. Every text of an object that holds the members
of a request, in any order, with any white space, with its strings escaped in any way and with any
values of any depth under other keys, is decoded as exactly this request. With a second member of a
known key, wherever it stands after the first and whatever its value, it is refused. -/
theorem decode_by_presence :
    (∀ (r : UpdateRequest) (ms : List (String × List Char)) (text : List Char),
      r.SpelledBy InstantText ms → ObjectText ms text →
      UpdateRequest.reader.decode (text.map .char) = .ok r)
    ∧ (∀ (r : CreateRequest) (ms : List (String × List Char)) (text : List Char),
      r.SpelledBy InstantText ms → ObjectText ms text →
      CreateRequest.reader.decode (text.map .char) = .ok r)
    ∧ (∀ (r : UpdateRequest) (before between after : List (String × List Char))
        (first second : String × List Char) (text : List Char),
      r.SpelledBy InstantText (before ++ first :: (between ++ after)) →
      first.1 ∈ UpdateRequest.keys → second.1 = first.1 → Derives .value second.2 →
      ObjectText (before ++ first :: (between ++ second :: after)) text →
      UpdateRequest.reader.decode (text.map .char) = .error (.shape [] (.duplicate first.1)))
    ∧ ∀ (r : CreateRequest) (before between after : List (String × List Char))
        (first second : String × List Char) (text : List Char),
      r.SpelledBy InstantText (before ++ first :: (between ++ after)) →
      first.1 ∈ CreateRequest.keys → second.1 = first.1 → Derives .value second.2 →
      ObjectText (before ++ first :: (between ++ second :: after)) text →
      CreateRequest.reader.decode (text.map .char) = .error (.shape [] (.duplicate first.1)) := by
  refine ⟨fun r ms text h htext => UpdateRequest.decode_of_spelledBy h htext,
    fun r ms text h htext => CreateRequest.decode_of_spelledBy h htext, ?_, ?_⟩
  · intro r before between after first second text h hknown hkey hsecond htext
    have hstart : r.partsOf [] = UpdateRequest.record.start := rfl
    exact Record.decode_twice hstart (UpdateRequest.takes_of_spelledBy h)
      (UpdateRequest.once_of_spelledBy h) (fun _ hm => UpdateRequest.given_of_mem hm) hknown hkey
      hsecond htext
  · intro r before between after first second text h hknown hkey hsecond htext
    have hstart : r.partsOf [] = CreateRequest.record.start := rfl
    exact Record.decode_twice hstart (CreateRequest.takes_of_spelledBy h)
      (CreateRequest.once_of_spelledBy h) (fun _ hm => CreateRequest.given_of_mem hm) hknown hkey
      hsecond htext

/-- Two requests with a value that is skipped between their members, and what becomes of them with a
second title. -/
theorem decode_by_presence_of_titles :
    let text (last : String) : List Text.Symbol :=
      ("\x7b\"title\":\"a\",\"x\": [-0.5E+1],".toList ++ last.toList ++ "\x7d".toList).map .char
    UpdateRequest.reader.decode (text "\"completed\":null") = .ok { title := some "a" }
    ∧ CreateRequest.reader.decode (text "\"assignee\":null") = .ok { title := "a" }
    ∧ UpdateRequest.reader.decode (text "\"title\":null") = .error (.shape [] (.duplicate "title"))
    ∧ CreateRequest.reader.decode (text "\"title\":null")
      = .error (.shape [] (.duplicate "title")) := by
  let first : String × List Char := ("title", writeString "a")
  let other : String × List Char := ("x", "[-0.5E+1]".toList)
  let null (name : String) : String × List Char := (name, "null".toList)
  have hnone : Spaces [] := by simp [Spaces]
  have hspace : Spaces [' '] := by simp [Spaces]
  have hmember : ∀ name value start, Spaces start →
      MemberText name value (writeString name ++ ':' :: (start ++ value)) := by
    intro name value start hstart
    exact ⟨[], _, [], start, [], hnone, stringText_writeString name, hnone, hstart, hnone, by simp⟩
  have hobject : ∀ name, ObjectText [first, other, null name]
      ('{' :: (writeString "title" ++ ':' :: writeString "a" ++ ',' ::
        (writeString "x" ++ ':' :: (' ' :: other.2) ++ ',' ::
          (writeString name ++ ':' :: "null".toList)) ++ ['}'])) := by
    intro name
    have hfirst := hmember "title" (writeString "a") [] hnone
    have hother := hmember "x" other.2 [' '] hspace
    have hlast := hmember name "null".toList [] hnone
    exact .members hnone (.more hfirst (.more hother (.last hlast))) hnone
  have hvalue : Derives .value other.2 := by
    have hsign : ['-'] ∈ [[], ['-']] := by simp
    have hplus : ['+'] ∈ [[], ['+'], ['-']] := by simp
    have hfraction : FractionText ['.', '5'] := .digits ⟨by simp, by simp; decide⟩
    have hexponent : ExponentText ['E', '+', '1'] :=
      .digits (by simp) hplus ⟨by simp, by simp; decide⟩
    have hnumber : NumberText "-0.5E+1".toList := .mk hsign .zero hfraction hexponent
    exact .array (.last (.element hnone (.number hnumber) hnone))
  have htitle : StringText "a" (writeString "a") := stringText_writeString "a"
  have hupdate : UpdateRequest.SpelledBy { title := some "a" } InstantText [first, other] :=
    ⟨⟨_, rfl, htitle⟩, rfl, rfl, .inl rfl, rfl,
      by simpa [first, other, UpdateRequest.keys] using hvalue⟩
  have hcreate : CreateRequest.SpelledBy { title := "a" } InstantText [first, other] :=
    ⟨⟨_, rfl, htitle⟩, .inl rfl, .inl rfl, .inl rfl,
      by simpa [first, other, CreateRequest.keys] using hvalue⟩
  have hupdate' : UpdateRequest.SpelledBy { title := some "a" } InstantText
      [first, other, null "completed"] :=
    ⟨⟨_, rfl, htitle⟩, rfl, rfl, .inr rfl, rfl,
      by simpa [first, other, null, UpdateRequest.keys] using hvalue⟩
  have hcreate' : CreateRequest.SpelledBy { title := "a" } InstantText
      [first, other, null "assignee"] :=
    ⟨⟨_, rfl, htitle⟩, .inl rfl, .inr rfl, .inl rfl,
      by simpa [first, other, null, CreateRequest.keys] using hvalue⟩
  obtain ⟨hdecode, hdecode', htwice, htwice'⟩ := decode_by_presence
  exact ⟨hdecode _ _ _ hupdate' (hobject _), hdecode' _ _ _ hcreate' (hobject _),
    htwice _ [] [other] [] first (null "title") _ hupdate (by decide) rfl .null (hobject _),
    htwice' _ [] [other] [] first (null "title") _ hcreate (by decide) rfl .null (hobject _)⟩

end TaskBoard
