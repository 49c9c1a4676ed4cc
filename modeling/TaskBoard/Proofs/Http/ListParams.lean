import TaskBoard.Http.ListParams
import TaskBoard.Proofs.Text.Spelling

/-!
# List parameters, read exactly

Which query the parameters of a list request ask for, for any texts whatever. Only the completion
can be at fault: a text for a number that is no positive number of 64 bits counts as missing.

* `gives_number`: the limit and the offset;
* `completion_eq_ok_iff`, `completion_eq_error_iff`: the completion;
* `toQuery_exact`: the query, or the fault.
-/

namespace TaskBoard.Http.ListParams

open Text

/-! ## What parameters mean -/

/-- A parameter that has been given, without the blanks around it. -/
def IsGiven (value : Option String) (cs : List Char) : Prop :=
  ∃ text, value = some text ∧ IsCore cs text.toList

/-- A parameter that is a positive number of 64 bits. -/
def IsPositive (value : Option String) (i : Int) : Prop :=
  ∃ cs, IsGiven value cs ∧ IsSigned cs i ∧ 1 ≤ i ∧ i ≤ 9223372036854775807

/-- The number of a parameter: the default if it is no positive number. -/
def IsNumber (value : Option String) (default n : Int64) : Prop :=
  IsPositive value n.toInt ∨ (∀ i, ¬ IsPositive value i) ∧ n = default

/-- The names of the truth values. -/
def truthNames : Bool → List String
  | true => ["true", "1", "t"]
  | false => ["false", "0", "f"]

/-- A text names a truth value, in any case. -/
def IsTruth (cs : List Char) (done : Bool) : Prop := ∃ name ∈ truthNames done, InAnyCase cs name

/-- The completion that a parameter asks for. -/
inductive IsCompletion (value : Option String) : Option Bool → Prop
  | missing : value = none → IsCompletion value none
  | blank : IsGiven value [] → IsCompletion value none
  | named {cs : List Char} {done : Bool} :
      IsGiven value cs → IsTruth cs done → IsCompletion value (some done)

/-- A parameter for the completion that is neither blank nor the name of a truth value. -/
def IsFaulty (value : Option String) (cs : List Char) : Prop :=
  IsGiven value cs ∧ cs ≠ [] ∧ ∀ done, ¬ IsTruth cs done

/-- The query that parameters ask for. -/
structure Asks (p : ListParams) (q : Query) : Prop where
  limit : IsNumber p.limit 100 q.limit
  offset : IsNumber p.offset 0 q.offset
  completed : IsCompletion p.completed q.filter.completed
  /-- An assignee is taken as it is given, unless it is empty. -/
  assignee : q.filter.assignee = if p.assignee = some "" then none else p.assignee

variable {value : Option String} {p : ListParams} {q : Query}

theorem isGiven_some_iff {text : String} {cs : List Char} :
    IsGiven (some text) cs ↔ trim text.toList = cs := by
  constructor
  · rintro ⟨text', heq, hcore⟩
    rw [Option.some.inj heq]
    exact isCore_iff.1 hcore
  · intro h
    exact ⟨text, rfl, isCore_iff.2 h⟩

theorem not_isGiven_none (cs : List Char) : ¬ IsGiven none cs := by
  rintro ⟨text, heq, -⟩
  cases heq

/-! ## Numbers -/

theorem isPositive_iff {i : Int} : IsPositive value i
    ↔ (value.bind fun text => readSigned? (trim text.toList)) = some i
      ∧ 1 ≤ i ∧ i ≤ 9223372036854775807 := by
  rcases value with _ | text
  · constructor
    · rintro ⟨cs, hgiven, -⟩
      exact absurd hgiven (not_isGiven_none cs)
    · rintro ⟨hread, -⟩
      cases hread
  · rw [Option.bind_some, readSigned?_eq_some_iff]
    constructor
    · rintro ⟨cs, hgiven, hsigned, hrange⟩
      rw [isGiven_some_iff.1 hgiven]
      exact ⟨hsigned, hrange⟩
    · rintro ⟨hsigned, hrange⟩
      exact ⟨_, isGiven_some_iff.2 rfl, hsigned, hrange⟩

theorem toInt_ofInt_of_range {i : Int} (hlow : -9223372036854775808 ≤ i)
    (hhigh : i ≤ 9223372036854775807) : (Int64.ofInt i).toInt = i := by
  apply Int64.toInt_ofInt_of_le
  · exact hlow
  · omega

/-- What is read is the positive number if there is one, and otherwise no more than zero. -/
theorem number_cases (value : Option String) : IsPositive value (number value).toInt
    ∨ (∀ i, ¬ IsPositive value i) ∧ number value ≤ 0 := by
  unfold number
  simp only [isPositive_iff]
  rcases value.bind fun text => readSigned? (trim text.toList) with _ | i
  · right
    simp
  · by_cases hpositive : 1 ≤ i ∧ i ≤ 9223372036854775807
    · -- a positive number of 64 bits is in the range of the signed ones
      left
      have hlow : -9223372036854775808 ≤ i := by omega
      have hhigh : i ≤ 9223372036854775807 := by omega
      simp only [if_pos (And.intro hlow hhigh), toInt_ofInt_of_range hlow hhigh, true_and]
      exact hpositive
    · right
      constructor
      · rintro j ⟨hread, hrange⟩
        rw [Option.some.inj hread] at hpositive
        exact hpositive hrange
      · simp only
        split
        · rename_i hrange
          rw [Int64.le_iff_toInt_le, toInt_ofInt_of_range hrange.1 hrange.2]
          show i ≤ 0
          omega
        · exact Int64.le_refl 0

theorem isPositive_unique {i j : Int} (hi : IsPositive value i) (hj : IsPositive value j) :
    i = j := by
  rw [isPositive_iff] at hi hj
  have heq := hi.1.symm.trans hj.1
  exact Option.some.inj heq

/-- A parameter gives the number that is read, with a default for what is no more than zero. -/
theorem isNumber_iff {default n : Int64} :
    IsNumber value default n ↔ (if number value ≤ 0 then default else number value) = n := by
  rcases number_cases value with hpositive | ⟨hnone, hle⟩
  · have hlt : ¬ number value ≤ 0 := by
      rw [isPositive_iff] at hpositive
      rw [Int64.le_iff_toInt_le]
      show ¬ (number value).toInt ≤ 0
      omega
    rw [if_neg hlt]
    constructor
    · rintro (hn | ⟨hnone, -⟩)
      · exact Int64.toInt_inj.1 (isPositive_unique hpositive hn)
      · exact absurd hpositive (hnone _)
    · rintro rfl
      exact Or.inl hpositive
  · rw [if_pos hle]
    constructor
    · rintro (hn | ⟨-, heq⟩)
      · exact absurd hn (hnone _)
      · exact heq.symm
    · rintro rfl
      exact Or.inr ⟨hnone, rfl⟩

/-! ## The completion -/

theorem isTruth_iff {cs : List Char} {done : Bool} :
    IsTruth cs done ↔ String.ofList (cs.map lowerAscii) ∈ truthNames done := by
  simp only [IsTruth, ← ofList_map_lowerAscii_eq_iff, exists_eq_right']

theorem truth?_eq_some_iff {cs : List Char} {done : Bool} :
    truth? cs = some done ↔ IsTruth cs done := by
  rw [isTruth_iff]
  show (if String.ofList (cs.map lowerAscii) ∈ truthNames true then some true
    else if String.ofList (cs.map lowerAscii) ∈ truthNames false then some false else none)
      = some done ↔ _
  generalize String.ofList (cs.map lowerAscii) = name
  -- no name is that of both truth values
  have hdisjoint : ∀ name ∈ truthNames true, name ∉ truthNames false := by decide
  by_cases htrue : name ∈ truthNames true
  · have hfalse := hdisjoint name htrue
    rcases done with _ | _ <;> simp [htrue, hfalse]
  · by_cases hfalse : name ∈ truthNames false
    · rcases done with _ | _ <;> simp [htrue, hfalse]
    · rcases done with _ | _ <;> simp [htrue, hfalse]

theorem completion_some (text : String) : completion (some text)
    = if trim text.toList = [] then .ok none
      else match truth? (trim text.toList) with
        | some done => .ok (some done)
        | none => .error (.badRequest ("invalid completed value: " ++ trimmed text)) := by
  unfold completion trimmed
  rw [Option.map_some]
  generalize trim text.toList = cs
  rcases cs with _ | ⟨c, cs⟩
  · rfl
  · rfl

/-- No name of a truth value is empty. -/
theorem not_isTruth_nil (done : Bool) : ¬ IsTruth [] done := by
  rw [isTruth_iff]
  rcases done with _ | _ <;> decide

theorem completion_of_isCompletion {completed : Option Bool} (h : IsCompletion value completed) :
    completion value = .ok completed := by
  rcases h with rfl | ⟨text, rfl, hcore⟩ | ⟨⟨text, rfl, hcore⟩, htruth⟩
  · rfl
  · rw [completion_some, if_pos (isCore_iff.1 hcore)]
  · rw [completion_some, isCore_iff.1 hcore, truth?_eq_some_iff.2 htruth]
    apply if_neg
    rintro rfl
    exact not_isTruth_nil _ htruth

theorem completion_of_isFaulty {cs : List Char} (h : IsFaulty value cs) :
    completion value = .error (.badRequest ("invalid completed value: " ++ String.ofList cs)) := by
  rcases h with ⟨⟨text, rfl, hcore⟩, hne, hunnamed⟩
  have hnone : truth? cs = none := by
    rcases htruth : truth? cs with _ | done
    · rfl
    · exact absurd (truth?_eq_some_iff.1 htruth) (hunnamed done)
  rw [completion_some, trimmed, isCore_iff.1 hcore, hnone, if_neg hne]

/-- A parameter asks for a completion or is at fault. -/
theorem isCompletion_or_isFaulty (value : Option String) :
    (∃ completed, IsCompletion value completed) ∨ ∃ cs, IsFaulty value cs := by
  rcases value with _ | text
  · exact Or.inl ⟨none, .missing rfl⟩
  · have hgiven : IsGiven (some text) (trim text.toList) := isGiven_some_iff.2 rfl
    by_cases hblank : trim text.toList = []
    · exact Or.inl ⟨none, .blank (hblank ▸ hgiven)⟩
    · by_cases htruth : ∃ done, IsTruth (trim text.toList) done
      · rcases htruth with ⟨done, htruth⟩
        exact Or.inl ⟨some done, .named hgiven htruth⟩
      · exact Or.inr ⟨_, hgiven, hblank, not_exists.1 htruth⟩

theorem completion_eq_ok_iff {completed : Option Bool} :
    completion value = .ok completed ↔ IsCompletion value completed := by
  constructor
  · intro h
    rcases isCompletion_or_isFaulty value with ⟨completed', hasked⟩ | ⟨cs, hfaulty⟩
    · rw [completion_of_isCompletion hasked] at h
      cases h
      exact hasked
    · rw [completion_of_isFaulty hfaulty] at h
      cases h
  · exact completion_of_isCompletion

theorem completion_eq_error_iff {fault : Fault} : completion value = .error fault
    ↔ ∃ cs, IsFaulty value cs
      ∧ fault = .badRequest ("invalid completed value: " ++ String.ofList cs) := by
  constructor
  · intro h
    rcases isCompletion_or_isFaulty value with ⟨completed, hasked⟩ | ⟨cs, hfaulty⟩
    · rw [completion_of_isCompletion hasked] at h
      cases h
    · rw [completion_of_isFaulty hfaulty] at h
      cases h
      exact ⟨cs, hfaulty, rfl⟩
  · rintro ⟨cs, hfaulty, rfl⟩
    exact completion_of_isFaulty hfaulty

/-! ## The query -/

theorem toQuery_eq (p : ListParams) : p.toQuery = (completion p.completed).map fun completed =>
    Query.normalized ⟨number p.limit, number p.offset, ⟨completed, p.assignee⟩⟩ := by
  rw [toQuery]
  rcases completion p.completed with _ | completed
  · rfl
  · rfl

theorem normalized_assignee (assignee : Option String) :
    (assignee.filter fun name => !name.isEmpty)
      = if assignee = some "" then none else assignee := by
  rcases assignee with _ | name
  · rfl
  · by_cases hname : name = "" <;> simp [Option.filter, hname]

/-- The parameters ask for the query that is made of what is read. -/
theorem asks_iff : p.Asks q ↔ ∃ completed, IsCompletion p.completed completed
    ∧ Query.normalized ⟨number p.limit, number p.offset, ⟨completed, p.assignee⟩⟩ = q := by
  constructor
  · intro h
    refine ⟨q.filter.completed, h.completed, ?_⟩
    have hlimit := isNumber_iff.1 h.limit
    have hoffset := isNumber_iff.1 h.offset
    have hassignee := (normalized_assignee p.assignee).trans h.assignee.symm
    rw [Query.normalized, Filter.normalized, Query.defaultLimit, hlimit, hoffset, hassignee]
  · rintro ⟨completed, hcompleted, rfl⟩
    exact {
      limit := isNumber_iff.2 rfl
      offset := isNumber_iff.2 rfl
      completed := hcompleted
      assignee := normalized_assignee p.assignee }

/-- The parameters of a list request give the query that they ask for, which is in normal form, or
they are at fault, which they are exactly if the completion is. -/
theorem toQuery_exact (p : ListParams) :
    (∀ q, p.toQuery = .ok q ↔ p.Asks q)
    ∧ (∀ fault, p.toQuery = .error fault ↔ ∃ cs, IsFaulty p.completed cs
        ∧ fault = ⟨400, "invalid completed value: " ++ String.ofList cs⟩)
    ∧ ∀ q, p.toQuery = .ok q → q.normalized = q := by
  rw [toQuery_eq]
  refine ⟨?_, ?_, ?_⟩
  · intro q
    rw [asks_iff]
    simp only [← completion_eq_ok_iff]
    rcases completion p.completed with fault | completed
    · simp [Except.map]
    · simp [Except.map]
  · intro fault
    show _ ↔ ∃ cs, IsFaulty p.completed cs
      ∧ fault = .badRequest ("invalid completed value: " ++ String.ofList cs)
    rw [← completion_eq_error_iff]
    rcases completion p.completed with fault | completed
    · simp [Except.map]
    · simp [Except.map]
  · intro q hq
    rcases hread : completion p.completed with fault | completed
    · rw [hread] at hq
      cases hq
    · rw [hread] at hq
      cases hq
      exact Query.normalized_normalized _

end TaskBoard.Http.ListParams
