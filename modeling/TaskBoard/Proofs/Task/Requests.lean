import TaskBoard.Proofs.Task.RoundTrip

/-!
# Requests read back

A request that a client writes is read as the request that it was. What it leaves out is left as
it was before, and a field that it empties is told from one that it keeps.

* `gathers_optional`, `gathers_change`: members that may be left out;
* `CreateRequest.decode_toJson`, `UpdateRequest.decode_toJson`: the two requests.
-/

namespace TaskBoard

open Json

/-- A change that is mentioned, if it is. -/
def Change.mentioned {α : Type} : Change α → Option (Change α)
  | keep => none
  | clear => some clear
  | set a => some (set a)

@[simp] theorem join_map_some {α : Type} (value : Option α) : (value.map some).join = value := by
  cases value <;> rfl

@[simp] theorem Change.mentioned_getD {α : Type} (c : Change α) : c.mentioned.getD .keep = c := by
  cases c <;> rfl

/-! ## Members that may be left out -/

/-- A member with its text and its tokens. -/
abbrev WrittenMember := String × List Char × List Token

/-- Names and tokens of members. -/
abbrev tokenMembers (ms : List WrittenMember) : List (String × List Token) :=
  ms.map fun m => (m.1, m.2.2)

variable {α σ β : Type}

/-- A member that may be left out. -/
def writtenOptional (name : String) (write : α → List Char) (token : α → Token) :
    Option α → List WrittenMember
  | none => []
  | some a => [(name, write a, [token a])]

/-- A member that is left out if its field is kept. -/
def writtenChange (name : String) (write : α → List Char) (token : α → Token) :
    Change α → List WrittenMember
  | .keep => []
  | .clear => [(name, writeOption write none, [.null])]
  | .set a => [(name, write a, [token a])]

section Members

variable {name : String} {write : α → List Char} {token : α → Token}

theorem map_writtenOptional (value : Option α) :
    (writtenOptional name write token value).map (fun m => (m.1, m.2.1))
      = optionalMember name write value := by
  cases value <;> rfl

theorem map_writtenChange (value : Change α) :
    (writtenChange name write token value).map (fun m => (m.1, m.2.1))
      = changeMember name write value := by
  cases value <;> rfl

theorem lexes_writtenOptional (hwrite : ∀ a, Lexes (write a) [token a]) (value : Option α) :
    ∀ m ∈ writtenOptional name write token value, Lexes m.2.1 m.2.2 := by
  cases value with
  | none => simp [writtenOptional]
  | some a => simpa [writtenOptional] using hwrite a

theorem lexes_writtenChange (hwrite : ∀ a, Lexes (write a) [token a]) (value : Change α) :
    ∀ m ∈ writtenChange name write token value, Lexes m.2.1 m.2.2 := by
  cases value with
  | keep => simp [writtenChange]
  | clear =>
    intro m hm
    rw [List.mem_singleton.1 hm]
    exact lexes_null
  | set a => simpa [writtenChange] using hwrite a

/-- A change is taken back from its token, or from null. -/
theorem reads_change {read : Reader α} (hread : ∀ a, Reads read [token a] a)
    (hnull : ∀ a, token a ≠ .null) (value : Option α) :
    Reads (Change.reader read) [value.elim .null token] (Change.ofOption value) := by
  intro ts
  rw [Change.reader, reads_option token hread hnull value ts]
  rfl

end Members

namespace Json.Record

variable {r : Record σ β}

variable {name : String} {write : α → List Char} {token : α → Token} {read : Reader α}
  {optional : Bool} {s : σ}

/-- A member that may be left out gathers its value, if it has one. -/
theorem gathers_optional {get : σ → Option (Option α)} {put : σ → Option α → σ}
    (hfind : (r.members.find? fun m => m.name.toList == name.toList)
      = some (.of name (readOption read) get put optional))
    (hgiven : get s = none) (hread : ∀ a, Reads read [token a] a) (hnull : ∀ a, token a ≠ .null)
    (value : Option α) (parts : Option (Option α) → σ) (hnone : parts none = s)
    (hsome : ∀ v, parts (some v) = put s v) :
    r.Gathers (tokenMembers (writtenOptional name write token value)) s
      (parts (value.map some)) := by
  cases value with
  | none =>
    rw [Option.map_none, hnone]
    exact .nil s
  | some a =>
    have hvalue : Reads (readOption read) [token a] (some a) :=
      reads_option token hread hnull (some a)
    rw [Option.map_some, hsome]
    exact .cons (readMember_eq hfind hgiven hvalue) (.nil _)

/-- A member that is left out if its field is kept gathers the change. -/
theorem gathers_change {get : σ → Option (Change α)} {put : σ → Change α → σ}
    (hfind : (r.members.find? fun m => m.name.toList == name.toList)
      = some (.of name (Change.reader read) get put optional))
    (hgiven : get s = none) (hread : ∀ a, Reads read [token a] a) (hnull : ∀ a, token a ≠ .null)
    (value : Change α) (parts : Option (Change α) → σ) (hnone : parts none = s)
    (hsome : ∀ v, parts (some v) = put s v) :
    r.Gathers (tokenMembers (writtenChange name write token value)) s
      (parts value.mentioned) := by
  cases value with
  | keep =>
    rw [Change.mentioned, hnone]
    exact .nil s
  -- null is read as a change, and only what is missing is none
  | clear =>
    rw [Change.mentioned, hsome]
    exact .cons (readMember_eq hfind hgiven (reads_change hread hnull none)) (.nil _)
  | set a =>
    rw [Change.mentioned, hsome]
    exact .cons (readMember_eq hfind hgiven (reads_change hread hnull (some a))) (.nil _)

end Json.Record

/-! ## The two requests -/

namespace Task

theorem textToken_ne_null (s : String) : textToken s ≠ .null := by
  simp [textToken]

theorem instantToken_ne_null (t : Instant) : instantToken t ≠ .null :=
  textToken_ne_null t.text

end Task

namespace CreateRequest

/-- The members of a create request. -/
def writtenMembers (r : CreateRequest) : List WrittenMember :=
  [("title", writeString r.title, [Task.textToken r.title])]
    ++ writtenOptional "description" writeString Task.textToken r.description
    ++ writtenOptional "assignee" writeString Task.textToken r.assignee
    ++ writtenOptional "due_date" Instant.toJson Task.instantToken r.dueDate

theorem lexes_toJson (r : CreateRequest) :
    Lexes r.toJson (objectTokens (tokenMembers r.writtenMembers)) := by
  have hmembers : ∀ m ∈ r.writtenMembers, Lexes m.2.1 m.2.2 := by
    intro m hm
    simp only [writtenMembers, List.mem_append, List.mem_singleton] at hm
    rcases hm with ((rfl | hm) | hm) | hm
    · exact lexes_writeString r.title
    · exact lexes_writtenOptional lexes_writeString _ m hm
    · exact lexes_writtenOptional lexes_writeString _ m hm
    · exact lexes_writtenOptional Instant.lexes_toJson _ m hm
  have htext : r.toJson = writeObject (r.writtenMembers.map fun m => (m.1, m.2.1)) := by
    simp only [toJson, writtenMembers, List.map_append, map_writtenOptional]
    rfl
  rw [htext]
  exact lexes_writeObject fun m hm => (hmembers m hm).before

/-- The members of a create request gather what it says. -/
theorem gathers_members (r : CreateRequest) : record.Gathers (tokenMembers r.writtenMembers) {}
    { title := some r.title
      description := r.description.map some
      assignee := r.assignee.map some
      dueDate := r.dueDate.map some } := by
  have htitle : record.Gathers [("title", [Task.textToken r.title])] {}
      { title := some r.title } :=
    .cons (Record.readMember_eq rfl rfl (reads_string r.title)) (.nil _)
  have hdescription : record.Gathers
      (tokenMembers (writtenOptional "description" writeString Task.textToken r.description))
      { title := some r.title }
      { title := some r.title, description := r.description.map some } :=
    Record.gathers_optional rfl rfl reads_string Task.textToken_ne_null r.description
      (fun v => { title := some r.title, description := v : Parts }) rfl fun _ => rfl
  have hassignee : record.Gathers
      (tokenMembers (writtenOptional "assignee" writeString Task.textToken r.assignee))
      { title := some r.title, description := r.description.map some }
      { title := some r.title, description := r.description.map some
        assignee := r.assignee.map some } :=
    Record.gathers_optional rfl rfl reads_string Task.textToken_ne_null r.assignee
      (fun v => { title := some r.title, description := r.description.map some, assignee := v : Parts })
      rfl fun _ => rfl
  have hdue : record.Gathers
      (tokenMembers (writtenOptional "due_date" Instant.toJson Task.instantToken r.dueDate))
      { title := some r.title, description := r.description.map some
        assignee := r.assignee.map some }
      { title := some r.title, description := r.description.map some
        assignee := r.assignee.map some, dueDate := r.dueDate.map some } :=
    Record.gathers_optional rfl rfl reads_instant Task.instantToken_ne_null r.dueDate
      (fun v => { title := some r.title, description := r.description.map some
                  assignee := r.assignee.map some, dueDate := v : Parts })
      rfl fun _ => rfl
  simp only [tokenMembers, writtenMembers, List.map_append]
  exact ((htitle.append hdescription).append hassignee).append hdue

/-- A create request is read back. -/
theorem decode_toJson (r : CreateRequest) : reader.decode (r.toJson.map .char) = .ok r := by
  have hclose : record.close
      { title := some r.title
        description := r.description.map some
        assignee := r.assignee.map some
        dueDate := r.dueDate.map some } = .ok r := by
    simp [Record.close, record, Parts.toRequest]
  exact (Record.reads_object r.gathers_members hclose).decode_eq r.lexes_toJson

end CreateRequest

namespace UpdateRequest

/-- The members of an update request. -/
def writtenMembers (r : UpdateRequest) : List WrittenMember :=
  writtenOptional "title" writeString Task.textToken r.title
    ++ writtenChange "description" writeString Task.textToken r.description
    ++ writtenChange "assignee" writeString Task.textToken r.assignee
    ++ writtenOptional "completed" writeBool .bool r.completed
    ++ writtenChange "due_date" Instant.toJson Task.instantToken r.dueDate

theorem lexes_toJson (r : UpdateRequest) :
    Lexes r.toJson (objectTokens (tokenMembers r.writtenMembers)) := by
  have hmembers : ∀ m ∈ r.writtenMembers, Lexes m.2.1 m.2.2 := by
    intro m hm
    simp only [writtenMembers, List.mem_append] at hm
    rcases hm with (((hm | hm) | hm) | hm) | hm
    · exact lexes_writtenOptional lexes_writeString _ m hm
    · exact lexes_writtenChange lexes_writeString _ m hm
    · exact lexes_writtenChange lexes_writeString _ m hm
    · exact lexes_writtenOptional lexes_writeBool _ m hm
    · exact lexes_writtenChange Instant.lexes_toJson _ m hm
  have htext : r.toJson = writeObject (r.writtenMembers.map fun m => (m.1, m.2.1)) := by
    simp only [toJson, writtenMembers, List.map_append, map_writtenOptional, map_writtenChange]
  rw [htext]
  exact lexes_writeObject fun m hm => (hmembers m hm).before

/-- The members of an update request gather what it says. -/
theorem gathers_members (r : UpdateRequest) : record.Gathers (tokenMembers r.writtenMembers) {}
    { title := r.title.map some
      description := r.description.mentioned
      assignee := r.assignee.mentioned
      completed := r.completed.map some
      dueDate := r.dueDate.mentioned } := by
  have htitle : record.Gathers
      (tokenMembers (writtenOptional "title" writeString Task.textToken r.title)) {}
      { title := r.title.map some } :=
    Record.gathers_optional rfl rfl reads_string Task.textToken_ne_null r.title
      (fun v => { title := v : Parts }) rfl fun _ => rfl
  have hdescription : record.Gathers
      (tokenMembers (writtenChange "description" writeString Task.textToken r.description))
      { title := r.title.map some }
      { title := r.title.map some, description := r.description.mentioned } :=
    Record.gathers_change rfl rfl reads_string Task.textToken_ne_null r.description
      (fun v => { title := r.title.map some, description := v : Parts }) rfl fun _ => rfl
  have hassignee : record.Gathers
      (tokenMembers (writtenChange "assignee" writeString Task.textToken r.assignee))
      { title := r.title.map some, description := r.description.mentioned }
      { title := r.title.map some, description := r.description.mentioned
        assignee := r.assignee.mentioned } :=
    Record.gathers_change rfl rfl reads_string Task.textToken_ne_null r.assignee
      (fun v => { title := r.title.map some, description := r.description.mentioned
                  assignee := v : Parts })
      rfl fun _ => rfl
  have hcompleted : record.Gathers
      (tokenMembers (writtenOptional "completed" writeBool .bool r.completed))
      { title := r.title.map some, description := r.description.mentioned
        assignee := r.assignee.mentioned }
      { title := r.title.map some, description := r.description.mentioned
        assignee := r.assignee.mentioned, completed := r.completed.map some } :=
    Record.gathers_optional rfl rfl reads_bool (by simp) r.completed
      (fun v => { title := r.title.map some, description := r.description.mentioned
                  assignee := r.assignee.mentioned, completed := v : Parts })
      rfl fun _ => rfl
  have hdue : record.Gathers
      (tokenMembers (writtenChange "due_date" Instant.toJson Task.instantToken r.dueDate))
      { title := r.title.map some, description := r.description.mentioned
        assignee := r.assignee.mentioned, completed := r.completed.map some }
      { title := r.title.map some, description := r.description.mentioned
        assignee := r.assignee.mentioned, completed := r.completed.map some
        dueDate := r.dueDate.mentioned } :=
    Record.gathers_change rfl rfl reads_instant Task.instantToken_ne_null r.dueDate
      (fun v => { title := r.title.map some, description := r.description.mentioned
                  assignee := r.assignee.mentioned, completed := r.completed.map some
                  dueDate := v : Parts })
      rfl fun _ => rfl
  simp only [tokenMembers, writtenMembers, List.map_append]
  exact (((htitle.append hdescription).append hassignee).append hcompleted).append hdue

/-- An update request is read back. -/
theorem decode_toJson (r : UpdateRequest) : reader.decode (r.toJson.map .char) = .ok r := by
  have hclose : record.close
      { title := r.title.map some
        description := r.description.mentioned
        assignee := r.assignee.mentioned
        completed := r.completed.map some
        dueDate := r.dueDate.mentioned } = .ok r := by
    simp [Record.close, record, Parts.toRequest]
  exact (Record.reads_object r.gathers_members hclose).decode_eq r.lexes_toJson

end UpdateRequest

end TaskBoard
