import TaskBoard.Proofs.Json.Numbers
import TaskBoard.Proofs.Task.Requests
import TaskBoard.Proofs.Text.Utf8

/-!
# The wire loses nothing

A page is read back like a task, with its three numbers. So every value that travels as JSON is
read back from its bytes, whichever of the five formats it has, and reading, writing and reading
again is reading once.

* `Page.reads_page`: the tokens of a page are read as the page;
* `WireFormat.reader_write`: the text of a value is read as the value;
* `WireFormat.loses_nothing`: nothing is lost between a value and its bytes, either way.
-/

namespace TaskBoard

open Json Text

namespace Page

/-- The token of an integer. -/
def intToken (i : Int64) : Token := .number (intDigits i.toInt)

/-- The members of a page as JSON: name, text and tokens. -/
def writtenMembers (p : Page) : List WrittenMember := [
  ("items", Task.listToJson p.items, Task.listTokens p.items),
  ("limit", writeInt64 p.limit, [intToken p.limit]),
  ("offset", writeInt64 p.offset, [intToken p.offset]),
  ("total", writeInt64 p.total, [intToken p.total])]

theorem lexes_toJson (p : Page) : Lexes p.toJson (objectTokens (tokenMembers p.writtenMembers)) := by
  have hmembers : ∀ m ∈ p.writtenMembers, LexesBefore m.2.1 m.2.2 := by
    simp only [writtenMembers, List.forall_mem_cons, List.not_mem_nil, false_imp_iff,
      implies_true, and_true]
    refine ⟨(Task.lexes_listToJson p.items).before, ?_, ?_, ?_⟩
    · exact lexesBefore_writeInt64 p.limit
    · exact lexesBefore_writeInt64 p.offset
    · exact lexesBefore_writeInt64 p.total
  exact lexes_writeObject hmembers

/-- The members of a page gather its four parts. -/
theorem gathers_page (p : Page) : record.Gathers (tokenMembers p.writtenMembers) {}
    { items := some p.items
      limit := some p.limit
      offset := some p.offset
      total := some p.total } := by
  simp only [writtenMembers, tokenMembers, List.map_cons, List.map_nil]
  refine .cons (Record.readMember_eq rfl rfl (Task.reads_listTokens p.items)) ?_
  refine .cons (Record.readMember_eq rfl rfl (reads_int64 p.limit)) ?_
  refine .cons (Record.readMember_eq rfl rfl (reads_int64 p.offset)) ?_
  refine .cons (Record.readMember_eq rfl rfl (reads_int64 p.total)) ?_
  exact .nil _

theorem reads_page (p : Page) : Reads reader (objectTokens (tokenMembers p.writtenMembers)) p :=
  Record.reads_object p.gathers_page rfl

end Page

/-- What travels as JSON, in a body or in the cache. -/
inductive WireFormat where
  | createRequest
  | updateRequest
  | task
  | page
  | tasks

namespace WireFormat

/-- The values that a format is for. -/
abbrev Value : WireFormat → Type
  | createRequest => CreateRequest
  | updateRequest => UpdateRequest
  | task => Task
  | page => Page
  | tasks => List Task

/-- The text of a value. -/
def write : (format : WireFormat) → format.Value → List Char
  | createRequest => CreateRequest.toJson
  | updateRequest => UpdateRequest.toJson
  | task => Task.toJson
  | page => Page.toJson
  | tasks => Task.listToJson

/-- How a value is read. -/
def reader : (format : WireFormat) → Reader format.Value
  | createRequest => CreateRequest.reader
  | updateRequest => UpdateRequest.reader
  | task => Task.reader
  | page => Page.reader
  | tasks => Task.listReader

/-- The bytes of a value. -/
def encode (format : WireFormat) (value : format.Value) : List UInt8 :=
  utf8Encode (format.write value)

/-- The value that bytes stand for, if they are JSON of the format. -/
def decode (format : WireFormat) (body : List UInt8) : Except Error format.Value :=
  format.reader.decode (utf8Decode body)

/-- The text of a value is read as the value. -/
theorem reader_write (format : WireFormat) (value : format.Value) :
    format.reader.decode ((format.write value).map .char) = .ok value := by
  cases format with
  | createRequest => exact CreateRequest.decode_toJson value
  | updateRequest => exact UpdateRequest.decode_toJson value
  | task => exact (Task.reads_task value).decode_eq (Task.lexes_toJson value)
  | page => exact (Page.reads_page value).decode_eq (Page.lexes_toJson value)
  | tasks => exact Task.decode_listToJson value

/-- The bytes of a value are read as the value, so they tell any two values apart, and bytes that
are read as a value are as good as those it is written as. -/
theorem loses_nothing (format : WireFormat) :
    (∀ value, format.decode (format.encode value) = .ok value)
    ∧ (∀ value value', format.encode value = format.encode value' → value = value')
    ∧ ∀ body value, format.decode body = .ok value →
        format.decode (format.encode value) = format.decode body := by
  have hback : ∀ value, format.decode (format.encode value) = .ok value := by
    intro value
    unfold decode encode
    rw [utf8Decode_utf8Encode]
    exact format.reader_write value
  refine ⟨hback, ?_, ?_⟩
  · intro value value' heq
    have hvalue' := hback value'
    rw [← heq, hback value] at hvalue'
    exact Except.ok.inj hvalue'
  · intro body value hbody
    rw [hback value, hbody]

end WireFormat

end TaskBoard
