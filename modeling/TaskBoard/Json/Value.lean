import TaskBoard.Json.Reader

/-!
# JSON values of any shape

`Value.build` reads a value token by token onto an explicit stack of open arrays and objects, up to
a greatest depth. Of two members of one name the later counts.
-/

namespace TaskBoard.Json

/-- A JSON value. -/
inductive Value where
  | null
  | bool (b : Bool)
  /-- A number with its spelling; it is not too large. -/
  | number (spelling : List Char)
  | string (s : String)
  | array (items : List Value)
  | object (members : List (String × Value))

instance : Inhabited Value := ⟨.null⟩

namespace Value

/-- An array or object that is open, with what it holds so far, last first. -/
inductive Open where
  | array (items : List Value)
  /-- The key is that of the value being read. -/
  | object (members : List (String × Value)) (key : String)

/-- What may come next. -/
inductive Next where
  | value
  /-- A value or the end of the array just opened. -/
  | firstValue
  /-- A key of an object with these members. -/
  | key (members : List (String × Value))
  /-- A key or the end of the object just opened. -/
  | firstKey
  | colon (members : List (String × Value)) (key : String)
  /-- A comma or the end of what is open, after this value. -/
  | more (value : Value)

/-- The value of a token that is a whole value, if it is one. -/
def ofToken? : Token → Option Value
  | .null => some .null
  | .bool b => some (.bool b)
  | .string (some chars) => some (.string (String.ofList chars))
  | .number spelling =>
    match Number.ofSpelling spelling with
    | .tooLarge => none
    | _ => some (.number spelling)
  | _ => none

/-- Reads the rest of a value. The depth bounds the number of open arrays and objects. -/
def build (depth : Nat) : Next → List Open → Reader Value
  | .more value, [], ts => .ok (value, ts)
  | _, _, [] => .error .malformed
  | .firstValue, .array [] :: stack, .closeArray :: ts => build depth (.more (.array [])) stack ts
  | .value, stack, t :: ts | .firstValue, stack, t :: ts =>
    match t with
    | .openArray =>
      if stack.length < depth then build depth .firstValue (.array [] :: stack) ts
      else .error .malformed
    | .openObject =>
      if stack.length < depth then build depth .firstKey stack ts else .error .malformed
    | t =>
      match ofToken? t with
      | some value => build depth (.more value) stack ts
      | none => .error .malformed
  | .firstKey, stack, .closeObject :: ts => build depth (.more (.object [])) stack ts
  | .firstKey, stack, .string (some key) :: ts =>
    build depth (.colon [] (String.ofList key)) stack ts
  | .key members, stack, .string (some key) :: ts =>
    build depth (.colon members (String.ofList key)) stack ts
  | .colon members key, stack, .colon :: ts =>
    build depth .value (.object members key :: stack) ts
  | .more value, .array items :: stack, .comma :: ts =>
    build depth .value (.array (value :: items) :: stack) ts
  | .more value, .array items :: stack, .closeArray :: ts =>
    build depth (.more (.array (value :: items).reverse)) stack ts
  | .more value, .object members key :: stack, .comma :: ts =>
    build depth (.key ((key, value) :: members)) stack ts
  | .more value, .object members key :: stack, .closeObject :: ts =>
    build depth (.more (.object ((key, value) :: members).reverse)) stack ts
  | _, _, _ :: _ => .error .malformed

mutual

/-- The tokens of a value. -/
def toTokens : Value → List Token
  | .null => [.null]
  | .bool b => [.bool b]
  | .number spelling => [.number spelling]
  | .string s => [.string (some s.toList)]
  | .array items => .openArray :: itemTokens items
  | .object members => .openObject :: memberTokens members

/-- The tokens of the items of an array and of its end. -/
def itemTokens : List Value → List Token
  | [] => [.closeArray]
  | [v] => v.toTokens ++ [.closeArray]
  | v :: vs => v.toTokens ++ .comma :: itemTokens vs

/-- The tokens of the members of an object and of its end. -/
def memberTokens : List (String × Value) → List Token
  | [] => [.closeObject]
  | [(key, v)] => .string (some key.toList) :: .colon :: v.toTokens ++ [.closeObject]
  | (key, v) :: ms =>
    .string (some key.toList) :: .colon :: v.toTokens ++ .comma :: memberTokens ms

end

/-- The greatest depth that is read. -/
def maxDepth : Nat := 127

/-- Reads a value of at most the greatest depth. -/
def reader : Reader Value := build maxDepth .value []

/-- The value of a text, if it is JSON. -/
def parse? (text : List Char) : Option Value :=
  match reader.decode (text.map .char) with
  | .ok value => some value
  | .error _ => none

/-- The last member with a name. -/
def member? (name : String) : Value → Option Value
  | .object members => (members.reverse.find? fun m => m.1 == name).map (·.2)
  | _ => none

/-- The text of a string. -/
def string? : Value → Option String
  | .string s => some s
  | _ => none

end Value

end TaskBoard.Json
