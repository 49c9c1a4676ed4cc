/-!
# Changes to an optional field

A partial update says one of three things about an optional field: nothing, "empty it", or "make
it this". `Change` keeps the three apart, which an `Option` cannot.
-/

namespace TaskBoard

/-- What a partial update does to an optional field. -/
inductive Change (α : Type) where
  /-- The field is not mentioned and stays as it is. -/
  | keep
  /-- The field loses its value. -/
  | clear
  /-- The field takes this value. -/
  | set (value : α)
deriving DecidableEq, Repr

namespace Change

variable {α β : Type}

instance : Inhabited (Change α) := ⟨keep⟩

/-- Whether the field is not mentioned. -/
def isKeep : Change α → Bool
  | keep => true
  | _ => false

/-- The field after the change. -/
def apply : Change α → Option α → Option α
  | keep, old => old
  | clear, _ => none
  | set value, _ => some value

/-- The change with its value replaced through `f`. -/
def map (f : α → β) : Change α → Change β
  | keep => keep
  | clear => clear
  | set value => set (f value)

/-- The change that leaves exactly this content. -/
def ofOption : Option α → Change α
  | none => clear
  | some value => set value

/-- An empty text empties the field. -/
def emptyAsClear : Change String → Change String
  | set value => if value.isEmpty then clear else set value
  | other => other

/-- An empty text says nothing. -/
def emptyAsKeep : Change String → Change String
  | set value => if value.isEmpty then keep else set value
  | other => other

@[simp] theorem apply_keep (old : Option α) : keep.apply old = old := rfl

@[simp] theorem apply_clear (old : Option α) : clear.apply old = none := rfl

@[simp] theorem apply_set (value : α) (old : Option α) : (set value).apply old = some value := rfl

/-- What is put down by `ofOption` is what `apply` leaves, whatever was there. -/
@[simp] theorem apply_ofOption (new old : Option α) : (ofOption new).apply old = new := by
  cases new <;> rfl

end Change

end TaskBoard
