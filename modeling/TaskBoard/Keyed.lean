/-!
# Keyed collections

A finite map from texts to values, as a list of entries without two of one key. The order of the
entries means nothing; what a collection holds is told by `get?`.

* `get?_filter`, `get?_erase`, `get?_insert`: what each operation does to the value of a key.
-/

namespace TaskBoard

/-- Entries with pairwise different keys. -/
structure Keyed (α : Type) where
  entries : List (String × α)
  nodup : (entries.map Prod.fst).Nodup

namespace Keyed

variable {α : Type}

/-- No entries. -/
def empty : Keyed α := ⟨[], List.nodup_nil⟩

instance : Inhabited (Keyed α) := ⟨empty⟩

/-- The value of a key. -/
def get? (m : Keyed α) (key : String) : Option α := m.entries.lookup key

/-- Whether the key has a value. -/
def contains (m : Keyed α) (key : String) : Bool := (m.get? key).isSome

/-- The number of entries. -/
def size (m : Keyed α) : Nat := m.entries.length

/-- The values. -/
def values (m : Keyed α) : List α := m.entries.map Prod.snd

/-- The entries that `p` holds of. -/
def filter (p : String → α → Bool) (m : Keyed α) : Keyed α where
  entries := m.entries.filter fun (k, a) => p k a
  nodup := m.nodup.sublist (List.filter_sublist.map _)

/-- The entries without that of a key. -/
def erase (m : Keyed α) (key : String) : Keyed α := m.filter fun k _ => k != key

/-- The entries with a new value for a key. -/
def insert (m : Keyed α) (key : String) (value : α) : Keyed α where
  entries := (key, value) :: (m.erase key).entries
  nodup := by
    refine List.nodup_cons.2 ⟨?_, (m.erase key).nodup⟩
    simp [erase, filter]

/-- Of entries with different keys, filtering keeps that of `key` if `p` holds of it. -/
theorem lookup_filter (p : String → α → Bool) (key : String) (es : List (String × α))
    (hes : (es.map Prod.fst).Nodup) :
    (es.filter fun (k, a) => p k a).lookup key = (es.lookup key).filter (p key) := by
  induction es with
  | nil => rfl
  | cons e es ih =>
    obtain ⟨k, a⟩ := e
    have ⟨hnew, hrest⟩ := List.nodup_cons.1 hes
    by_cases hk : key = k
    · subst hk
      by_cases hp : p key a = true
      · simp [hp, Option.filter]
      · have hnone : (es.filter fun (k, a) => p k a).lookup key = none := by
          rw [List.lookup_eq_none_iff]
          intro e he
          have hmem : e.1 ∈ es.map Prod.fst := List.mem_map_of_mem (List.mem_filter.1 he).1
          simp only [bne_iff_ne]
          rintro rfl
          exact hnew hmem
        simp [hp, hnone, Option.filter]
    · have hk' : (key == k) = false := by simpa using hk
      by_cases hp : p k a = true <;> simp [hp, List.lookup_cons, hk', ih hrest]

@[simp] theorem get?_empty (key : String) : (empty : Keyed α).get? key = none := rfl

theorem get?_filter (p : String → α → Bool) (m : Keyed α) (key : String) :
    (m.filter p).get? key = (m.get? key).filter (p key) :=
  lookup_filter p key m.entries m.nodup

@[simp] theorem get?_erase (m : Keyed α) (key k : String) :
    (m.erase key).get? k = if k = key then none else m.get? k := by
  rw [erase, get?_filter]
  by_cases h : k = key <;> cases m.get? k <;> simp [h, Option.filter]

@[simp] theorem get?_insert (m : Keyed α) (key : String) (value : α) (k : String) :
    (m.insert key value).get? k = if k = key then some value else m.get? k := by
  by_cases h : k = key
  · simp [get?, insert, h]
  · have hk : (k == key) = false := by simpa using h
    have herase := get?_erase m key k
    simp only [get?, h, if_false] at herase
    simp [get?, insert, List.lookup_cons, h, hk, herase]

end Keyed

end TaskBoard
