import TaskBoard.Keyed

/-!
# The size and the values of a keyed collection

A collection grows and shrinks by one entry, and only when a key comes or goes. If its values tell
their own keys, what it holds can be said of its list of values.

* `erase_of_contains_eq_false`, `size_erase`: erasing a key that has no value, or has one;
* `size_insert`, `size_insert_of_contains`: a value for a new key, or another one for an old key;
* `values_filter_eq`, `values_erase`, `values_perm`: finding and erasing a key among the values.
-/

namespace TaskBoard.Keyed

variable {α : Type} {m : Keyed α} {key : String}

theorem contains_iff_mem : m.contains key = true ↔ key ∈ m.entries.map Prod.fst := by
  rw [contains, get?, List.mem_map]
  constructor
  · intro h
    obtain ⟨value, hvalue⟩ := Option.isSome_iff_exists.1 h
    obtain ⟨before, after, hentries, -⟩ := List.lookup_eq_some_iff.1 hvalue
    exact ⟨(key, value), by simp [hentries], rfl⟩
  · rintro ⟨⟨k, value⟩, hmem, rfl⟩
    rw [Option.isSome_iff_ne_none]
    intro hnone
    have hne := List.lookup_eq_none_iff.1 hnone (k, value) hmem
    simp at hne

/-- Erasing a key that has no value changes nothing. -/
theorem erase_of_contains_eq_false (h : m.contains key = false) : m.erase key = m := by
  have hkeys : key ∉ m.entries.map Prod.fst := by
    rw [← contains_iff_mem, h]
    exact Bool.false_ne_true
  have hentries : (m.entries.filter fun e => e.1 != key) = m.entries := by
    rw [List.filter_eq_self]
    rintro ⟨k, value⟩ hmem
    have hne : k ≠ key := fun heq => hkeys (List.mem_map.2 ⟨(k, value), hmem, heq⟩)
    simpa using hne
  obtain ⟨entries, nodup⟩ := m
  simpa [erase, filter] using hentries

/-- Erasing a key that has a value takes one entry away. -/
theorem size_erase (h : m.contains key = true) : (m.erase key).size + 1 = m.size := by
  have hcount : ∀ es : List (String × α), (es.map Prod.fst).Nodup →
      key ∈ es.map Prod.fst →
      (es.filter fun e => e.1 != key).length + 1 = es.length := by
    intro es hnodup hmem
    induction es with
    | nil => simp at hmem
    | cons e es ih =>
      obtain ⟨k, value⟩ := e
      obtain ⟨hnew, hrest⟩ := List.nodup_cons.1 hnodup
      by_cases hk : k = key
      · -- the key is not among the other entries
        have hall : (es.filter fun e => e.1 != key) = es := by
          rw [List.filter_eq_self]
          rintro ⟨k', value'⟩ hmem'
          have hne : k' ≠ key := by
            intro heq
            exact hnew (List.mem_map.2 ⟨(k', value'), hmem', by simp [heq, hk]⟩)
          simpa using hne
        simp [hk, hall]
      · have hmem' : key ∈ es.map Prod.fst := by
          rcases List.mem_cons.1 hmem with heq | hmem'
          · exact absurd heq.symm hk
          · exact hmem'
        have hlen := ih hrest hmem'
        simp [hk, hlen]
  exact hcount m.entries m.nodup (contains_iff_mem.1 h)

theorem values_insert (value : α) :
    (m.insert key value).values = value :: (m.erase key).values := rfl

theorem size_insert_eq (value : α) : (m.insert key value).size = (m.erase key).size + 1 := rfl

/-- A value for a new key is one more entry. -/
theorem size_insert (value : α) (h : m.contains key = false) :
    (m.insert key value).size = m.size + 1 := by
  rw [size_insert_eq, erase_of_contains_eq_false h]

/-- Another value for a key that has one leaves the size as it is. -/
theorem size_insert_of_contains (value : α) (h : m.contains key = true) :
    (m.insert key value).size = m.size := by
  rw [size_insert_eq, size_erase h]

/-! ## Values that tell their keys -/

theorem get?_eq_some_iff {value : α} : m.get? key = some value ↔ (key, value) ∈ m.entries := by
  constructor
  · intro h
    obtain ⟨before, after, hentries, -⟩ := List.lookup_eq_some_iff.1 h
    simp [hentries]
  · intro h
    obtain ⟨before, after, hentries⟩ := List.append_of_mem h
    refine List.lookup_eq_some_iff.2 ⟨before, after, hentries, fun e he => ?_⟩
    have hnodup := m.nodup
    rw [hentries, List.map_append, List.map_cons] at hnodup
    have hne : e.1 ≠ key := by
      intro heq
      have hmem : key ∈ before.map Prod.fst := List.mem_map.2 ⟨e, he, heq⟩
      exact (List.nodup_append.1 hnodup).2.2 key hmem key List.mem_cons_self rfl
    simpa using hne.symm

theorem mem_values_iff {value : α} : value ∈ m.values ↔ ∃ key, m.get? key = some value := by
  simp only [get?_eq_some_iff, values, List.mem_map]
  constructor
  · rintro ⟨⟨key, value⟩, hmem, rfl⟩
    exact ⟨key, hmem⟩
  · rintro ⟨key, hmem⟩
    exact ⟨(key, value), hmem, rfl⟩

section Named

variable {name : α → String} (hname : ∀ key value, m.get? key = some value → name value = key)

include hname

theorem name_of_mem {e : String × α} (he : e ∈ m.entries) : name e.2 = e.1 :=
  hname e.1 e.2 (get?_eq_some_iff.2 he)

theorem nodup_names : (m.values.map name).Nodup := by
  have hkeys : m.values.map name = m.entries.map Prod.fst := by
    rw [values, List.map_map]
    exact List.map_congr_left fun e he => name_of_mem hname he
  rw [hkeys]
  exact m.nodup

/-- The value of a key is the one that tells the key. -/
theorem values_filter_eq (key : String) :
    m.values.filter (fun value => name value == key) = (m.get? key).toList := by
  have hfilter : ∀ es : List (String × α), (es.map Prod.fst).Nodup → (∀ e ∈ es, name e.2 = e.1) →
      (es.map Prod.snd).filter (fun value => name value == key) = (es.lookup key).toList := by
    intro es hnodup hnames
    induction es with
    | nil => rfl
    | cons e es ih =>
      obtain ⟨k, value⟩ := e
      obtain ⟨hnew, hrest⟩ := List.nodup_cons.1 hnodup
      have hvalue : name value = k := hnames (k, value) List.mem_cons_self
      have htail := ih hrest fun e he => hnames e (List.mem_cons_of_mem _ he)
      by_cases hk : k = key
      · -- the key is not among the other entries
        have hnone : es.lookup key = none := by
          rw [List.lookup_eq_none_iff]
          intro e he
          have hne : e.1 ≠ key := fun heq => hnew (List.mem_map.2 ⟨e, he, heq.trans hk.symm⟩)
          simpa using hne.symm
        rw [hnone] at htail
        simp [hvalue, hk, htail]
      · have hk' : (key == k) = false := by simpa using Ne.symm hk
        simp [hvalue, hk, List.lookup_cons, hk', htail]
  exact hfilter m.entries m.nodup fun e he => name_of_mem hname he

theorem values_erase (key : String) :
    (m.erase key).values = m.values.filter fun value => name value != key := by
  have hentries : m.entries.filter (fun e => e.1 != key)
      = m.entries.filter fun e => name e.2 != key :=
    List.filter_congr fun e he => by rw [name_of_mem hname he]
  have herase : (m.erase key).entries = m.entries.filter fun e => e.1 != key := rfl
  rw [values, herase, hentries, values, List.filter_map]
  rfl

/-- The values are the one of a key and those that are left without it. -/
theorem values_perm (key : String) :
    m.values.Perm ((m.get? key).toList ++ (m.erase key).values) := by
  rw [← values_filter_eq hname, values_erase hname]
  exact (List.filter_append_perm (fun value => name value == key) m.values).symm

end Named

end TaskBoard.Keyed
