import Mathlib.Data.String.Basic
import TaskBoard.Metrics.Tally

/-!
# What a tally has counted

The tables of a tally are kept in the order of their keys, which is what a new key finds its place
by. So there is one entry for a key, and it is the one that is found.

* `Arranges.lex`, `CounterKey.arranges_before`: the order of the keys;
* `lookup_alter`, `InOrder.alter`: a table with one entry changed;
* `Tally.Counts`: a tally that has counted so many requests for each key;
* `Tally.Under`: a tally that has only certain paths.
-/

namespace TaskBoard.Metrics

/-! ## The order of the keys -/

/-- A strict order in which any two keys have their places. -/
structure Arranges {κ : Type} (before : κ → κ → Bool) : Prop where
  irrefl : ∀ a, ¬ before a a = true
  trans : ∀ {a b c}, before a b = true → before b c = true → before a c = true
  connex : ∀ {a b}, a ≠ b → before a b = true ∨ before b a = true

theorem arranges_string : Arranges fun a b : String => decide (a < b) where
  irrefl a h := String.lt_irrefl a (of_decide_eq_true h)
  trans hab hbc := decide_eq_true (String.lt_trans (of_decide_eq_true hab) (of_decide_eq_true hbc))
  connex hne := (lt_or_gt_of_ne hne).imp decide_eq_true decide_eq_true

theorem arranges_nat : Arranges fun a b : Nat => decide (a < b) where
  irrefl a h := Nat.lt_irrefl a (of_decide_eq_true h)
  trans hab hbc := decide_eq_true (Nat.lt_trans (of_decide_eq_true hab) (of_decide_eq_true hbc))
  connex hne := (Nat.lt_or_gt_of_ne hne).imp decide_eq_true decide_eq_true

/-- Keys of two parts are in order by the first part, then by the second. -/
theorem Arranges.lex {κ α β : Type} [BEq α] [LawfulBEq α] {first : κ → α} {second : κ → β}
    {before : α → α → Bool} {before' : β → β → Bool} (h : Arranges before) (h' : Arranges before')
    (hparts : ∀ {a b}, first a = first b → second a = second b → a = b) :
    Arranges fun a b => before (first a) (first b)
      || (first a == first b && before' (second a) (second b)) where
  irrefl a := by simp [h.irrefl, h'.irrefl]
  trans {a b c} hab hbc := by
    simp only [Bool.or_eq_true, Bool.and_eq_true, beq_iff_eq] at hab hbc ⊢
    rcases hab with hab | ⟨heq, hab⟩ <;> rcases hbc with hbc | ⟨heq', hbc⟩
    · exact Or.inl (h.trans hab hbc)
    · exact Or.inl (heq' ▸ hab)
    · exact Or.inl (heq ▸ hbc)
    · exact Or.inr ⟨heq.trans heq', h'.trans hab hbc⟩
  connex {a b} hne := by
    simp only [Bool.or_eq_true, Bool.and_eq_true, beq_iff_eq]
    by_cases heq : first a = first b
    · have hsecond : second a ≠ second b := fun hsecond => hne (hparts heq hsecond)
      exact (h'.connex hsecond).imp (fun hlt => Or.inr ⟨heq, hlt⟩) fun hlt => Or.inr ⟨heq.symm, hlt⟩
    · exact (h.connex heq).imp Or.inl Or.inl

theorem Labels.arranges_before : Arranges Labels.before :=
  arranges_string.lex arranges_string fun {a b} hmethod hpath => by
    cases a
    cases b
    simp_all

theorem CounterKey.arranges_before : Arranges CounterKey.before :=
  Labels.arranges_before.lex arranges_nat fun {a b} hlabels hstatus => by
    cases a
    cases b
    simp_all

/-! ## Tables in order -/

section Table

variable {κ α : Type} [DecidableEq κ] {before : κ → κ → Bool} {key : κ} {f : Option α → α}
  {table : List (κ × α)}

/-- Every entry comes before those behind it. -/
def InOrder (before : κ → κ → Bool) (table : List (κ × α)) : Prop :=
  table.Pairwise fun a b => before a.1 b.1 = true

theorem lookup_cons_eq (k k' : κ) (a : α) :
    ((k', a) :: table).lookup k = if k = k' then some a else table.lookup k := by
  by_cases heq : k = k'
  · simp [heq]
  · rw [List.lookup_cons, beq_false_of_ne heq, if_neg heq]

/-- A key that comes before all others is not among them. -/
theorem lookup_eq_none (h : Arranges before) (hall : ∀ e ∈ table, before key e.1 = true) :
    table.lookup key = none := by
  refine List.lookup_eq_none_iff.2 fun e he => ?_
  rw [bne_iff_ne]
  rintro rfl
  exact h.irrefl _ (hall e he)

theorem key_of_mem_alter {e : κ × α} (he : e ∈ alter before key f table) :
    e.1 = key ∨ e ∈ table := by
  induction table with
  | nil => exact Or.inl (congrArg Prod.fst (List.mem_singleton.1 he))
  | cons entry rest ih =>
    obtain ⟨k, a⟩ := entry
    unfold alter at he
    split at he
    · rename_i hk
      rcases List.mem_cons.1 he with rfl | hrest
      · exact Or.inl hk
      · exact Or.inr (List.mem_cons_of_mem _ hrest)
    · split at he
      · rcases List.mem_cons.1 he with rfl | hrest
        · exact Or.inl rfl
        · exact Or.inr hrest
      · rcases List.mem_cons.1 he with rfl | hrest
        · exact Or.inr List.mem_cons_self
        · exact (ih hrest).imp id (List.mem_cons_of_mem _)

theorem InOrder.alter (h : Arranges before) (hordered : InOrder before table) :
    InOrder before (alter before key f table) := by
  induction table with
  | nil => exact List.pairwise_singleton _ _
  | cons entry rest ih =>
    obtain ⟨k, a⟩ := entry
    obtain ⟨hfirst, hrest⟩ := List.pairwise_cons.1 hordered
    unfold Metrics.alter
    split
    · exact List.pairwise_cons.2 ⟨hfirst, hrest⟩
    · rename_i hne
      split
      · rename_i hbefore
        refine List.pairwise_cons.2 ⟨?_, hordered⟩
        intro e he
        rcases List.mem_cons.1 he with rfl | he
        · exact hbefore
        · exact h.trans hbefore (hfirst e he)
      · rename_i hbehind
        refine List.pairwise_cons.2 ⟨?_, ih hrest⟩
        intro e he
        rcases key_of_mem_alter he with heq | he
        · rw [heq]
          exact (h.connex hne).resolve_right hbehind
        · exact hfirst e he

/-- The changed entry is found under its key, and the others as before. -/
theorem lookup_alter (h : Arranges before) (hordered : InOrder before table) (k : κ) :
    (alter before key f table).lookup k
      = if k = key then some (f (table.lookup key)) else table.lookup k := by
  induction table with
  | nil => exact lookup_cons_eq k key _
  | cons entry rest ih =>
    obtain ⟨k', a⟩ := entry
    obtain ⟨hfirst, hrest⟩ := List.pairwise_cons.1 hordered
    unfold alter
    split
    · rename_i hk
      subst hk
      simp only [lookup_cons_eq, if_true]
      by_cases heq : k = k' <;> simp [heq]
    · rename_i hne
      split
      · rename_i hbefore
        -- an entry with the key would be further on, behind those that come after it
        have hnone : ((k', a) :: rest).lookup key = none := by
          refine lookup_eq_none h fun e he => ?_
          rcases List.mem_cons.1 he with rfl | he
          · exact hbefore
          · exact h.trans hbefore (hfirst e he)
        rw [hnone, lookup_cons_eq]
      · simp only [lookup_cons_eq, ih hrest, if_neg (Ne.symm hne)]
        by_cases heq : k = k'
        · rw [if_pos heq, if_neg fun hkey => hne (heq.symm.trans hkey), if_pos heq]
        · simp only [if_neg heq]

/-- There is one entry for a key. -/
theorem InOrder.mem_iff (h : Arranges before) (hordered : InOrder before table) {value : α} :
    (key, value) ∈ table ↔ table.lookup key = some value := by
  induction table with
  | nil => simp
  | cons entry rest ih =>
    obtain ⟨k, a⟩ := entry
    obtain ⟨hfirst, hrest⟩ := List.pairwise_cons.1 hordered
    rw [List.mem_cons, ih hrest, lookup_cons_eq]
    by_cases heq : key = k
    · subst heq
      simp [lookup_eq_none h hfirst, eq_comm]
    · simp [heq]

end Table

/-! ## Counting -/

namespace Tally

variable {t : Tally} {count : CounterKey → Nat}

/-- The tally has counted so many requests for each key, and has no other counters. -/
structure Counts (t : Tally) (count : CounterKey → Nat) : Prop where
  ordered : InOrder CounterKey.before t.requests
  found : ∀ key, t.requests.lookup key = if count key = 0 then none else some (count key)

theorem counts_empty : Counts {} fun _ => 0 where
  ordered := .nil
  found _ := rfl

theorem Counts.observe (h : t.Counts count) (method path : String) (status nanos : Nat) :
    (t.observe method path status nanos).Counts
      fun key => count key + if key = ⟨⟨method, path⟩, status⟩ then 1 else 0 where
  ordered := h.ordered.alter CounterKey.arranges_before
  found key := by
    rw [Tally.observe, lookup_alter CounterKey.arranges_before h.ordered, h.found, h.found]
    by_cases hkey : key = ⟨⟨method, path⟩, status⟩
    · subst hkey
      by_cases hzero : count ⟨⟨method, path⟩, status⟩ = 0 <;> simp [hzero]
    · simp [hkey]

theorem Counts.requestsTotal_eq (h : t.Counts count) (method path : String) (status : Nat) :
    t.requestsTotal method path status = count ⟨⟨method, path⟩, status⟩ := by
  rw [requestsTotal, h.found]
  split
  · rename_i hzero
    exact hzero.symm
  · rfl

/-- The counters are those of the keys for which there were requests. -/
theorem Counts.mem_requests (h : t.Counts count) {key : CounterKey} {n : Nat} :
    (key, n) ∈ t.requests ↔ n = count key ∧ n ≠ 0 := by
  rw [h.ordered.mem_iff CounterKey.arranges_before, h.found]
  split
  · rename_i hzero
    constructor
    · intro hnone
      cases hnone
    · rintro ⟨rfl, hpositive⟩
      exact absurd hzero hpositive
  · rename_i hpositive
    constructor
    · intro hsome
      obtain rfl := Option.some.inj hsome
      exact ⟨rfl, hpositive⟩
    · rintro ⟨rfl, -⟩
      rfl

/-- All that has been counted has a path of these. -/
structure Under (known : String → Prop) (t : Tally) : Prop where
  requests : ∀ e ∈ t.requests, known e.1.labels.path
  latency : ∀ e ∈ t.latency, known e.1.path

theorem under_empty (known : String → Prop) : Under known {} where
  requests := by simp
  latency := by simp

theorem Under.observe {known : String → Prop} (h : t.Under known) {method path : String}
    {status nanos : Nat} (hpath : known path) :
    (t.observe method path status nanos).Under known where
  requests e he := by
    rcases key_of_mem_alter he with hkey | hold
    · rw [hkey]
      exact hpath
    · exact h.requests e hold
  latency e he := by
    rcases key_of_mem_alter he with hkey | hold
    · rw [hkey]
      exact hpath
    · exact h.latency e hold

end Tally

end TaskBoard.Metrics
