import TaskBoard.Proofs.Keyed
import TaskBoard.Proofs.Run.PageAndCount
import TaskBoard.Proofs.Store.Listing
import Mathlib.Data.Int.Order.Basic

/-!
# Pages

A page is a stretch of the tasks that its filter picks, in an order that leaves nothing to how the
tasks are kept. So the pages of one limit, one after the other up to the total, are all these tasks
in that order, whatever each of the pages had to wait for.

* `Filter.accepts_iff`, `Task.before_of_newestFirst`: what is picked, and the order;
* `Table.pairwise_matching`, `Table.matching_eq_of_perm`: the tasks that a filter picks;
* `shows_page`: the page that a query is answered with;
* `pages_partition`: pages one after the other.
-/

namespace TaskBoard

open Run

/-! ## What is picked, and in which order -/

/-- The filter asks for the task. An empty assignee asks for nothing. -/
def Filter.Admits (f : Filter) (task : Task) : Prop :=
  (f.completed = none ∨ f.completed = some task.completed)
  ∧ (f.assignee = none ∨ f.assignee = some "" ∨ f.assignee = task.assignee)

instance (f : Filter) (task : Task) : Decidable (f.Admits task) :=
  inferInstanceAs (Decidable (_ ∧ _))

theorem Filter.accepts_iff {f : Filter} {task : Task} : f.accepts task = true ↔ f.Admits task := by
  obtain ⟨completed, assignee⟩ := f
  have hshape : shape ⟨completed, assignee⟩
      = .of completed (assignee.filter fun name => !name.isEmpty) := rfl
  have hassignee : ((assignee.filter fun name => !name.isEmpty) = none
      ∨ (assignee.filter fun name => !name.isEmpty) = task.assignee)
      ↔ (assignee = none ∨ assignee = some "" ∨ assignee = task.assignee) := by
    rcases assignee with _ | name
    · simp
    · by_cases hempty : name = ""
      · simp [hempty, Option.filter]
      · simp [hempty, Option.filter]
  unfold accepts Admits
  rw [hshape, ← hassignee]
  generalize (assignee.filter fun name => !name.isEmpty) = assignee'
  rcases completed with _ | done <;> rcases assignee' with _ | name
  · simp [Shape.of]
  · simp [Shape.of, eq_comm (a := some name)]
  · simp [Shape.of, eq_comm (a := done)]
  · simp [Shape.of, eq_comm (a := done), eq_comm (a := some name)]

/-- The task stands before the other in a list: it is newer, or as new and its id is greater. -/
def Task.Before (a b : Task) : Prop :=
  (b.createdAt.notAfter a.createdAt = true ∧ a.createdAt ≠ b.createdAt)
  ∨ (a.createdAt = b.createdAt ∧ b.id < a.id)

/-- Of tasks with different ids only one may stand before the other. -/
theorem Task.before_of_newestFirst {a b : Task} (h : a.newestFirst b = true) (hids : a.id ≠ b.id) :
    a.Before b := by
  obtain ⟨hnewer, hgreater⟩ := Task.newestFirst_iff.1 h
  by_cases hsame : a.createdAt = b.createdAt
  · right
    have hle : b.id ≤ a.id := hgreater hsame
    refine ⟨hsame, String.not_le.1 fun hle' => ?_⟩
    exact hids (String.le_antisymm hle' hle)
  · left
    exact ⟨hnewer, hsame⟩

namespace Table

variable {t t' : Table} {f : Filter}

theorem perm_matching (t : Table) (f : Filter) :
    (t.matching f).Perm (t.values.filter fun task => f.Admits task) := by
  have hsame : t.values.filter f.accepts = t.values.filter fun task => f.Admits task := by
    apply List.filter_congr
    intro task _
    rw [Bool.eq_iff_iff, Filter.accepts_iff, decide_eq_true_iff]
  rw [← hsame]
  exact List.mergeSort_perm _ _

theorem nodup_filter (hids : (t.values.map Task.id).Nodup) (p : Task → Bool) :
    ((t.values.filter p).map Task.id).Nodup :=
  hids.sublist (List.filter_sublist.map _)

/-- The tasks that a filter picks come in strict order. -/
theorem pairwise_matching (hids : (t.values.map Task.id).Nodup) :
    (t.matching f).Pairwise Task.Before := by
  have hsorted : (t.matching f).Pairwise fun a b => a.newestFirst b = true :=
    List.pairwise_mergeSort (fun a b c => @Task.newestFirst_trans a b c) Task.newestFirst_total _
  have hdistinct : (t.matching f).Pairwise fun a b => a.id ≠ b.id := by
    have hnodup : ((t.matching f).map Task.id).Nodup :=
      ((List.mergeSort_perm _ _).map _).nodup_iff.2 (nodup_filter hids _)
    exact List.pairwise_map.1 hnodup
  exact (hsorted.and hdistinct).imp fun h => Task.before_of_newestFirst h.1 h.2

theorem length_values (t : Table) : t.values.length = t.size := List.length_map _

theorem values_perm_of_perm (hperm : t'.entries.Perm t.entries) : t'.values.Perm t.values :=
  hperm.map Prod.snd

/-- However the tasks are kept, a filter picks the same ones in the same order. -/
theorem matching_eq_of_perm (hids : (t.values.map Task.id).Nodup)
    (hperm : t'.entries.Perm t.entries) : t'.matching f = t.matching f :=
  (mergeSort_eq_of_perm ((values_perm_of_perm hperm).symm.filter _) (nodup_filter hids _)).symm

theorem countFiltered_eq_of_perm (hperm : t'.entries.Perm t.entries) :
    t'.countFiltered f = t.countFiltered f := by
  unfold countFiltered
  rw [((values_perm_of_perm hperm).filter _).length_eq]

/-- A filter and its normal form pick the same tasks. -/
theorem matching_normalized (t : Table) (f : Filter) : t.matching f.normalized = t.matching f := by
  have hsame : f.normalized.accepts = f.accepts := funext (Filter.accepts_normalized f)
  unfold matching
  rw [hsame]

theorem countFiltered_normalized (t : Table) (f : Filter) :
    t.countFiltered f.normalized = t.countFiltered f := by
  have hsame : f.normalized.accepts = f.accepts := funext (Filter.accepts_normalized f)
  unfold countFiltered
  rw [hsame]

/-- The page of a query. -/
def page (t : Table) (q : Query) : Page where
  items := ((t.matching q.filter).drop q.offset.toInt.toNat).take q.normalized.limit.toInt.toNat
  limit := q.normalized.limit
  offset := q.normalized.offset
  total := t.countFiltered q.filter

/-- An offset below zero is as good as zero. -/
theorem offset_normalized (q : Query) :
    q.normalized.offset.toInt.toNat = q.offset.toInt.toNat := by
  simp only [Query.normalized]
  split
  · rename_i hle
    have hle' : q.offset.toInt ≤ 0 := Int64.le_iff_toInt_le.1 hle
    have hzero : (0 : Int64).toInt = 0 := rfl
    omega
  · rfl

theorem page_items (t : Table) (q : Query) : (t.page q).items = t.list q := by
  unfold page list
  rw [← offset_normalized, ← matching_normalized]
  rfl

theorem page_total (t : Table) (q : Query) : (t.page q).total = t.countFiltered q.filter := by
  rw [page]

/-- A limit that is not positive is as good as 100. -/
theorem page_of_nonpos (t : Table) (f : Filter) {limit : Int64} (offset : Int64)
    (hlimit : limit ≤ 0) : t.page ⟨limit, offset, f⟩ = t.page ⟨100, offset, f⟩ := by
  have hpositive : ¬ (100 : Int64) ≤ 0 := by decide
  have hdefault : (Query.normalized ⟨limit, offset, f⟩).limit
      = (Query.normalized ⟨100, offset, f⟩).limit := by
    simp only [Query.normalized, if_pos hlimit, if_neg hpositive]
    rfl
  unfold page
  rw [hdefault]
  rfl

/-- An offset below zero is as good as zero. -/
theorem page_of_neg (t : Table) (f : Filter) (limit : Int64) {offset : Int64}
    (hoffset : offset < 0) : t.page ⟨limit, offset, f⟩ = t.page ⟨limit, 0, f⟩ := by
  have hneg : offset.toInt < 0 := Int64.lt_iff_toInt_lt.1 hoffset
  have hle : offset ≤ 0 := Int64.le_of_lt hoffset
  have hfront : offset.toInt.toNat = (0 : Int64).toInt.toNat := by
    rw [Int.toNat_of_nonpos (by omega)]
    rfl
  have hzero : (Query.normalized ⟨limit, offset, f⟩).offset
      = (Query.normalized ⟨limit, 0, f⟩).offset := by
    simp only [Query.normalized, if_pos hle]
    rfl
  unfold page
  rw [hzero, hfront]
  rfl

theorem list_normalized (t : Table) (q : Query) : t.list q.normalized = t.list q := by
  unfold list
  rw [Query.normalized_normalized]

/-- The page does not depend on how the tasks are kept. -/
theorem page_eq_of_perm (hids : (t.values.map Task.id).Nodup)
    (hperm : t'.entries.Perm t.entries) (q : Query) : t'.page q = t.page q := by
  unfold page
  rw [matching_eq_of_perm hids hperm, countFiltered_eq_of_perm hperm]

end Table

/-! ## The page that is shown -/

/-- Whatever order the tasks of `t` are kept in, and however long each call takes, the query is
answered with the page. -/
def Shows (t : Table) (q : Query) (p : Page) : Prop :=
  ∀ (c : Conditions) (w : World), c.Reliable → w.table.entries.Perm t.entries →
    (runActivity c none (Service.list none q) w).1 = some (.ok p)

theorem answered_list {c : Conditions} (hc : c.Reliable) {t : Table} {q : Query}
    {reply : (StoreCall.list q).Reply} (h : Answered c t (.list q) reply) :
    reply = .ok (t.list q) := by
  obtain ⟨now, freshId, heq⟩ := h.performed hc
  rw [heq, Table.perform]

/-- A list that is not cached is asked from the store. -/
theorem Caching.list_none (q : Query) : list none q = .store (.list q.normalized) .done := rfl

/-- The list of the stored tasks is the one of the page. -/
theorem finds_items {c : Conditions} (hc : c.Reliable) (q : Query) (t : Table) :
    Finds c t (· = .ok (t.page q).items) (Caching.perform none (.list q.normalized)) := by
  have hitems : t.list q.normalized.normalized = (t.page q).items := by
    rw [Table.page_items, Table.list_normalized, Table.list_normalized]
  rw [Caching.perform, Caching.list_none, ← hitems]
  exact .store rfl fun reply hreply => .done (answered_list hc hreply)

/-- The count of the stored tasks is the one of the page. -/
theorem answered_count {c : Conditions} (hc : c.Reliable) {t : Table} {f : Filter}
    {reply : (StoreCall.countFiltered f).Reply} (h : Answered c t (.countFiltered f) reply) :
    reply = .ok (t.countFiltered f) := by
  obtain ⟨now, freshId, heq⟩ := h.performed hc
  rw [heq, Table.perform]

/-- The stored tasks are listed and counted, and nothing else can come of it. -/
theorem list_eq_page {c : Conditions} (hc : c.Reliable) (q : Query) (w : World) :
    (runActivity c none (Service.list none q) w).1 = some (.ok (w.table.page q)) := by
  have hfinds := finds_items hc q w.table
  obtain ⟨a, hrun⟩ : ∃ a, (runActivity c none (Service.list none q) w).1 = some a :=
    exists_of_pair hfinds
  obtain ⟨sides, hjoint, ha⟩ := joint_of_pair hfinds hrun
  rw [hrun, ha]
  rcases sides with e | ⟨items, total⟩
  · -- neither side fails
    rcases hjoint with hpage | htotal
    · cases hpage
    · cases answered_count hc htotal
  · obtain ⟨hitems, htotal⟩ := hjoint
    have htotal' : total = (w.table.page q).total := by
      rw [Table.page_total, Except.ok.inj (answered_count hc htotal)]
      exact Table.countFiltered_normalized w.table q.filter
    rw [Except.ok.inj hitems, htotal']
    rfl

/-- The page that a query is answered with. -/
theorem shows_page {t : Table} (hids : (t.values.map Task.id).Nodup) (q : Query) :
    Shows t q (t.page q) := by
  intro c w hc hperm
  rw [list_eq_page hc, Table.page_eq_of_perm hids hperm]

/-! ## Pages one after the other -/

/-- Stretches of one length, one after the other, are the front of the list. -/
theorem flatMap_stretches {α : Type} (xs : List α) (length count : Nat) :
    (List.range count).flatMap (fun k => (xs.drop (k * length)).take length)
      = xs.take (count * length) := by
  induction count with
  | zero => simp
  | succ count ih =>
    rw [List.range_succ, List.flatMap_append, ih, Nat.succ_mul, List.take_add]
    simp

/-- The offsets 0, `limit`, 2 `limit` and so on, up to the total. -/
def pageOffsets (limit total : Int64) : List Int64 :=
  (List.range (total.toInt.toNat / limit.toInt.toNat + 1)).map fun k =>
    Int64.ofNat (k * limit.toInt.toNat)

/-- A number of tasks that fits 63 bits is counted as it is. -/
theorem Table.toInt_countFiltered {t : Table} (hsize : t.size ≤ 9223372036854775807) (f : Filter) :
    (t.countFiltered f).toInt = (t.matching f).length := by
  have hpicked : (t.matching f).length = (t.values.filter f.accepts).length :=
    (List.mergeSort_perm _ _).length_eq
  have hle : (t.values.filter f.accepts).length ≤ 9223372036854775807 := by
    refine Nat.le_trans (List.length_filter_le _ _) ?_
    rw [Table.length_values]
    exact hsize
  rw [hpicked, Table.countFiltered, Table.countOf, Nat.min_eq_left hle]
  exact Int64.toInt_ofNat_of_lt (by omega)

/-- A page holds what is left of the tasks from its offset on, up to its limit. -/
theorem Table.length_page {t : Table} (hsize : t.size ≤ 9223372036854775807) {q : Query}
    (hlimit : 1 ≤ q.limit) (hoffset : 0 ≤ q.offset) :
    (t.page q).limit = q.limit ∧ (t.page q).offset = q.offset
    ∧ ((t.page q).items.length : Int)
      = min q.limit.toInt (max 0 ((t.countFiltered q.filter).toInt - q.offset.toInt)) := by
  have hlimit' : 1 ≤ q.limit.toInt := Int64.le_iff_toInt_le.1 hlimit
  have hoffset' : 0 ≤ q.offset.toInt := Int64.le_iff_toInt_le.1 hoffset
  have hkeep : q.normalized.limit = q.limit := if_neg fun hle => by
    have hle' : q.limit.toInt ≤ 0 := Int64.le_iff_toInt_le.1 hle
    omega
  have hkeep' : q.normalized.offset = q.offset := by
    by_cases hle : q.offset ≤ 0
    · rw [← Int64.toInt_inj]
      have hle' : q.offset.toInt ≤ 0 := Int64.le_iff_toInt_le.1 hle
      have hzero : (0 : Int64).toInt = 0 := rfl
      simp only [Query.normalized, if_pos hle, hzero]
      omega
    · exact if_neg hle
  refine ⟨hkeep, hkeep', ?_⟩
  have htotal := t.toInt_countFiltered hsize q.filter
  simp only [Table.page, hkeep, List.length_take, List.length_drop]
  omega

/-- The pages of one limit, one after the other, are all the tasks that their filter picks. -/
theorem Table.flatMap_pages {t : Table} (hsize : t.size ≤ 9223372036854775807) (f : Filter)
    {limit : Int64} (hlimit : 1 ≤ limit) :
    (pageOffsets limit (t.countFiltered f)).flatMap (fun offset => (t.page ⟨limit, offset, f⟩).items)
      = t.matching f := by
  have hlimit' : 1 ≤ limit.toInt := Int64.le_iff_toInt_le.1 hlimit
  have htotal := t.toInt_countFiltered hsize f
  have hbound : (t.countFiltered f).toInt < 9223372036854775808 := Int64.toInt_lt _
  have hlength : (t.countFiltered f).toInt.toNat = (t.matching f).length := by omega
  have hkeep : ∀ offset, (Query.normalized ⟨limit, offset, f⟩).limit = limit := fun _ =>
    if_neg fun hle => by
      have hle' : limit.toInt ≤ 0 := Int64.le_iff_toInt_le.1 hle
      omega
  rw [pageOffsets, hlength, List.flatMap_map]
  generalize hsteps : limit.toInt.toNat = steps
  have hpos : 0 < steps := by omega
  -- an offset up to the total fits 64 bits
  have hpage : ∀ k ∈ List.range ((t.matching f).length / steps + 1),
      (t.page ⟨limit, Int64.ofNat (k * steps), f⟩).items
        = ((t.matching f).drop (k * steps)).take steps := by
    intro k hk
    have hmul : k * steps ≤ (t.matching f).length :=
      (Nat.le_div_iff_mul_le hpos).1 (Nat.lt_succ_iff.1 (List.mem_range.1 hk))
    have hfits : (Int64.ofNat (k * steps)).toInt = (k * steps : Nat) :=
      Int64.toInt_ofNat_of_lt (by omega)
    simp only [Table.page, hkeep, hsteps, hfits, Int.toNat_natCast]
  rw [List.flatMap_congr hpage, flatMap_stretches]
  have hall : (t.matching f).length ≤ ((t.matching f).length / steps + 1) * steps := by
    rw [Nat.mul_comm]
    exact Nat.le_of_lt (Nat.lt_mul_div_succ _ hpos)
  exact List.take_of_length_le hall

/-- No store holds more tasks than can be counted. Whatever order its tasks are kept in, the pages
of one limit, one after the other up to the total, are the tasks that their filter asks for, each of
them once and in strict order. A limit that is not positive is as good as 100, and an offset below
zero as good as zero. -/
theorem pages_partition {t : Table} (hids : (t.values.map Task.id).Nodup)
    (hsize : t.size ≤ 9223372036854775807) (f : Filter) :
    ∃ (total : Int64) (page : Int64 → Int64 → Page),
      (∀ limit offset, Shows t ⟨limit, offset, f⟩ (page limit offset)
        ∧ (page limit offset).total = total)
      ∧ (∀ now freshId (t' : Table), t'.entries.Perm t.entries →
        (Table.perform now freshId (.countFiltered f) t').1 = .ok total)
      ∧ total.toInt = (t.values.filter fun task => f.Admits task).length
      ∧ (∀ limit offset, 1 ≤ limit → 0 ≤ offset →
        (page limit offset).limit = limit ∧ (page limit offset).offset = offset
        ∧ ((page limit offset).items.length : Int)
          = min limit.toInt (max 0 (total.toInt - offset.toInt)))
      ∧ (∀ limit, 1 ≤ limit →
        ((pageOffsets limit total).flatMap fun offset => (page limit offset).items).Perm
          (t.values.filter fun task => f.Admits task)
        ∧ ((pageOffsets limit total).flatMap fun offset =>
          (page limit offset).items).Pairwise Task.Before)
      ∧ (∀ limit offset, limit ≤ 0 → page limit offset = page 100 offset)
      ∧ ∀ limit offset, offset < 0 → page limit offset = page limit 0 := by
  refine ⟨t.countFiltered f, fun limit offset => t.page ⟨limit, offset, f⟩, ?_, ?_, ?_, ?_, ?_, ?_, ?_⟩
  · intro limit offset
    exact ⟨shows_page hids _, Table.page_total t _⟩
  · intro now freshId t' hperm
    rw [Table.perform, Table.countFiltered_eq_of_perm hperm]
  · rw [Table.toInt_countFiltered hsize, (t.perm_matching f).length_eq]
  · intro limit offset hlimit hoffset
    exact Table.length_page (q := ⟨limit, offset, f⟩) hsize hlimit hoffset
  · intro limit hlimit
    rw [Table.flatMap_pages hsize f hlimit]
    exact ⟨t.perm_matching f, Table.pairwise_matching hids⟩
  · intro limit offset hlimit
    exact Table.page_of_nonpos t f offset hlimit
  · intro limit offset hoffset
    exact Table.page_of_neg t f limit hoffset

/-- Two tasks of one age. -/
def tied : Table :=
  let task (id : String) : Task := (Draft.titled "x").toTask id { seconds := 0, nanos := 0 }
  (Keyed.empty.insert "a" (task "a")).insert "b" (task "b")

/-- An empty assignee asks for both, and pages of one task show each of them once. -/
theorem pages_of_tied :
    ∃ (total : Int64) (page : Int64 → Page), total.toInt = 2
      ∧ (∀ offset, Shows tied ⟨1, offset, .byAssignee ""⟩ (page offset))
      ∧ ((pageOffsets 1 total).flatMap fun offset => (page offset).items).Perm tied.values := by
  obtain ⟨total, page, hshows, -, htotal, -, hall, -, -⟩ :=
    pages_partition (t := tied) (by decide) (by decide) (.byAssignee "")
  have hboth : (tied.values.filter fun task => (Filter.byAssignee "").Admits task)
      = tied.values := by decide
  rw [hboth] at htotal hall
  refine ⟨total, page 1, htotal, fun offset => (hshows 1 offset).1, ?_⟩
  exact (hall 1 (by decide)).1

end TaskBoard
