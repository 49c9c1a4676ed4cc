import TaskBoard.Proofs.Metrics.Reading

/-!
# The metrics text agrees with the history

What the text says of a method and path is what has happened: its buckets, its counts and its
counters are numbers of requests in the history, and the requests of other methods and paths play
no part in them.

* `shown_ofLatencies`: the buckets that the text shows;
* `Reading.Agrees`: a reading whose numbers are those of a history;
* `text_agrees`: the text of any history, and the counters that are asked for one by one.
-/

namespace TaskBoard.Metrics

/-- What a text says of a method and path after a history. -/
def seriesAfter (history : List Observation) (labels : Labels) : Series where
  labels := labels
  buckets := bounds.map (fun b => (b.label, within history labels b.nanos))
    ++ [("+Inf", observed history labels)]
  count := observed history labels

/-- The numbers of a reading are those of a history. -/
structure Reading.Agrees (r : Reading) (history : List Observation) : Prop where
  /-- A method and path that there were requests of has one histogram, any other has none. -/
  histogram : ∀ labels, (r.histograms.filter fun s => s.labels = labels)
    = if observed history labels = 0 then [] else [seriesAfter history labels]
  /-- The numbers do not decrease along the buckets of a histogram, and the last is its count. -/
  increasing : ∀ s ∈ r.histograms, s.buckets.Pairwise fun a b => a.2 ≤ b.2
  /-- A counter is shown if there were such requests. -/
  counter : ∀ key n, (key, n) ∈ r.counters ↔ n = requestsOf history key ∧ n ≠ 0
  /-- No number exceeds that of all requests, so that 64 bits are enough for fewer than `2 ^ 64`. -/
  bounded : (∀ s ∈ r.histograms, ∀ b ∈ s.buckets, b.2 ≤ history.length)
    ∧ ∀ e ∈ r.counters, e.2 ≤ history.length

variable {history : List Observation} {labels : Labels}

/-! ## Histograms -/

/-- The entries of a key in a table are what is found under the key. -/
theorem filter_key {κ α : Type} [DecidableEq κ] {table : List (κ × α)}
    (hunique : (table.map Prod.fst).Nodup) (key : κ) :
    (table.filter fun e => e.1 = key) = (table.lookup key).toList.map (key, ·) := by
  induction table with
  | nil => rfl
  | cons entry table ih =>
    rcases entry with ⟨k, a⟩
    rcases List.nodup_cons.1 hunique with ⟨hfirst, hrest⟩
    rw [lookup_cons_eq, List.filter_cons, ih hrest]
    by_cases hkey : key = k
    · subst hkey
      have hnone : table.lookup key = none := by
        apply List.lookup_eq_none_iff.2
        intro e he
        rw [bne_iff_ne]
        rintro rfl
        have hkey : e.1 ∈ table.map Prod.fst := List.mem_map_of_mem he
        exact hfirst hkey
      simp [hnone]
    · simp [hkey, Ne.symm hkey]

theorem shown_ofLatencies (history : List Observation) (labels : Labels) :
    (Histogram.ofLatencies (latenciesOf history labels)).shown
      = (seriesAfter history labels).buckets := by
  rw [Histogram.shown, Histogram.cumulative_ofLatencies, Histogram.count_ofLatencies,
    length_latenciesOf, List.zipWith_map_right, List.zipWith_self]
  simp only [countP_latenciesOf, seriesAfter]

theorem filter_histograms (history : List Observation) (tasks : Int64) (labels : Labels) :
    (((Tally.ofHistory history).reading tasks).histograms.filter fun s => s.labels = labels)
      = if observed history labels = 0 then [] else [seriesAfter history labels] := by
  have hmeasures := Tally.measures_ofHistory history
  have hunique := hmeasures.ordered.nodup_keys Labels.arranges_before
  rw [Tally.reading, List.filter_map]
  show ((Tally.ofHistory history).latency.filter fun e => e.1 = labels).map _ = _
  rw [filter_key hunique, hmeasures.found]
  by_cases hzero : observed history labels = 0
  · rw [if_pos (latenciesOf_eq_nil_iff.2 hzero), if_pos hzero]
    rfl
  · have hne : latenciesOf history labels ≠ [] := fun hnil => hzero (latenciesOf_eq_nil_iff.1 hnil)
    rw [if_neg hne, if_neg hzero]
    simp only [Option.toList_some, List.map_cons, List.map_nil, shown_ofLatencies,
      Histogram.count_ofLatencies, length_latenciesOf]
    rfl

/-- Every histogram that is shown is that of a method and path after the history. -/
theorem eq_seriesAfter {tasks : Int64} {s : Series}
    (hs : s ∈ ((Tally.ofHistory history).reading tasks).histograms) :
    s = seriesAfter history s.labels := by
  have hmem : s ∈ ((Tally.ofHistory history).reading tasks).histograms.filter
      fun s' => s'.labels = s.labels :=
    List.mem_filter.2 ⟨hs, decide_eq_true rfl⟩
  rw [filter_histograms] at hmem
  split at hmem
  · cases hmem
  · exact List.mem_singleton.1 hmem

theorem within_mono {shorter longer : Nat} (h : shorter ≤ longer) :
    within history labels shorter ≤ within history labels longer := by
  apply List.countP_mono_left
  intro o _ hboth
  simp only [decide_eq_true_eq] at hboth ⊢
  exact ⟨hboth.1, Nat.le_trans hboth.2 h⟩

theorem within_le_observed (nanos : Nat) :
    within history labels nanos ≤ observed history labels := by
  apply List.countP_mono_left
  intro o _ hboth
  simp only [decide_eq_true_eq] at hboth ⊢
  exact hboth.1

/-- The buckets of a longer bound hold those of a shorter one, and all requests hold both. -/
theorem increasing_seriesAfter (history : List Observation) (labels : Labels) :
    (seriesAfter history labels).buckets.Pairwise fun a b => a.2 ≤ b.2 := by
  apply List.pairwise_append.2
  refine ⟨?_, List.pairwise_singleton _ _, ?_⟩
  · apply List.pairwise_map.2
    apply List.Pairwise.imp _ Histogram.bounds_increasing
    intro a b hle
    exact within_mono hle
  · intro a ha b hb
    rcases List.mem_map.1 ha with ⟨bound, -, rfl⟩
    rw [List.mem_singleton.1 hb]
    exact within_le_observed _

theorem le_observed_of_mem {b : String × Nat} (hb : b ∈ (seriesAfter history labels).buckets) :
    b.2 ≤ observed history labels := by
  rcases List.mem_append.1 hb with hb | hb
  · rcases List.mem_map.1 hb with ⟨bound, -, rfl⟩
    exact within_le_observed _
  · rw [List.mem_singleton.1 hb]

/-! ## The text -/

theorem agrees_reading (history : List Observation) (tasks : Int64) :
    ((Tally.ofHistory history).reading tasks).Agrees history where
  histogram := filter_histograms history tasks
  increasing s hs := by
    rw [eq_seriesAfter hs]
    exact increasing_seriesAfter history s.labels
  counter key n := (Tally.counts_ofHistory history).mem_requests
  bounded := by
    constructor
    · intro s hs b hb
      rw [eq_seriesAfter hs] at hb
      exact Nat.le_trans (le_observed_of_mem hb) List.countP_le_length
    · rintro ⟨key, n⟩ he
      rcases (Tally.counts_ofHistory history).mem_requests.1 he with ⟨rfl, -⟩
      exact List.countP_le_length

/-- The text of any history agrees with the history. So do the counters that are asked for one by
one; those of a method and path together make up its histogram's count. And what there is about a
method and path is the same as if there had been no other requests than its own. -/
theorem text_agrees (history : List Observation) (tasks : Int64) :
    (∃ reading, Reading.ofText? ((Tally.ofHistory history).render tasks) = some reading
      ∧ reading.Agrees history)
    ∧ ∀ labels : Labels,
      (∀ status, (Tally.ofHistory history).requestsTotal labels.method labels.path status
        = requestsOf history ⟨labels, status⟩)
      ∧ ∑ status ∈ Finset.range (2 ^ 16),
          (Tally.ofHistory history).requestsTotal labels.method labels.path status
        = observed history labels
      ∧ (Tally.ofHistory (own history labels)).latency.lookup labels
        = (Tally.ofHistory history).latency.lookup labels
      ∧ ∀ status, (Tally.ofHistory (own history labels)).requestsTotal labels.method labels.path
          status = (Tally.ofHistory history).requestsTotal labels.method labels.path status := by
  have hmeasures := Tally.measures_ofHistory history
  constructor
  · refine ⟨(Tally.ofHistory history).reading tasks, ?_, agrees_reading history tasks⟩
    apply Reading.ofText?_render
    exact hmeasures.ordered.nodup_keys Labels.arranges_before
  · intro labels
    have htotal : ∀ history status,
        (Tally.ofHistory history).requestsTotal labels.method labels.path status
          = requestsOf history ⟨labels, status⟩ := fun history status =>
      (Tally.counts_ofHistory history).requestsTotal_eq labels.method labels.path status
    refine ⟨htotal history, ?_, ?_, ?_⟩
    · simp only [htotal]
      exact sum_requestsOf history labels
    · rw [hmeasures.found, (Tally.measures_ofHistory (own history labels)).found, latenciesOf_own]
    · intro status
      rw [htotal, htotal, requestsOf_own]

end TaskBoard.Metrics
