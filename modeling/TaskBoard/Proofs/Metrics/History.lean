import Mathlib.Algebra.BigOperators.Group.Finset.Piecewise
import TaskBoard.Proofs.Metrics.Tally

/-!
# What a history leaves in a tally

A tally that has seen a history of requests has a counter for each method, path and status in it,
and a histogram for each method and path. What is found for a method and path depends on its own
requests alone.

* `Histogram.cumulative_ofLatencies`: a bucket holds the latencies that are at most its bound;
* `Tally.counts_ofHistory`, `Tally.measures_ofHistory`: the counters and the histograms of a
  history;
* `sum_requestsOf`: the counters of a method and path together make up its requests;
* `requestsOf_own`, `latenciesOf_own`: requests of other methods and paths make no difference.
-/

namespace TaskBoard.Metrics

/-! ## Histories -/

/-- A request that has been answered. -/
structure Observation where
  labels : Labels
  status : UInt16
  nanos : Nat
deriving DecidableEq, Repr

/-- What a request is counted under. -/
def Observation.key (o : Observation) : CounterKey := ⟨o.labels, o.status.toNat⟩

/-- The tally after requests one after another. -/
def Tally.ofHistory (history : List Observation) : Tally :=
  history.foldl (fun t o => t.observe o.labels.method o.labels.path o.status.toNat o.nanos) {}

/-- How many requests of a method, path and status there were. -/
def requestsOf (history : List Observation) (key : CounterKey) : Nat :=
  history.countP fun o => o.key = key

/-- How many requests of a method and path there were. -/
def observed (history : List Observation) (labels : Labels) : Nat :=
  history.countP fun o => o.labels = labels

/-- How many requests of a method and path took at most so long. -/
def within (history : List Observation) (labels : Labels) (nanos : Nat) : Nat :=
  history.countP fun o => o.labels = labels ∧ o.nanos ≤ nanos

/-- The requests of a method and path. -/
def own (history : List Observation) (labels : Labels) : List Observation :=
  history.filter fun o => o.labels = labels

/-- How long the requests of a method and path took. -/
def latenciesOf (history : List Observation) (labels : Labels) : List Nat :=
  (own history labels).map Observation.nanos

/-- The histogram of latencies one after another. -/
def Histogram.ofLatencies (latencies : List Nat) : Histogram := latencies.foldl observe {}

variable {history : List Observation} {labels : Labels}

/-! ## Buckets -/

namespace Histogram

theorem ofLatencies_snoc (latencies : List Nat) (nanos : Nat) :
    ofLatencies (latencies ++ [nanos]) = (ofLatencies latencies).observe nanos :=
  List.foldl_concat ..

theorem length_fill (nanos : Nat) (bs : List Bound) (ns : List Nat) :
    (fill nanos bs ns).length = ns.length := by
  induction bs generalizing ns with
  | nil => rfl
  | cons b bs ih =>
    cases ns with
    | nil => rfl
    | cons n ns =>
      rw [fill]
      split
      · rfl
      · rw [List.length_cons, ih, List.length_cons]

theorem length_totals (total : Nat) (ns : List Nat) :
    (cumulative.go total ns).length = ns.length := by
  induction ns generalizing total with
  | nil => rfl
  | cons n ns ih => rw [cumulative.go, List.length_cons, ih, List.length_cons]

/-- Starting one higher makes every total one higher. -/
theorem totals_succ (total : Nat) (ns : List Nat) :
    cumulative.go (total + 1) ns = (cumulative.go total ns).map (· + 1) := by
  induction ns generalizing total with
  | nil => rfl
  | cons n ns ih =>
    simp only [cumulative.go, List.map_cons]
    rw [Nat.add_right_comm total 1 n, ih]

/-- If no bound is exceeded, all totals count the latency. -/
theorem zipWith_counted {bs : List Bound} {totals : List Nat} {nanos : Nat}
    (hall : ∀ b ∈ bs, nanos ≤ b.nanos) (hlength : totals.length = bs.length) :
    List.zipWith (fun b n => n + if nanos ≤ b.nanos then 1 else 0) bs totals
      = totals.map (· + 1) := by
  induction bs generalizing totals with
  | nil =>
    rw [List.length_eq_zero_iff.1 hlength]
    rfl
  | cons b bs ih =>
    rcases totals with _ | ⟨n, totals⟩
    · cases hlength
    have hrest := ih (fun b' hb' => hall b' (List.mem_cons_of_mem _ hb')) (Nat.succ.inj hlength)
    rw [List.zipWith_cons_cons, if_pos (hall b List.mem_cons_self), hrest, List.map_cons]

/-- The running total for a bound goes up exactly if the new latency is at most the bound. -/
theorem totals_fill {bs : List Bound} {ns : List Nat} (nanos total : Nat)
    (hincreasing : bs.Pairwise fun a b => a.nanos ≤ b.nanos) (hlength : ns.length = bs.length) :
    cumulative.go total (fill nanos bs ns) = List.zipWith
      (fun b n => n + if nanos ≤ b.nanos then 1 else 0) bs (cumulative.go total ns) := by
  induction bs generalizing ns total with
  | nil =>
    rw [List.length_eq_zero_iff.1 hlength]
    rfl
  | cons b bs ih =>
    rcases ns with _ | ⟨n, ns⟩
    · cases hlength
    rcases List.pairwise_cons.1 hincreasing with ⟨hfirst, hrest⟩
    have hlength' : ns.length = bs.length := Nat.succ.inj hlength
    rw [fill]
    split
    · rename_i hle
      -- the first bound that is not exceeded: from here on every total counts the latency
      have hall : ∀ b' ∈ bs, nanos ≤ b'.nanos := by
        intro b' hb'
        exact Nat.le_trans hle (hfirst b' hb')
      have htotals : (cumulative.go (total + n) ns).length = bs.length := by
        rw [length_totals, hlength']
      simp only [cumulative.go, List.zipWith_cons_cons, if_pos hle]
      rw [zipWith_counted hall htotals, ← Nat.add_assoc, totals_succ]
    · rename_i hgt
      simp only [cumulative.go, List.zipWith_cons_cons, if_neg hgt]
      rw [ih _ hrest hlength']
      rfl

theorem length_buckets (latencies : List Nat) :
    (ofLatencies latencies).buckets.length = bounds.length := by
  induction latencies using List.reverseRecOn with
  | nil => rfl
  | append_singleton latencies nanos ih =>
    rw [ofLatencies_snoc, observe, length_fill, ih]

theorem count_ofLatencies (latencies : List Nat) :
    (ofLatencies latencies).count = latencies.length := by
  induction latencies using List.reverseRecOn with
  | nil => rfl
  | append_singleton latencies nanos ih =>
    rw [ofLatencies_snoc, observe, ih, List.length_append, List.length_singleton]

theorem bounds_increasing : bounds.Pairwise fun a b => a.nanos ≤ b.nanos := by
  decide

/-- A bucket holds the latencies that are at most its bound. -/
theorem cumulative_ofLatencies (latencies : List Nat) : (ofLatencies latencies).cumulative
    = bounds.map fun b => latencies.countP fun nanos => nanos ≤ b.nanos := by
  induction latencies using List.reverseRecOn with
  | nil => rfl
  | append_singleton latencies nanos ih =>
    have hstep := totals_fill nanos 0 bounds_increasing (length_buckets latencies)
    rw [ofLatencies_snoc]
    show cumulative.go 0 (fill nanos bounds (ofLatencies latencies).buckets) = _
    rw [hstep]
    show List.zipWith _ bounds (ofLatencies latencies).cumulative = _
    rw [ih, List.zipWith_map_right, List.zipWith_self]
    apply List.map_congr_left
    intro b _
    rw [List.countP_append, List.countP_singleton]
    simp only [decide_eq_true_eq]

/-- The buckets are known from their running totals. -/
theorem totals_inj {total : Nat} {ms ns : List Nat}
    (h : cumulative.go total ms = cumulative.go total ns) : ms = ns := by
  induction ms generalizing total ns with
  | nil =>
    rcases ns with _ | ⟨n, ns⟩
    · rfl
    · cases h
  | cons m ms ih =>
    rcases ns with _ | ⟨n, ns⟩
    · cases h
    have hfirst : total + m = total + n := (List.cons.inj h).1
    have hrest := (List.cons.inj h).2
    rw [hfirst] at hrest
    rw [Nat.add_left_cancel hfirst, ih hrest]

end Histogram

/-! ## The tables of a history -/

/-- Keys in order are different from each other. -/
theorem InOrder.nodup_keys {κ α : Type} {before : κ → κ → Bool} {table : List (κ × α)}
    (hordered : InOrder before table) (h : Arranges before) : (table.map Prod.fst).Nodup := by
  apply List.pairwise_map.2
  apply List.Pairwise.imp _ hordered
  intro a b hbefore heq
  rw [heq] at hbefore
  exact h.irrefl _ hbefore

namespace Tally

variable {t : Tally} {latencies : Labels → List Nat}

theorem ofHistory_snoc (history : List Observation) (o : Observation) :
    ofHistory (history ++ [o])
      = (ofHistory history).observe o.labels.method o.labels.path o.status.toNat o.nanos :=
  List.foldl_concat ..

/-- The tally has measured so many latencies for each method and path, and has no other
histograms. -/
structure Measures (t : Tally) (latencies : Labels → List Nat) : Prop where
  ordered : InOrder Labels.before t.latency
  found : ∀ labels, t.latency.lookup labels
    = if latencies labels = [] then none else some (.ofLatencies (latencies labels))

theorem measures_empty : Measures {} fun _ => [] where
  ordered := .nil
  found _ := rfl

theorem Measures.observe (h : t.Measures latencies) (method path : String) (status nanos : Nat) :
    (t.observe method path status nanos).Measures
      fun labels => latencies labels ++ if labels = ⟨method, path⟩ then [nanos] else [] where
  ordered := h.ordered.alter Labels.arranges_before
  found labels := by
    rw [Tally.observe, lookup_alter Labels.arranges_before h.ordered, h.found, h.found]
    by_cases hlabels : labels = ⟨method, path⟩
    · subst hlabels
      -- the first latency finds no histogram and begins a new one
      by_cases hnone : latencies ⟨method, path⟩ = []
      · simp [hnone, Histogram.ofLatencies]
      · simp [hnone, Histogram.ofLatencies_snoc]
    · simp [hlabels]

theorem requestsOf_snoc (history : List Observation) (o : Observation) (key : CounterKey) :
    requestsOf (history ++ [o]) key = requestsOf history key + if key = o.key then 1 else 0 := by
  rw [requestsOf, List.countP_append, List.countP_singleton]
  simp only [decide_eq_true_eq, eq_comm (a := key)]
  rfl

theorem latenciesOf_snoc (history : List Observation) (o : Observation) (labels : Labels) :
    latenciesOf (history ++ [o]) labels
      = latenciesOf history labels ++ if labels = o.labels then [o.nanos] else [] := by
  rw [latenciesOf, own, List.filter_append, List.map_append]
  by_cases hlabels : labels = o.labels
  · simp [hlabels, latenciesOf, own]
  · simp [hlabels, Ne.symm hlabels, latenciesOf, own]

/-- The counters of a history. -/
theorem counts_ofHistory (history : List Observation) :
    (ofHistory history).Counts (requestsOf history) := by
  induction history using List.reverseRecOn with
  | nil => exact counts_empty
  | append_singleton history o ih =>
    have hcounts := ih.observe o.labels.method o.labels.path o.status.toNat o.nanos
    rw [ofHistory_snoc]
    have hkey : requestsOf (history ++ [o])
        = fun key => requestsOf history key + if key = o.key then 1 else 0 :=
      funext (requestsOf_snoc history o)
    rw [hkey]
    exact hcounts

/-- The histograms of a history. -/
theorem measures_ofHistory (history : List Observation) :
    (ofHistory history).Measures (latenciesOf history) := by
  induction history using List.reverseRecOn with
  | nil => exact measures_empty
  | append_singleton history o ih =>
    have hmeasures := ih.observe o.labels.method o.labels.path o.status.toNat o.nanos
    rw [ofHistory_snoc]
    have hlatencies : latenciesOf (history ++ [o])
        = fun labels => latenciesOf history labels ++ if labels = o.labels then [o.nanos] else [] :=
      funext (latenciesOf_snoc history o)
    rw [hlatencies]
    exact hmeasures

end Tally

/-! ## Numbers of requests -/

theorem length_latenciesOf (history : List Observation) (labels : Labels) :
    (latenciesOf history labels).length = observed history labels := by
  rw [latenciesOf, own, List.length_map, observed, List.countP_eq_length_filter]

theorem latenciesOf_eq_nil_iff : latenciesOf history labels = [] ↔ observed history labels = 0 := by
  rw [← length_latenciesOf, List.length_eq_zero_iff]

theorem countP_latenciesOf (history : List Observation) (labels : Labels) (bound : Nat) :
    (latenciesOf history labels).countP (fun nanos => nanos ≤ bound)
      = within history labels bound := by
  rw [latenciesOf, own, List.countP_map, List.countP_filter, within]
  apply List.countP_congr
  intro o _
  simp [and_comm]

/-- Every request has one of the statuses. -/
theorem sum_requestsOf (history : List Observation) (labels : Labels) :
    ∑ status ∈ Finset.range (2 ^ 16), requestsOf history ⟨labels, status⟩
      = observed history labels := by
  induction history with
  | nil => exact Finset.sum_const_zero
  | cons o history ih =>
    have hone : ∑ status ∈ Finset.range (2 ^ 16), (if o.key = ⟨labels, status⟩ then 1 else 0)
        = if o.labels = labels then 1 else 0 := by
      have hstatus : o.status.toNat ∈ Finset.range (2 ^ 16) := by
        apply Finset.mem_range.2
        exact o.status.toNat_lt
      by_cases hlabels : o.labels = labels
      · simp only [Observation.key, hlabels, CounterKey.mk.injEq, true_and]
        rw [Finset.sum_ite_eq, if_pos hstatus, if_true]
      · simp [Observation.key, hlabels]
    simp only [requestsOf, observed, List.countP_cons, decide_eq_true_eq] at ih ⊢
    rw [Finset.sum_add_distrib, ih, hone]

/-! ## The requests of one method and path -/

theorem own_own (history : List Observation) (labels : Labels) :
    own (own history labels) labels = own history labels := by
  rw [own, own, List.filter_filter]
  simp only [Bool.and_self]

theorem latenciesOf_own (history : List Observation) (labels : Labels) :
    latenciesOf (own history labels) labels = latenciesOf history labels := by
  rw [latenciesOf, own_own, latenciesOf]

theorem requestsOf_own (history : List Observation) (labels : Labels) (status : Nat) :
    requestsOf (own history labels) ⟨labels, status⟩ = requestsOf history ⟨labels, status⟩ := by
  rw [requestsOf, own, List.countP_filter, requestsOf]
  apply List.countP_congr
  intro o _
  simp only [Bool.and_eq_true, decide_eq_true_eq, and_iff_left_iff_imp]
  intro hkey
  exact congrArg CounterKey.labels hkey

end TaskBoard.Metrics
