import TaskBoard.Proofs.Metrics.History
import TaskBoard.Proofs.Metrics.Samples

/-!
# The metrics text read back

The samples of a text, put together by families, are the counters, the histograms and the gauge
that have been written. So the text of a history determines what the history has left. The sums of
the latencies are left aside.

* `Reading.ofText?_render`: what the text of a tally says;
* `text_read_back`: the text of a history read back, and what two histories with one text have in
  common.
-/

namespace TaskBoard.Metrics

open Text

/-! ## What samples mean -/

/-- A histogram as a text shows it. -/
structure Series where
  labels : Labels
  /-- The upper bounds as they are written, each with its number. -/
  buckets : List (String × Nat)
  count : Nat
deriving DecidableEq, Repr

/-- What a text says. -/
structure Reading where
  counters : List (CounterKey × Nat)
  histograms : List Series
  tasks : Int
deriving DecidableEq, Repr

/-- The labels of a kind of request with one more label. -/
def labelsAnd? (name : String) : List (String × String) → Option (Labels × String)
  | [("method", method), ("path", path), (name', value)] =>
    if name' = name then some (⟨method, path⟩, value) else none
  | _ => none

namespace Sample

/-- A counter and its number. -/
def counter? (s : Sample) : Option (CounterKey × Nat) :=
  if s.name = "requests_total" then
    (labelsAnd? "status" s.labels).bind fun (labels, status) =>
      (readNat? status.toList).bind fun status =>
        (readNat? s.value).map fun n => (⟨labels, status⟩, n)
  else none

/-- A bucket of a histogram: whose it is, its upper bound and its number. -/
def bucket? (s : Sample) : Option (Labels × String × Nat) :=
  if s.name = "request_latency_seconds_bucket" then
    (labelsAnd? "le" s.labels).bind fun (labels, bound) =>
      (readNat? s.value).map fun n => (labels, bound, n)
  else none

/-- The count of a histogram. -/
def count? (s : Sample) : Option (Labels × Nat) :=
  if s.name = "request_latency_seconds_count" then
    match s.labels with
    | [("method", method), ("path", path)] =>
      (readNat? s.value).map fun n => (⟨method, path⟩, n)
    | _ => none
  else none

/-- The gauge. -/
def gauge? (s : Sample) : Option Int :=
  if s.name = "tasks_count" ∧ s.labels = [] then readSigned? s.value else none

end Sample

namespace Reading

/-- The histogram of labels with a count, from the buckets of all histograms. -/
def seriesOf (buckets : List (Labels × String × Nat)) (labels : Labels) (count : Nat) : Series where
  labels := labels
  buckets := (buckets.filter fun b => b.1 = labels).map Prod.snd
  count := count

/-- What samples say. There has to be one gauge. -/
def ofSamples? (samples : List Sample) : Option Reading :=
  match samples.filterMap Sample.gauge? with
  | [tasks] => some {
      counters := samples.filterMap Sample.counter?
      histograms := (samples.filterMap Sample.count?).map fun (labels, count) =>
        seriesOf (samples.filterMap Sample.bucket?) labels count
      tasks }
  | _ => none

/-- What a text says, if it is in the format. -/
def ofText? (text : String) : Option Reading := (samplesOf text).bind ofSamples?

end Reading

variable {s : Sample} {t : Tally} {tasks : Int64}

/-! ## What the text says -/

/-- The buckets of a histogram as the text shows them. -/
def Histogram.shown (h : Histogram) : List (String × Nat) :=
  List.zipWith (fun b n => (b.label, n)) bounds h.cumulative ++ [("+Inf", h.count)]

/-- What the text of a tally and the gauge says. -/
def Tally.reading (t : Tally) (tasks : Int64) : Reading where
  counters := t.requests
  histograms := t.latency.map fun e => ⟨e.1, e.2.shown, e.2.count⟩
  tasks := tasks.toInt

theorem readNat?_natText (n : Nat) : readNat? (natText n).toList = some n := by
  rw [natText, String.toList_ofList, readNat?_natDigits]

theorem counter?_counterSample (key : CounterKey) (n : Nat) :
    (counterSample key n).counter? = some (key, n) := by
  simp [counterSample, Sample.counter?, Labels.pairs, labelsAnd?, readNat?_natText,
    readNat?_natDigits]

theorem gauge?_gaugeSample (tasks : Int64) : (gaugeSample tasks).gauge? = some tasks.toInt := by
  simp [gaugeSample, Sample.gauge?, readSigned?_intDigits]

/-! ### Each family by its own name -/

theorem counter?_of_ne (h : s.name ≠ "requests_total") : s.counter? = none := if_neg h

theorem bucket?_of_ne (h : s.name ≠ "request_latency_seconds_bucket") : s.bucket? = none := if_neg h

theorem count?_of_ne (h : s.name ≠ "request_latency_seconds_count") : s.count? = none := if_neg h

theorem gauge?_of_ne (h : s.name ≠ "tasks_count") : s.gauge? = none := if_neg fun hboth => h hboth.1

theorem Latency.name_ne (h : Latency s) : s.name ≠ "requests_total" ∧ s.name ≠ "tasks_count" := by
  rcases h.name with hname | hname | hname <;> rw [hname] <;> decide

theorem filterMap_counter?_samples :
    (t.samples tasks).filterMap Sample.counter? = t.requests := by
  have hlatency : t.latencySamples.filterMap Sample.counter? = [] := by
    apply List.filterMap_eq_nil_iff.2
    intro s hs
    exact counter?_of_ne (latency_of_mem_latencySamples hs).name_ne.1
  have hgauge : (gaugeSample tasks).counter? = none :=
    counter?_of_ne (show "tasks_count" ≠ "requests_total" by decide)
  rw [Tally.samples, List.filterMap_append, List.filterMap_append, hlatency, List.filterMap_map]
  simp [counter?_counterSample, hgauge]

theorem filterMap_gauge?_samples :
    (t.samples tasks).filterMap Sample.gauge? = [tasks.toInt] := by
  have hlatency : t.latencySamples.filterMap Sample.gauge? = [] := by
    apply List.filterMap_eq_nil_iff.2
    intro s hs
    exact gauge?_of_ne (latency_of_mem_latencySamples hs).name_ne.2
  have hcounter : ∀ key n, (counterSample key n).gauge? = none := fun key n =>
    gauge?_of_ne (show "requests_total" ≠ "tasks_count" by decide)
  rw [Tally.samples, List.filterMap_append, List.filterMap_append, hlatency, List.filterMap_map]
  simp [hcounter, gauge?_gaugeSample]

/-- A family of the histograms is found among their samples alone. -/
theorem filterMap_samples {α : Type} {f : Sample → Option α} {name : String}
    (hf : ∀ {s : Sample}, s.name ≠ name → f s = none)
    (hname : name ≠ "requests_total" ∧ name ≠ "tasks_count") :
    (t.samples tasks).filterMap f
      = t.latency.flatMap fun e => (histogramSamples e.1 e.2).filterMap f := by
  have hcounter : ∀ key n, f (counterSample key n) = none := fun key n => hf hname.1.symm
  have hgauge : f (gaugeSample tasks) = none := hf hname.2.symm
  rw [Tally.samples, List.filterMap_append, List.filterMap_append, List.filterMap_map,
    Tally.latencySamples, List.filterMap_flatMap]
  simp [hcounter, hgauge]

/-! ### Histograms -/

/-- The sample of a bucket. -/
def bucketSample (labels : Labels) (bound : String) (n : Nat) : Sample :=
  ⟨"request_latency_seconds_bucket", labels.pairs ++ [("le", bound)], natDigits n⟩

theorem bucket?_bucketSample (labels : Labels) (bound : String) (n : Nat) :
    (bucketSample labels bound n).bucket? = some (labels, bound, n) := by
  simp [bucketSample, Sample.bucket?, Labels.pairs, labelsAnd?, readNat?_natDigits]

/-- The samples of a histogram are those of its buckets, its sum and its count. -/
theorem histogramSamples_eq (labels : Labels) (h : Histogram) : histogramSamples labels h
    = h.shown.map (fun (bound, n) => bucketSample labels bound n)
      ++ [⟨"request_latency_seconds_sum", labels.pairs, sumLayout.text h.sum⟩,
        ⟨"request_latency_seconds_count", labels.pairs, natDigits h.count⟩] := by
  rw [Histogram.shown, List.map_append, List.map_zipWith, List.append_assoc]
  rfl

theorem filterMap_bucket?_histogramSamples (labels : Labels) (h : Histogram) :
    (histogramSamples labels h).filterMap Sample.bucket? = h.shown.map (labels, ·) := by
  rw [histogramSamples_eq, List.filterMap_append, List.filterMap_map, ← List.filterMap_eq_map]
  simp [bucket?_bucketSample, bucket?_of_ne]

theorem filterMap_count?_histogramSamples (labels : Labels) (h : Histogram) :
    (histogramSamples labels h).filterMap Sample.count? = [(labels, h.count)] := by
  have hbuckets : (h.shown.map fun (bound, n) => bucketSample labels bound n).filterMap
      Sample.count? = [] := by
    apply List.filterMap_eq_nil_iff.2
    intro s hs
    rcases List.mem_map.1 hs with ⟨⟨bound, n⟩, -, rfl⟩
    exact count?_of_ne
      (show "request_latency_seconds_bucket" ≠ "request_latency_seconds_count" by decide)
  rw [histogramSamples_eq, List.filterMap_append, hbuckets]
  simp [Sample.count?, Labels.pairs, readNat?_natDigits]

/-- The buckets of all histograms of a table, each with the labels of its histogram. -/
def bucketsOf (table : List (Labels × Histogram)) : List (Labels × String × Nat) :=
  table.flatMap fun e => e.2.shown.map (e.1, ·)

variable {table : List (Labels × Histogram)} {labels : Labels} {h : Histogram}

theorem filter_buckets_of_not_mem (hnot : labels ∉ table.map Prod.fst) :
    (bucketsOf table).filter (fun b => b.1 = labels) = [] := by
  apply List.filter_eq_nil_iff.2
  intro b hb hlabels
  rcases List.mem_flatMap.1 hb with ⟨entry, hentry, hb⟩
  rcases List.mem_map.1 hb with ⟨_, -, rfl⟩
  apply hnot
  rw [← of_decide_eq_true hlabels]
  exact List.mem_map_of_mem hentry

/-- Of the buckets of all histograms those of one are picked out again. -/
theorem filter_buckets (hunique : (table.map Prod.fst).Nodup) (hmem : (labels, h) ∈ table) :
    (bucketsOf table).filter (fun b => b.1 = labels) = h.shown.map (labels, ·) := by
  induction table with
  | nil => cases hmem
  | cons entry table ih =>
    rcases List.nodup_cons.1 hunique with ⟨hfirst, hrest⟩
    show (entry.2.shown.map (entry.1, ·) ++ bucketsOf table).filter _ = _
    rw [List.filter_append]
    rcases List.mem_cons.1 hmem with rfl | hmem
    · rw [filter_buckets_of_not_mem hfirst, List.append_nil]
      apply List.filter_eq_self.2
      intro b hb
      rcases List.mem_map.1 hb with ⟨_, -, rfl⟩
      exact decide_eq_true rfl
    · have hne : entry.1 ≠ labels := by
        intro heq
        exact hfirst (heq ▸ List.mem_map_of_mem (f := Prod.fst) hmem)
      have hnone : (entry.2.shown.map (entry.1, ·)).filter (fun b => b.1 = labels) = [] := by
        apply List.filter_eq_nil_iff.2
        intro b hb
        rcases List.mem_map.1 hb with ⟨_, -, rfl⟩
        simpa using hne
      rw [ih hrest hmem, hnone, List.nil_append]

/-- The text of a tally says what the tally has counted. -/
theorem Reading.ofText?_render (hunique : (t.latency.map Prod.fst).Nodup) :
    Reading.ofText? (t.render tasks) = some (t.reading tasks) := by
  have hbuckets : (t.samples tasks).filterMap Sample.bucket? = bucketsOf t.latency := by
    rw [filterMap_samples bucket?_of_ne (by decide)]
    simp only [filterMap_bucket?_histogramSamples, bucketsOf]
  have hcounts : (t.samples tasks).filterMap Sample.count?
      = t.latency.map fun e => (e.1, e.2.count) := by
    rw [filterMap_samples count?_of_ne (by decide)]
    simp only [filterMap_count?_histogramSamples, List.map_eq_flatMap]
  have hseries : ∀ e ∈ t.latency, seriesOf (bucketsOf t.latency) e.1 e.2.count
      = ⟨e.1, e.2.shown, e.2.count⟩ := by
    rintro ⟨labels, h⟩ hmem
    rw [seriesOf, filter_buckets hunique hmem, List.map_map]
    simp [Function.comp_def]
  rw [ofText?, samplesOf_render, Option.bind_some, ofSamples?, filterMap_gauge?_samples,
    filterMap_counter?_samples, hbuckets, hcounts]
  simp only [List.map_map, Function.comp_def, Tally.reading, List.map_congr_left hseries]

/-! ## The text of a history -/

theorem Histogram.shown_inj {h h' : Histogram} (hlength : h.buckets.length = bounds.length)
    (hlength' : h'.buckets.length = bounds.length) (heq : h.shown = h'.shown) :
    h.buckets = h'.buckets ∧ h.count = h'.count := by
  rcases List.append_inj' heq rfl with ⟨hbuckets, hcount⟩
  have hnumbers : ∀ {h : Histogram}, h.buckets.length = bounds.length →
      (List.zipWith (fun b n => (b.label, n)) bounds h.cumulative).map Prod.snd = h.cumulative := by
    intro h hlength
    rw [List.map_zipWith, ← List.map_uncurry_zip_eq_zipWith]
    apply List.map_snd_zip
    rw [Histogram.cumulative, length_totals, hlength]
  have hcumulative : h.cumulative = h'.cumulative := by
    rw [← hnumbers hlength, hbuckets, hnumbers hlength']
  constructor
  · exact totals_inj hcumulative
  · simpa using hcount

/-- Where equal texts come from equal lists, what the texts determine is equal. -/
theorem map_eq_map_of {α β γ : Type} {f : α → β} {g : α → γ} {l l' : List α}
    (h : l.map f = l'.map f) (hdetermined : ∀ a ∈ l, ∀ b ∈ l', f a = f b → g a = g b) :
    l.map g = l'.map g := by
  induction l generalizing l' with
  | nil =>
    rw [List.map_nil, eq_comm, List.map_eq_nil_iff] at h
    rw [h]
  | cons a l ih =>
    rcases l' with _ | ⟨b, l'⟩
    · cases h
    simp only [List.map_cons, List.cons.injEq] at h ⊢
    constructor
    · exact hdetermined a List.mem_cons_self b List.mem_cons_self h.1
    · apply ih h.2
      intro a' ha' b' hb'
      exact hdetermined a' (List.mem_cons_of_mem _ ha') b' (List.mem_cons_of_mem _ hb')

theorem length_buckets_of_mem {history : List Observation} {e : Labels × Histogram}
    (he : e ∈ (Tally.ofHistory history).latency) : e.2.buckets.length = bounds.length := by
  have hmeasures := Tally.measures_ofHistory history
  have hfound := (hmeasures.ordered.mem_iff Labels.arranges_before).1 he
  rw [hmeasures.found] at hfound
  split at hfound
  · cases hfound
  · rw [← Option.some.inj hfound]
    exact Histogram.length_buckets _

/-- The text of a history, read back line by line, gives its counters in their order and each of
them once, the labels, buckets and count of every histogram, and the gauge. So two histories with
one text have all of these in common. -/
theorem text_read_back (history : List Observation) (tasks : Int64) :
    Reading.ofText? ((Tally.ofHistory history).render tasks)
      = some ((Tally.ofHistory history).reading tasks)
    ∧ InOrder CounterKey.before (Tally.ofHistory history).requests
    ∧ ((Tally.ofHistory history).requests.map Prod.fst).Nodup
    ∧ ∀ history' tasks',
      (Tally.ofHistory history).render tasks = (Tally.ofHistory history').render tasks' →
        tasks = tasks' ∧ (Tally.ofHistory history).requests = (Tally.ofHistory history').requests
        ∧ (Tally.ofHistory history).latency.map (fun e => (e.1, e.2.buckets, e.2.count))
          = (Tally.ofHistory history').latency.map fun e => (e.1, e.2.buckets, e.2.count) := by
  have hread : ∀ history tasks, Reading.ofText? ((Tally.ofHistory history).render tasks)
      = some ((Tally.ofHistory history).reading tasks) := by
    intro history tasks
    apply Reading.ofText?_render
    exact (Tally.measures_ofHistory history).ordered.nodup_keys Labels.arranges_before
  have hordered := (Tally.counts_ofHistory history).ordered
  refine ⟨hread history tasks, hordered, hordered.nodup_keys CounterKey.arranges_before, ?_⟩
  intro history' tasks' htext
  -- one text is read in one way
  have hreading : (Tally.ofHistory history).reading tasks
      = (Tally.ofHistory history').reading tasks' := by
    have hsome := hread history tasks
    rw [htext, hread history' tasks'] at hsome
    exact (Option.some.inj hsome).symm
  have hrequests := congrArg Reading.counters hreading
  have hseries := congrArg Reading.histograms hreading
  have htasks := congrArg Reading.tasks hreading
  refine ⟨Int64.toInt_inj.1 htasks, hrequests, map_eq_map_of hseries ?_⟩
  intro e he e' he' hsame
  rcases Series.mk.inj hsame with ⟨hlabels, hshown, -⟩
  rcases Histogram.shown_inj (length_buckets_of_mem he) (length_buckets_of_mem he') hshown
    with ⟨hbuckets, hcount⟩
  rw [hlabels, hbuckets, hcount]

end TaskBoard.Metrics
