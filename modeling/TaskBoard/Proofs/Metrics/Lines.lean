import TaskBoard.Metrics.Exposition
import TaskBoard.Proofs.Metrics.Tally
import TaskBoard.Proofs.Text.Numeral
import TaskBoard.Proofs.Text.Percent

/-!
# Reading the metrics text

The text can be taken apart into its lines, since no line has a line feed in it, and the line of a
counter tells its key and its count, since a quote in a label value does not look like the one that
ends it. So the text shows the counters of the tally and no others.

* `escaped_append`: where an escaped label value ends;
* `Sample.not_mem_line`, `Layout.not_mem_text`: there is no line feed in a line;
* `counterLine_inj`: which counter a line is about;
* `reports_render`: the counters that the text reports.
-/

namespace TaskBoard

open Text

/-! ## No line feeds -/

theorem Text.not_mem_natDigits (n : Nat) : '\n' ∉ natDigits n := fun h =>
  absurd (isDigit_of_mem_natDigits h) (by decide)

theorem Text.not_mem_intDigits (i : Int) : '\n' ∉ intDigits i := fun h =>
  absurd (isDigit_or_minus_of_mem_intDigits h) (by decide)

namespace Decimal.Layout

theorem not_mem_finite (l : Layout) (d : Scientific) : '\n' ∉ l.finite d := by
  have hdigits := not_mem_natDigits d.digits
  have hexponent := not_mem_intDigits d.exponent
  unfold finite
  generalize natDigits d.digits = ds at hdigits ⊢
  simp only
  split
  · -- positional
    cases d.exponent with
    | ofNat e =>
      have hwhole : '\n' ∉ ds.take (e + 1) := fun h => hdigits (List.mem_of_mem_take h)
      have hpart : '\n' ∉ ds.drop (e + 1) := fun h => hdigits (List.mem_of_mem_drop h)
      simp only
      generalize ds.drop (e + 1) = part at hpart ⊢
      cases part with
      | nil => cases l.pointZero <;> simp [hwhole]
      | cons c cs =>
        have hcs : '\n' ∉ '.' :: c :: cs := by simpa using hpart
        simp [hwhole, hcs]
    | negSucc e => simp [hdigits]
  · -- with an exponent mark
    have hmark : '\n' ∉ 'e' :: (if l.plus && d.exponent ≥ 0 then ['+'] else [])
        ++ intDigits d.exponent := by
      split <;> simp [hexponent]
    generalize 'e' :: (if l.plus && d.exponent ≥ 0 then ['+'] else []) ++ intDigits d.exponent
      = mark at hmark ⊢
    match ds, hdigits with
    | [], _ => exact hmark
    | [c], hc => simp_all
    | c :: c' :: cs, hc => simp_all

/-- A double is written on one line. -/
theorem not_mem_text (l : Layout) (f : Float) : '\n' ∉ l.text f := by
  unfold text
  obtain ⟨negative, magnitude⟩ := ofBits f.toBits.toNat
  have hsign : ∀ body : List Char, '\n' ∉ body →
      '\n' ∉ if negative = true then '-' :: body else body := by
    intro body hbody
    cases negative with
    | false => exact hbody
    | true => exact List.not_mem_cons_of_ne_of_not_mem (by decide) hbody
  cases magnitude with
  | zero => exact hsign (if l.pointZero then ['0', '.', '0'] else ['0']) (by split <;> decide)
  | finite d => exact hsign (l.finite d) (l.not_mem_finite d)
  | infinite => exact hsign ['i', 'n', 'f'] (by decide)
  | notANumber => exact hsign ['N', 'a', 'N'] (by decide)

end Decimal.Layout

namespace Metrics

/-! ## Label values -/

theorem not_mem_escapeLabelChar (c : Char) : '\n' ∉ escapeLabelChar c := by
  unfold escapeLabelChar
  split
  · decide
  · decide
  · decide
  · rename_i hother
    intro h
    exact hother (List.mem_singleton.1 h).symm

theorem escapeLabelChar_append {c d : Char} {cs ds : List Char}
    (h : escapeLabelChar c ++ cs = escapeLabelChar d ++ ds) : c = d ∧ cs = ds := by
  unfold escapeLabelChar at h
  split at h <;> split at h <;> grind

/-- An escaped character does not begin with the quote that ends a label value. -/
theorem escapeLabelChar_ne_quote (c : Char) (cs rest : List Char) :
    escapeLabelChar c ++ cs ≠ '"' :: rest := by
  unfold escapeLabelChar
  split <;> simp_all

/-- A label value ends at the first quote that is not escaped. -/
theorem escaped_append {cs ds rest rest' : List Char}
    (h : cs.flatMap escapeLabelChar ++ '"' :: rest = ds.flatMap escapeLabelChar ++ '"' :: rest') :
    cs = ds ∧ rest = rest' := by
  induction cs generalizing ds with
  | nil =>
    cases ds with
    | nil => exact ⟨rfl, (List.cons.inj h).2⟩
    | cons d ds =>
      -- one value has ended and the other goes on, but not with a quote
      rw [List.flatMap_cons, List.append_assoc] at h
      exact absurd h.symm (escapeLabelChar_ne_quote d _ _)
  | cons c cs ih =>
    cases ds with
    | nil =>
      rw [List.flatMap_cons, List.append_assoc] at h
      exact absurd h (escapeLabelChar_ne_quote c _ _)
    | cons d ds =>
      simp only [List.flatMap_cons, List.append_assoc] at h
      obtain ⟨rfl, hrest⟩ := escapeLabelChar_append h
      obtain ⟨rfl, hafter⟩ := ih hrest
      exact ⟨rfl, hafter⟩

theorem labelText_append {name value value' : String} {rest rest' : List Char}
    (h : labelText name value ++ rest = labelText name value' ++ rest') :
    value = value' ∧ rest = rest' := by
  simp only [labelText, List.append_assoc, List.cons_append, List.nil_append] at h
  have hquoted := List.append_cancel_left h
  simp only [List.cons.injEq, true_and] at hquoted
  obtain ⟨hvalue, hrest⟩ := escaped_append hquoted
  exact ⟨String.toList_inj.1 hvalue, hrest⟩

/-! ## Lines -/

theorem not_mem_labelText {name value : String} (hname : '\n' ∉ name.toList) :
    '\n' ∉ labelText name value := by
  simp [labelText, hname, not_mem_escapeLabelChar]

theorem not_mem_intercalate {c : Char} {separator : List Char} {texts : List (List Char)}
    (hseparator : c ∉ separator) (htexts : ∀ text ∈ texts, c ∉ text) :
    c ∉ separator.intercalate texts := by
  induction texts with
  | nil => simp
  | cons text texts ih =>
    have htext : c ∉ text := htexts text List.mem_cons_self
    have hrest := ih fun other hother => htexts other (List.mem_cons_of_mem _ hother)
    cases texts with
    | nil => simpa using htext
    | cons next texts =>
      rw [List.intercalate_cons_cons]
      simp only [List.mem_append, not_or]
      exact ⟨⟨htext, hseparator⟩, hrest⟩

/-- If only label values have line feeds, the line of a sample has none. -/
theorem Sample.not_mem_line {s : Sample} (hname : '\n' ∉ s.name.toList)
    (hlabels : ∀ label ∈ s.labels, '\n' ∉ label.1.toList) (hvalue : '\n' ∉ s.value) :
    '\n' ∉ s.line := by
  have htexts : '\n' ∉ [','].intercalate
      (s.labels.map fun label => labelText label.1 label.2) := by
    refine not_mem_intercalate (by decide) fun text htext => ?_
    obtain ⟨label, hlabel, rfl⟩ := List.mem_map.1 htext
    exact not_mem_labelText (hlabels label hlabel)
  have hall : '\n' ∉ if s.labels.isEmpty then [] else labelsText s.labels := by
    split
    · simp
    · simpa [labelsText] using htexts
  unfold Sample.line
  simp only [List.mem_append, List.mem_cons, not_or]
  exact ⟨⟨hname, hall⟩, by decide, hvalue⟩

/-- The line of a counter. -/
theorem counterSample_line (key : CounterKey) (n : Nat) :
    (counterSample key n).line = "requests_total".toList ++ '\x7b' ::
      (labelText "method" key.labels.method ++ ',' :: (labelText "path" key.labels.path ++ ',' ::
        (labelText "status" (natText key.status) ++ '\x7d' :: ' ' :: natDigits n))) := by
  simp [counterSample, Sample.line, labelsText, Labels.pairs, List.intercalate]

theorem counterLine_inj {key key' : CounterKey} {n n' : Nat}
    (h : (counterSample key n).line = (counterSample key' n').line) : key = key' ∧ n = n' := by
  rw [counterSample_line, counterSample_line] at h
  have hlabels := (List.cons.inj (List.append_cancel_left h)).2
  obtain ⟨hmethod, hpath⟩ := labelText_append hlabels
  obtain ⟨hpath, hstatus⟩ := labelText_append (List.cons.inj hpath).2
  obtain ⟨hstatus, hvalue⟩ := labelText_append (List.cons.inj hstatus).2
  have hdigits : natDigits n = natDigits n' := by simpa using hvalue
  obtain ⟨⟨method, path⟩, status⟩ := key
  obtain ⟨⟨method', path'⟩, status'⟩ := key'
  have hnumber : natDigits status = natDigits status' := String.ofList_inj.1 hstatus
  obtain rfl := natDigits_inj hnumber
  obtain rfl : method = method' := hmethod
  obtain rfl : path = path' := hpath
  exact ⟨rfl, natDigits_inj hdigits⟩

/-! ## The text -/

variable {t : Tally} {tasks : Int64}

theorem not_mem_counterLine (key : CounterKey) (n : Nat) : '\n' ∉ (counterSample key n).line := by
  have hname : '\n' ∉ "requests_total".toList := by decide
  refine Sample.not_mem_line hname ?_ (not_mem_natDigits n)
  simp [counterSample, Labels.pairs]

/-- What is the same about all samples of histograms. -/
structure Latency (s : Sample) : Prop where
  name : s.name = "request_latency_seconds_bucket" ∨ s.name = "request_latency_seconds_sum"
    ∨ s.name = "request_latency_seconds_count"
  labels : ∀ label ∈ s.labels, label.1 = "method" ∨ label.1 = "path" ∨ label.1 = "le"
  value : '\n' ∉ s.value

theorem latency_of_mem {labels : Labels} {h : Histogram} {s : Sample}
    (hs : s ∈ histogramSamples labels h) : Latency s := by
  have hbucket : ∀ (bound : String) (n : Nat), Latency
      ⟨"request_latency_seconds_bucket", labels.pairs ++ [("le", bound)], natDigits n⟩ := by
    intro bound n
    exact ⟨Or.inl rfl, by simp [Labels.pairs], not_mem_natDigits n⟩
  rcases List.mem_append.1 hs with hs | hs
  · rw [← List.map_uncurry_zip_eq_zipWith] at hs
    obtain ⟨⟨b, n⟩, -, rfl⟩ := List.mem_map.1 hs
    exact hbucket b.label n
  · simp only [List.mem_cons, List.not_mem_nil, or_false] at hs
    rcases hs with rfl | rfl | rfl
    · exact hbucket "+Inf" h.count
    · exact ⟨Or.inr (Or.inl rfl), by simp [Labels.pairs], Decimal.Layout.not_mem_text _ _⟩
    · exact ⟨Or.inr (Or.inr rfl), by simp [Labels.pairs], not_mem_natDigits _⟩

/-- A line of the text that is not about a counter. -/
structure Other (line : List Char) : Prop where
  single : '\n' ∉ line
  begins : line.take 8 ≠ "requests".toList

theorem Sample.take_line {s : Sample} {name : String} (hname : s.name = name)
    (hlength : 8 ≤ name.toList.length) : s.line.take 8 = name.toList.take 8 := by
  rw [Sample.line, hname, List.append_assoc, List.take_append_of_le_length hlength]

theorem Sample.other {s : Sample} {name : String} (hname : s.name = name)
    (hother : '\n' ∉ name.toList ∧ 8 ≤ name.toList.length ∧ name.toList.take 8 ≠ "requests".toList)
    (hlabels : ∀ label ∈ s.labels, '\n' ∉ label.1.toList) (hvalue : '\n' ∉ s.value) :
    Other s.line := by
  obtain ⟨hsingle, hlength, hbegins⟩ := hother
  constructor
  · rw [← hname] at hsingle
    exact Sample.not_mem_line hsingle hlabels hvalue
  · rw [Sample.take_line hname hlength]
    exact hbegins

theorem Latency.other {s : Sample} (h : Latency s) : Other s.line := by
  have hlabels : ∀ label ∈ s.labels, '\n' ∉ label.1.toList := by
    intro label hlabel
    rcases h.labels label hlabel with heq | heq | heq <;> rw [heq] <;> decide
  rcases h.name with heq | heq | heq
  · exact Sample.other heq (by decide) hlabels h.value
  · exact Sample.other heq (by decide) hlabels h.value
  · exact Sample.other heq (by decide) hlabels h.value

theorem other_of_mem_familyLines {line : List Char}
    (h : line ∈ familyLines "requests_total" "Total number of HTTP requests." "counter"
      ++ familyLines "request_latency_seconds" "HTTP request latency in seconds." "histogram"
      ++ familyLines "tasks_count" "Number of stored tasks." "gauge") : Other line := by
  have hall : ∀ line ∈ familyLines "requests_total" "Total number of HTTP requests." "counter"
      ++ familyLines "request_latency_seconds" "HTTP request latency in seconds." "histogram"
      ++ familyLines "tasks_count" "Number of stored tasks." "gauge",
      '\n' ∉ line ∧ line.take 8 ≠ "requests".toList := by decide
  exact ⟨(hall line h).1, (hall line h).2⟩

theorem other_gaugeLine :
    Other (⟨"tasks_count", [], intDigits tasks.toInt⟩ : Sample).line := by
  have hname : (⟨"tasks_count", [], intDigits tasks.toInt⟩ : Sample).name = "tasks_count" := rfl
  exact Sample.other hname (by decide) (by simp) (not_mem_intDigits _)

/-- A line of the text is that of a counter, or about something else. -/
theorem mem_lines {line : List Char} (h : line ∈ t.lines tasks) :
    (∃ e ∈ t.requests, line = (counterSample e.1 e.2).line) ∨ Other line := by
  simp only [Tally.lines, List.mem_append] at h
  rcases h with ((((hfamily | hcounter) | hfamily) | hlatency) | hfamily) | hgauge
  · exact Or.inr (other_of_mem_familyLines (by simp [hfamily]))
  · obtain ⟨e, he, rfl⟩ := List.mem_map.1 hcounter
    exact Or.inl ⟨e, he, rfl⟩
  · exact Or.inr (other_of_mem_familyLines (by simp [hfamily]))
  · obtain ⟨⟨labels, histogram⟩, -, hs⟩ := List.mem_flatMap.1 hlatency
    obtain ⟨s, hsample, rfl⟩ := List.mem_map.1 hs
    exact Or.inr (latency_of_mem hsample).other
  · exact Or.inr (other_of_mem_familyLines (by simp [hfamily]))
  · rw [List.mem_singleton.1 hgauge]
    exact Or.inr other_gaugeLine

/-- The lines of a text. What is behind the last line feed counts as a line. -/
def linesOf (text : String) : List (List Char) := splitAtAll (· == '\n') text.toList

/-- The lines that the text has been made of are found again. -/
theorem linesOf_render : linesOf (t.render tasks) = t.lines tasks ++ [[]] := by
  rw [linesOf, Tally.render, String.toList_ofList]
  refine splitAtAll_ended fun line hline => ?_
  rcases mem_lines hline with ⟨e, -, rfl⟩ | hother
  · exact not_mem_counterLine e.1 e.2
  · exact hother.single

/-- A text reports that there were `n` requests of a key. -/
def Reports (text : String) (key : CounterKey) (n : Nat) : Prop :=
  (counterSample key n).line ∈ linesOf text

/-- The text of a tally reports its counters. -/
theorem reports_render {key : CounterKey} {n : Nat} :
    Reports (t.render tasks) key n ↔ (key, n) ∈ t.requests := by
  have hname : (counterSample key n).name = "requests_total" := rfl
  have hbegins : (counterSample key n).line.take 8 = "requests".toList := by
    rw [Sample.take_line hname (by decide)]
    decide
  rw [Reports, linesOf_render]
  constructor
  · intro h
    rcases List.mem_append.1 h with hline | hnil
    · rcases mem_lines hline with ⟨e, he, heq⟩ | hother
      · obtain ⟨rfl, rfl⟩ := counterLine_inj heq
        exact he
      · exact absurd hbegins hother.begins
    · rw [List.mem_singleton.1 hnil] at hbegins
      exact absurd hbegins (by decide)
  · intro h
    refine List.mem_append_left _ ?_
    simp only [Tally.lines, List.mem_append]
    exact Or.inl (Or.inl (Or.inl (Or.inl (Or.inr (List.mem_map.2 ⟨(key, n), h, rfl⟩)))))

end Metrics

end TaskBoard
