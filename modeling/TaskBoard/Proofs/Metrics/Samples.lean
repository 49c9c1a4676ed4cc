import TaskBoard.Proofs.Metrics.Lines

/-!
# The samples of the metrics text

A reader that knows the text format and nothing of the program finds in the text the samples that
have been written: it takes the text apart at its line feeds, passes over the remarks, and reads a
sample from each other line, with the escapes of its label values undone.

* `readValue_escaped`, `readLabels_joined`, `Sample.Plain.read?_line`: what is read of a label
  value, of labels and of a line;
* `samplesOf_render`: the samples of a text.
-/

namespace TaskBoard.Metrics

open Text

/-! ## The reader of the format -/

/-- The character that a letter behind a backslash stands for. -/
def unescaped? : Char → Option Char
  | '\\' => some '\\'
  | '"' => some '"'
  | 'n' => some '\n'
  | _ => none

/-- A label value up to the quote that ends it, with its escapes undone, and what is behind. -/
def readValue : List Char → Option (List Char × List Char)
  | [] => none
  | '"' :: rest => some ([], rest)
  | '\\' :: c :: rest => (unescaped? c).bind fun c =>
    (readValue rest).map fun (value, rest) => (c :: value, rest)
  | c :: rest => (readValue rest).map fun (value, rest) => (c :: value, rest)

/-- A name with its quoted value, and what is behind. -/
def readLabel (cs : List Char) : Option ((String × String) × List Char) :=
  match cs.dropWhile (· != '=') with
  | '=' :: '"' :: rest => (readValue rest).map fun (value, rest) =>
    ((String.ofList (cs.takeWhile (· != '=')), String.ofList value), rest)
  | _ => none

theorem length_of_readValue {cs value rest : List Char} (h : readValue cs = some (value, rest)) :
    rest.length < cs.length := by
  induction cs using readValue.induct generalizing value rest with
  | case1 => cases h
  | case2 tail =>
    cases h
    exact Nat.lt_succ_self _
  | case3 c tail ih =>
    rcases Option.bind_eq_some_iff.1 h with ⟨_, -, hmap⟩
    rcases Option.map_eq_some_iff.1 hmap with ⟨⟨value', rest'⟩, hread, heq⟩
    cases heq
    have hlt := ih hread
    simp only [List.length_cons]
    omega
  | case4 c tail hquote hslash ih =>
    rw [readValue] at h
    · rcases Option.map_eq_some_iff.1 h with ⟨⟨value', rest'⟩, hread, heq⟩
      cases heq
      have hlt := ih hread
      simp only [List.length_cons]
      omega
    · exact hquote
    · exact hslash

theorem length_of_readLabel {cs rest : List Char} {label : String × String}
    (h : readLabel cs = some (label, rest)) : rest.length < cs.length := by
  have hsuffix : (cs.dropWhile (· != '=')).length ≤ cs.length :=
    (List.dropWhile_suffix _).length_le
  unfold readLabel at h
  split at h
  · rename_i tail htail
    rcases Option.map_eq_some_iff.1 h with ⟨⟨value, rest'⟩, hread, heq⟩
    cases heq
    have hlt := length_of_readValue hread
    rw [htail] at hsuffix
    simp only [List.length_cons] at hsuffix
    omega
  · cases h

/-- The labels up to the brace that ends them, and what is behind. -/
def readLabels (cs : List Char) : Option (List (String × String) × List Char) :=
  match _hread : readLabel cs with
  | some (label, ',' :: rest) => (readLabels rest).map fun (labels, rest) => (label :: labels, rest)
  | some (label, '}' :: rest) => some ([label], rest)
  | _ => none
termination_by cs.length
decreasing_by
  have hlt := length_of_readLabel _hread
  simp only [List.length_cons] at hlt
  omega

/-- Whether a character ends the name of a sample. -/
def endsName (c : Char) : Bool := c == '{' || c == ' '

/-- The sample that a line is about. -/
def Sample.read? (line : List Char) : Option Sample :=
  let name := String.ofList (line.takeWhile fun c => !endsName c)
  match line.dropWhile fun c => !endsName c with
  | ' ' :: value => some ⟨name, [], value⟩
  | '{' :: rest =>
    match readLabels rest with
    | some (labels, ' ' :: value) => some ⟨name, labels, value⟩
    | _ => none
  | _ => none

/-- Whether there is no sample on a line. -/
def isRemark (line : List Char) : Bool := line.isEmpty || line.head? == some '#'

/-- The samples of lines one below the other. -/
def samplesOfLines : List (List Char) → Option (List Sample)
  | [] => some []
  | line :: rest =>
    if isRemark line then samplesOfLines rest
    else (Sample.read? line).bind fun s => (samplesOfLines rest).map (s :: ·)

/-- The samples of a text. -/
def samplesOf (text : String) : Option (List Sample) := samplesOfLines (linesOf text)

/-! ## Lines -/

theorem escapeLabelChar_self {c : Char} (hslash : c ≠ '\\') (hquote : c ≠ '"')
    (hline : c ≠ '\n') : escapeLabelChar c = [c] := by
  unfold escapeLabelChar
  split
  · exact absurd rfl hslash
  · exact absurd rfl hquote
  · exact absurd rfl hline
  · rfl

/-- A label value ends at its quote, and its escapes are undone. -/
theorem readValue_escaped (cs rest : List Char) :
    readValue (cs.flatMap escapeLabelChar ++ '"' :: rest) = some (cs, rest) := by
  induction cs with
  | nil => rfl
  | cons c cs ih =>
    rw [List.flatMap_cons, List.append_assoc]
    by_cases hslash : c = '\\'
    · subst hslash
      show readValue ('\\' :: '\\' :: (cs.flatMap escapeLabelChar ++ '"' :: rest)) = _
      simp [readValue, unescaped?, ih]
    by_cases hquote : c = '"'
    · subst hquote
      show readValue ('\\' :: '"' :: (cs.flatMap escapeLabelChar ++ '"' :: rest)) = _
      simp [readValue, unescaped?, ih]
    by_cases hline : c = '\n'
    · subst hline
      show readValue ('\\' :: 'n' :: (cs.flatMap escapeLabelChar ++ '"' :: rest)) = _
      simp [readValue, unescaped?, ih]
    -- any other character stands for itself
    rw [escapeLabelChar_self hslash hquote hline, List.singleton_append, readValue, ih]
    · rfl
    · exact hquote
    · exact fun _ _ heq => absurd heq hslash

theorem takeWhile_append_cons {p : Char → Bool} {cs : List Char} (c : Char) (rest : List Char)
    (hall : ∀ d ∈ cs, p d = true) (hc : p c = false) :
    (cs ++ c :: rest).takeWhile p = cs ∧ (cs ++ c :: rest).dropWhile p = c :: rest := by
  constructor
  · rw [List.takeWhile_append_of_pos hall]
    simp [hc]
  · rw [List.dropWhile_append_of_pos hall]
    simp [hc]

theorem readLabel_labelText {name : String} (value : String) (rest : List Char)
    (hname : '=' ∉ name.toList) :
    readLabel (labelText name value ++ rest) = some ((name, value), rest) := by
  have hall : ∀ d ∈ name.toList, (d != '=') = true := by
    intro d hd
    rw [bne_iff_ne]
    rintro rfl
    exact hname hd
  have htext : labelText name value ++ rest = name.toList
      ++ '=' :: ('"' :: (value.toList.flatMap escapeLabelChar ++ '"' :: rest)) := by
    simp [labelText]
  rcases takeWhile_append_cons '=' ('"' :: (value.toList.flatMap escapeLabelChar ++ '"' :: rest))
    hall (by decide) with ⟨htake, hdrop⟩
  rw [htext, readLabel, hdrop, htake]
  simp only [readValue_escaped, Option.map_some, String.ofList_toList]

/-- Labels with commas between them are read one after another up to the brace. -/
theorem readLabels_joined {labels : List (String × String)} (rest : List Char) (hne : labels ≠ [])
    (hnames : ∀ label ∈ labels, '=' ∉ label.1.toList) :
    readLabels ([','].intercalate (labels.map fun (name, value) => labelText name value)
      ++ '}' :: rest) = some (labels, rest) := by
  induction labels with
  | nil => exact absurd rfl hne
  | cons label labels ih =>
    rcases label with ⟨name, value⟩
    have hname : '=' ∉ name.toList := hnames (name, value) List.mem_cons_self
    rcases labels with _ | ⟨next, labels⟩
    · have hread := readLabel_labelText value ('}' :: rest) hname
      simp only [List.map_cons, List.map_nil, List.intercalate_singleton]
      rw [readLabels]
      split <;> simp_all
    · have hrest := ih (List.cons_ne_nil _ _)
        fun other hother => hnames other (List.mem_cons_of_mem _ hother)
      simp only [List.map_cons, List.intercalate_cons_cons, List.append_assoc,
        List.singleton_append] at hrest ⊢
      have hread := readLabel_labelText value
        (',' :: ([','].intercalate (labelText next.1 next.2
          :: labels.map fun (name, value) => labelText name value) ++ '}' :: rest)) hname
      rw [readLabels]
      split <;> simp_all

/-- A sample whose name is not that of a remark and ends where the reader looks for its end. -/
structure Sample.Plain (s : Sample) : Prop where
  begins : isRemark s.name.toList = false
  name : (s.name.toList.all fun c => !endsName c) = true
  labels : ∀ label ∈ s.labels, '=' ∉ label.1.toList

variable {s : Sample}

/-- The line of a sample is read as the sample. -/
theorem Sample.Plain.read?_line (h : s.Plain) : Sample.read? s.line = some s := by
  have hall : ∀ c ∈ s.name.toList, (!endsName c) = true := List.all_eq_true.1 h.name
  by_cases hempty : s.labels = []
  · have hline : s.line = s.name.toList ++ ' ' :: s.value := by
      simp [Sample.line, hempty]
    rcases takeWhile_append_cons ' ' s.value hall (by decide) with ⟨htake, hdrop⟩
    rw [hline, Sample.read?, hdrop, htake, String.ofList_toList]
    show some (Sample.mk s.name [] s.value) = some s
    rw [← hempty]
  · have hline : s.line = s.name.toList ++ '{' :: ([','].intercalate
        (s.labels.map fun (name, value) => labelText name value) ++ '}' :: (' ' :: s.value)) := by
      simp [Sample.line, labelsText, hempty]
    rcases takeWhile_append_cons '{' ([','].intercalate
      (s.labels.map fun (name, value) => labelText name value) ++ '}' :: (' ' :: s.value))
      hall (by decide) with ⟨htake, hdrop⟩
    rw [hline, Sample.read?, hdrop, htake, String.ofList_toList]
    simp only [readLabels_joined (' ' :: s.value) hempty h.labels]

theorem Sample.Plain.not_remark (h : s.Plain) : isRemark s.line = false := by
  have hbegins := h.begins
  unfold Sample.line isRemark at *
  rcases hname : s.name.toList with _ | ⟨c, cs⟩
  · simp [hname] at hbegins
  · simpa [hname] using hbegins

/-! ## The text -/

theorem samplesOfLines_remarks {remarks : List (List Char)} (rest : List (List Char))
    (h : ∀ line ∈ remarks, isRemark line = true) :
    samplesOfLines (remarks ++ rest) = samplesOfLines rest := by
  induction remarks with
  | nil => rfl
  | cons line remarks ih =>
    have hrest := ih fun other hother => h other (List.mem_cons_of_mem _ hother)
    rw [List.cons_append, samplesOfLines, if_pos (h line List.mem_cons_self), hrest]

theorem samplesOfLines_lines {samples : List Sample} (rest : List (List Char))
    (h : ∀ s ∈ samples, s.Plain) : samplesOfLines (samples.map Sample.line ++ rest)
      = (samplesOfLines rest).map (samples ++ ·) := by
  induction samples with
  | nil => simp
  | cons s samples ih =>
    have hplain := h s List.mem_cons_self
    have hrest := ih fun other hother => h other (List.mem_cons_of_mem _ hother)
    rw [List.map_cons, List.cons_append, samplesOfLines, if_neg (by simp [hplain.not_remark]),
      hplain.read?_line, hrest, Option.bind_some, Option.map_map]
    rfl

variable {t : Tally} {tasks : Int64}

/-- The sample of the gauge. -/
def gaugeSample (tasks : Int64) : Sample := ⟨"tasks_count", [], intDigits tasks.toInt⟩

/-- The samples of all histograms. -/
def Tally.latencySamples (t : Tally) : List Sample :=
  t.latency.flatMap fun (labels, h) => histogramSamples labels h

/-- The samples of a tally and the gauge, in the order of the text. -/
def Tally.samples (t : Tally) (tasks : Int64) : List Sample :=
  t.requests.map (fun (key, count) => counterSample key count)
    ++ t.latencySamples ++ [gaugeSample tasks]

theorem plain_counterSample (key : CounterKey) (count : Nat) :
    (counterSample key count).Plain where
  begins := by
    show isRemark "requests_total".toList = false
    decide
  name := by
    show ("requests_total".toList.all fun c => !endsName c) = true
    decide
  labels := by simp [counterSample, Labels.pairs]

theorem plain_gaugeSample (tasks : Int64) : (gaugeSample tasks).Plain where
  begins := by
    show isRemark "tasks_count".toList = false
    decide
  name := by
    show ("tasks_count".toList.all fun c => !endsName c) = true
    decide
  labels := by simp [gaugeSample]

theorem Latency.plain (h : Latency s) : s.Plain where
  begins := by
    rcases h.name with hname | hname | hname <;> rw [hname] <;> decide
  name := by
    rcases h.name with hname | hname | hname <;> rw [hname] <;> decide
  labels := by
    intro label hlabel
    rcases h.labels label hlabel with hname | hname | hname <;> rw [hname] <;> decide

theorem latency_of_mem_latencySamples (h : s ∈ t.latencySamples) : Latency s := by
  rcases List.mem_flatMap.1 h with ⟨⟨labels, histogram⟩, -, hs⟩
  exact latency_of_mem hs

/-- The samples of a text are found again. -/
theorem samplesOf_render : samplesOf (t.render tasks) = some (t.samples tasks) := by
  have hcounters : ∀ s ∈ t.requests.map (fun (key, count) => counterSample key count), s.Plain := by
    intro s hs
    rcases List.mem_map.1 hs with ⟨⟨key, count⟩, -, rfl⟩
    exact plain_counterSample key count
  have hlatency : ∀ s ∈ t.latencySamples, s.Plain := fun s hs =>
    (latency_of_mem_latencySamples hs).plain
  have hgauge : ∀ s ∈ [gaugeSample tasks], s.Plain := by
    intro s hs
    rw [List.mem_singleton.1 hs]
    exact plain_gaugeSample tasks
  have hend : samplesOfLines [[]] = some [] := by
    decide
  have hlines : t.lines tasks ++ [[]]
      = familyLines "requests_total" "Total number of HTTP requests." "counter"
        ++ ((t.requests.map fun (key, count) => counterSample key count).map Sample.line
        ++ (familyLines "request_latency_seconds" "HTTP request latency in seconds." "histogram"
        ++ (t.latencySamples.map Sample.line
        ++ (familyLines "tasks_count" "Number of stored tasks." "gauge"
        ++ ([gaugeSample tasks].map Sample.line ++ [[]]))))) := by
    simp [Tally.lines, Tally.latencySamples, List.map_flatMap, Function.comp_def, gaugeSample]
  rw [samplesOf, linesOf_render, hlines]
  rw [samplesOfLines_remarks _ (by decide), samplesOfLines_lines _ hcounters]
  rw [samplesOfLines_remarks _ (by decide), samplesOfLines_lines _ hlatency]
  rw [samplesOfLines_remarks _ (by decide), samplesOfLines_lines _ hgauge, hend]
  simp [Tally.samples]

end TaskBoard.Metrics
