import TaskBoard.Decimal.Shortest
import TaskBoard.Metrics.Tally

/-!
# The metrics text

A tally and the task gauge in the text exposition format: for each family two comment lines, then
a line for each sample. Label values are in quotes, with quotes, backslashes and line feeds
escaped, so that a line feed always ends a line.
-/

namespace TaskBoard.Metrics

open Text

/-- A character of a label value. -/
def escapeLabelChar (c : Char) : List Char :=
  match c with
  | '\\' => ['\\', '\\']
  | '"' => ['\\', '"']
  | '\n' => ['\\', 'n']
  | c => [c]

/-- A label and its value. -/
def labelText (name value : String) : List Char :=
  name.toList ++ '=' :: '"' :: value.toList.flatMap escapeLabelChar ++ ['"']

/-- Labels in braces, with commas between them. -/
def labelsText (labels : List (String × String)) : List Char :=
  '{' :: [','].intercalate (labels.map fun (name, value) => labelText name value) ++ ['}']

/-- A sample: a name, labels and a value. -/
structure Sample where
  name : String
  labels : List (String × String)
  value : List Char
deriving DecidableEq, Repr

/-- The line of a sample, without its end. -/
def Sample.line (s : Sample) : List Char :=
  s.name.toList ++ (if s.labels.isEmpty then [] else labelsText s.labels) ++ ' ' :: s.value

/-- A sum of seconds: the fewest digits, never an exponent. -/
def sumLayout : Decimal.Layout where
  positional _ := true
  pointZero := false
  plus := false

/-- The labels that every sample of a kind of request has. -/
def Labels.pairs (l : Labels) : List (String × String) :=
  [("method", l.method), ("path", l.path)]

/-- The sample of a counter. -/
def counterSample (key : CounterKey) (count : Nat) : Sample where
  name := "requests_total"
  labels := key.labels.pairs ++ [("status", natText key.status)]
  value := natDigits count

/-- The samples of a histogram. -/
def histogramSamples (labels : Labels) (h : Histogram) : List Sample :=
  let bucket (bound : String) (count : Nat) : Sample :=
    ⟨"request_latency_seconds_bucket", labels.pairs ++ [("le", bound)], natDigits count⟩
  List.zipWith (fun b n => bucket b.label n) bounds h.cumulative
    ++ [bucket "+Inf" h.count,
      ⟨"request_latency_seconds_sum", labels.pairs, sumLayout.text h.sum⟩,
      ⟨"request_latency_seconds_count", labels.pairs, natDigits h.count⟩]

/-- The two comment lines of a family. -/
def familyLines (name help kind : String) : List (List Char) :=
  [("# HELP " ++ name ++ " " ++ help).toList, ("# TYPE " ++ name ++ " " ++ kind).toList]

/-- The lines of the text. -/
def Tally.lines (t : Tally) (tasks : Int64) : List (List Char) :=
  familyLines "requests_total" "Total number of HTTP requests." "counter"
    ++ t.requests.map (fun (key, count) => (counterSample key count).line)
    ++ familyLines "request_latency_seconds" "HTTP request latency in seconds." "histogram"
    ++ (t.latency.flatMap fun (labels, h) => (histogramSamples labels h).map Sample.line)
    ++ familyLines "tasks_count" "Number of stored tasks." "gauge"
    ++ [(⟨"tasks_count", [], intDigits tasks.toInt⟩ : Sample).line]

/-- The text of a tally and the task gauge. -/
def Tally.render (t : Tally) (tasks : Int64) : String :=
  String.ofList ((t.lines tasks).flatMap fun line => line ++ ['\n'])

end TaskBoard.Metrics
