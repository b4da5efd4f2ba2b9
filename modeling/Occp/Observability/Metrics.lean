import Occp.JsonText
import Occp.Text

/-!
# Metrics and their text (`observability/metrics_collector.py`)

Numbers are rational; `repr` is what Python writes for a float. Labels are dictionaries, and a
series is found by their sorted items.
-/

namespace Occp.Metrics

/-- The sorted items of a label dictionary. -/
abbrev Labels := List (String × String)

def itemLe (a b : String × String) : Bool := a.1 < b.1 || (a.1 == b.1 && (a.2 < b.2 || a.2 == b.2))

/-- `_labels_key`. -/
def labelsKey (labels : Dict String) : Labels := labels.mergeSort itemLe

/-- A dictionary by label items, in insertion order. -/
abbrev Series (α : Type) := List (Labels × α)

namespace Series

variable {α : Type}

def get? : Series α → Labels → Option α
  | [], _ => none
  | (k, v) :: rest, key => if k = key then some v else get? rest key

def set : Series α → Labels → α → Series α
  | [], key, value => [(key, value)]
  | (k, v) :: rest, key, value => if k = key then (k, value) :: rest else (k, v) :: set rest key value

end Series

structure Counter where
  name : String
  helpText : String := ""
  values : Series Rat := []

def Counter.inc (c : Counter) (amount : Rat) (labels : Dict String) : Counter :=
  let key := labelsKey labels
  { c with values := c.values.set key ((c.values.get? key).getD 0 + amount) }

structure Gauge where
  name : String
  helpText : String := ""
  values : Series Rat := []

def Gauge.set (g : Gauge) (value : Rat) (labels : Dict String) : Gauge :=
  { g with values := g.values.set (labelsKey labels) value }

def defaultHistBuckets : List Rat := [5, 10, 25, 50, 100, 250, 500, 1000, 2500, 5000, 10000, 30000]

def httpHistBuckets : List Rat := [5 / 1000, 1 / 100, 25 / 1000, 5 / 100, 1 / 10, 1 / 4, 1 / 2, 1, 5 / 2, 5, 10]

structure Histogram where
  name : String
  helpText : String := ""
  buckets : List Rat := defaultHistBuckets
  counts : Series (List Nat) := []
  sums : Series Rat := []
  observations : Series Nat := []

/-- One more in every bucket that the value is in; the last is for all values. -/
def countUp (buckets : List Rat) (value : Rat) (row : List Nat) : List Nat :=
  row.mapIdx fun i n =>
    match buckets[i]? with
    | some b => if value ≤ b then n + 1 else n
    | none => n + 1

def Histogram.observe (h : Histogram) (value : Rat) (labels : Dict String) : Histogram :=
  let key := labelsKey labels
  let row := (h.counts.get? key).getD (List.replicate (h.buckets.length + 1) 0)
  { h with
    counts := h.counts.set key (countUp h.buckets value row)
    sums := h.sums.set key ((h.sums.get? key).getD 0 + value)
    observations := h.observations.set key ((h.observations.get? key).getD 0 + 1) }

/-! ## The collector -/

structure MetricsCollector where
  counters : Dict Counter := []
  gauges : Dict Gauge := []
  histograms : Dict Histogram := []

def sloMetricHelp : Dict String :=
  [("occp_http_requests_total", "Total HTTP requests by method, path and status"),
    ("occp_http_request_duration_seconds", "HTTP request duration in seconds"),
    ("occp_llm_cost_usd_total", "Total LLM spend in USD by model_id"),
    ("occp_kill_switch_active", "Kill switch state (1=active, 0=inactive)"),
    ("occp_kill_switch_activations_total", "Total kill switch activations by trigger and actor"),
    ("occp_pipeline_runs_total", "Total pipeline runs by result (pass|fail|halted|gated)")]

def sloHelp (name : String) : String := (sloMetricHelp.get? name).getD ""

namespace MetricsCollector

/-- A new collector has the dashboard's metrics. -/
def new : MetricsCollector where
  counters := ["occp_http_requests_total", "occp_llm_cost_usd_total", "occp_kill_switch_activations_total",
    "occp_pipeline_runs_total"].map fun name => (name, { name, helpText := sloHelp name })
  gauges :=
    let name := "occp_kill_switch_active"
    [(name, ({ name, helpText := sloHelp name } : Gauge).set 0 [])]
  histograms :=
    let name := "occp_http_request_duration_seconds"
    [(name, { name, helpText := sloHelp name, buckets := httpHistBuckets })]

variable (m : MetricsCollector)

def counter (name : String) (amount : Rat) (labels : Dict String) (helpText : String) : MetricsCollector :=
  let c := (m.counters.get? name).getD { name, helpText }
  { m with counters := m.counters.set name (c.inc amount labels) }

def gauge (name : String) (value : Rat) (labels : Dict String) (helpText : String) : MetricsCollector :=
  let g := (m.gauges.get? name).getD { name, helpText }
  { m with gauges := m.gauges.set name (g.set value labels) }

/-- The bounds count when the metric is new. -/
def histogram (name : String) (value : Rat) (labels : Dict String) (helpText : String) (buckets : List Rat) :
    MetricsCollector :=
  let buckets := if buckets = [] then defaultHistBuckets else buckets
  let h := (m.histograms.get? name).getD { name, helpText, buckets }
  { m with histograms := m.histograms.set name (h.observe value labels) }

end MetricsCollector

/-! ## The text -/

/-- `_sanitize`. -/
def sanitize (name : String) : String :=
  String.ofList ((name.toList.map fun c => if c = '.' then '_' else c).map fun c => if c = '-' then '_' else c)

def labelText (label : String × String) : List Char := label.1.toList ++ '=' :: '"' :: label.2.toList ++ ['"']

/-- `_render_labels`. -/
def renderLabels (key : Labels) : List Char :=
  if key = [] then [] else '\x7b' :: [','].intercalate (key.map labelText) ++ ['\x7d']

inductive Kind where
  | counter | gauge | histogram | summary | untyped
  deriving DecidableEq

def Kind.value : Kind → String
  | counter => "counter"
  | gauge => "gauge"
  | histogram => "histogram"
  | summary => "summary"
  | untyped => "untyped"

/-- What `render_prometheus` appends to its lines. -/
inductive Line where
  | help (name text : String)
  | type (name : String) (kind : Kind)
  | sample (name : String) (labels : Labels) (value : String)
  | last

def Line.text : Line → List Char
  | help name text => "# HELP ".toList ++ name.toList ++ ' ' :: text.toList
  | type name kind => "# TYPE ".toList ++ name.toList ++ ' ' :: kind.value.toList
  | sample name labels value => name.toList ++ renderLabels labels ++ ' ' :: value.toList
  | last => []

theorem Line.text_help (name text : String) :
    (help name text).text = "# HELP ".toList ++ name.toList ++ ' ' :: text.toList := rfl

theorem Line.text_type (name : String) (kind : Kind) :
    (type name kind).text = "# TYPE ".toList ++ name.toList ++ ' ' :: kind.value.toList := rfl

theorem Line.text_sample (name : String) (labels : Labels) (value : String) :
    (sample name labels value).text = name.toList ++ renderLabels labels ++ ' ' :: value.toList := rfl

theorem Line.text_last : last.text = [] := rfl

/-- The lines before the samples of a metric. -/
def headLines (name help : String) (kind : Kind) : List Line :=
  (if help = "" then [] else [.help (sanitize name) help]) ++ [.type (sanitize name) kind]

variable (repr : Rat → Json.Numeral)

def number (q : Rat) : String := String.ofList (repr q).chars

def Counter.lines (c : Counter) : List Line :=
  headLines c.name c.helpText .counter ++ c.values.map fun v => .sample (sanitize c.name) v.1 (number repr v.2)

def Gauge.lines (g : Gauge) : List Line :=
  headLines g.name g.helpText .gauge ++ g.values.map fun v => .sample (sanitize g.name) v.1 (number repr v.2)

/-- `{**base_labels, "le": bound}`. -/
def bucketLabels (key : Labels) (bound : String) : Labels := labelsKey (Dict.set key "le" bound)

def Histogram.seriesLines (h : Histogram) (key : Labels) (counts : List Nat) : List Line :=
  ((h.buckets.zip counts).map fun b =>
    .sample (sanitize h.name ++ "_bucket") (bucketLabels key (number repr b.1)) (toString b.2)) ++
  [.sample (sanitize h.name ++ "_bucket") (bucketLabels key "+Inf") (toString (counts.getLast?.getD 0)),
    .sample (sanitize h.name ++ "_count") key (toString ((h.observations.get? key).getD 0)),
    .sample (sanitize h.name ++ "_sum") key (Text.fixed 3 ((h.sums.get? key).getD 0))]

def Histogram.lines (h : Histogram) : List Line :=
  headLines h.name h.helpText .histogram ++ h.counts.flatMap fun s => h.seriesLines repr s.1 s.2

def MetricsCollector.lines (m : MetricsCollector) (uptime : Rat) : List Line :=
  [.help "occp_uptime_seconds" "OCCP metrics collector uptime", .type "occp_uptime_seconds" .gauge,
    .sample "occp_uptime_seconds" [] (Text.fixed 3 uptime)] ++
  m.counters.flatMap (fun c => c.2.lines repr) ++ m.gauges.flatMap (fun g => g.2.lines repr) ++
  m.histograms.flatMap (fun h => h.2.lines repr) ++ [.last]

def MetricsCollector.renderPrometheus (m : MetricsCollector) (uptime : Rat) : List Char :=
  ['\n'].intercalate ((m.lines repr uptime).map Line.text)

/-! ## Recordings -/

/-- A recording; labels are a dictionary. -/
inductive Recording where
  | counter (name : String) (amount : Rat) (labels : Dict String) (helpText : String)
  | gauge (name : String) (value : Rat) (labels : Dict String) (helpText : String)
  | histogram (name : String) (value : Rat) (labels : Dict String) (helpText : String) (buckets : List Rat)

def MetricsCollector.record (m : MetricsCollector) : Recording → MetricsCollector
  | .counter name amount labels helpText => m.counter name amount labels helpText
  | .gauge name value labels helpText => m.gauge name value labels helpText
  | .histogram name value labels helpText buckets => m.histogram name value labels helpText buckets

end Occp.Metrics
