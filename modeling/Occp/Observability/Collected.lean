import Occp.Observability.ExportedNames

/-!
# What a collector holds (`observability/metrics_collector.py`)

The families of a collector, and that its lines are theirs.
-/

namespace Occp.Metrics

/-! ## Values -/

section Values

variable {text : String} {c : Char}

theorem of_isNumeral (h : Json.isNumeral c = true) :
    isBlank c = false ∧ c ≠ '\n' ∧ c ≠ '\\' ∧ c ≠ '"' := by
  refine ⟨?_, ?_, ?_, ?_⟩
  · rw [← Bool.not_eq_true]
    intro hblank
    rw [isBlank, Bool.or_eq_true, beq_iff_eq, beq_iff_eq] at hblank
    rcases hblank with rfl | rfl <;> cases h
  all_goals
    rintro rfl
    cases h

theorem isToken_of_numeral (hne : text.toList ≠ []) (h : ∀ c ∈ text.toList, Json.isNumeral c = true) : IsToken text :=
  ⟨hne, fun c hc => ⟨(of_isNumeral (h c hc)).1, (of_isNumeral (h c hc)).2.1⟩⟩

theorem cleanBound_of_numeral (h : ∀ c ∈ text.toList, Json.isNumeral c = true) : CleanLabel ("le", text) :=
  ⟨⟨(by decide : ValidLabel "le"), fun c hc => (of_isNumeral (h c hc)).2.2⟩, fun hmem => (of_isNumeral (h _ hmem)).2.1 rfl⟩

theorem isToken_number (repr : Rat → Json.Numeral) (q : Rat) : IsToken (number repr q) := by
  refine isToken_of_numeral ?_ ?_ <;> rw [number, String.toList_ofList]
  · exact (repr q).nonempty
  · exact (repr q).numeral

theorem isNumeral_toString {n : Nat} (h : c ∈ (toString n).toList) : Json.isNumeral c = true := by
  have hdigit : c.isDigit = true := by
    rw [Nat.toString_eq_ofList_toDigits, String.toList_ofList] at h
    exact Nat.isDigit_of_mem_toDigits (by decide) (by decide) h
  simp [Json.isNumeral, hdigit]

theorem isToken_toString (n : Nat) : IsToken (toString n) := by
  refine isToken_of_numeral ?_ fun c => isNumeral_toString
  rw [Nat.toString_eq_ofList_toDigits, String.toList_ofList]
  exact Nat.toDigits_ne_nil

theorem isNumeral_fixed {digits : Nat} {q : Rat} (h : c ∈ (Text.fixed digits q).toList) : Json.isNumeral c = true := by
  have hsign : ∀ c ∈ (if q < 0 then "-" else "").toList, Json.isNumeral c = true :=
    List.all_eq_true.mp (by split <;> decide)
  have hzeros : ∀ n : Nat, ∀ c ∈ List.replicate n '0', Json.isNumeral c = true := by
    intro n c hc
    rw [List.eq_of_mem_replicate hc]
    rfl
  simp only [Text.fixed, toString, String.toList_append, List.mem_append] at h
  rcases h with ((((h | h) | h) | h) | h)
  · exact hsign c h
  · exact isNumeral_toString h
  · rw [List.mem_singleton.mp h]
    rfl
  · rw [String.toList_ofList] at h
    exact hzeros _ c h
  · exact isNumeral_toString h

theorem isToken_fixed (digits : Nat) (q : Rat) : IsToken (Text.fixed digits q) := by
  refine isToken_of_numeral ?_ fun c => isNumeral_fixed
  simp [Text.fixed, toString, String.toList_append]

end Values

/-! ## Families -/

def plainSample (suffix : String) (key : Labels) (value : String) (token : IsToken value) : Sample where
  suffix
  key
  value
  token
  plainBound := by simp

def bucketSample (key : Labels) (bound : String) (clean : CleanLabel ("le", bound)) (count : Nat) : Sample where
  suffix := "_bucket"
  key
  bound
  value := toString count
  token := isToken_toString count
  plainBound _ h := Option.some.inj h ▸ clean

@[simp] theorem labels_plainSample (suffix : String) (key : Labels) (value : String) (token : IsToken value) :
    (plainSample suffix key value token).labels = key := rfl

@[simp] theorem labels_bucketSample (key : Labels) (bound : String) (clean : CleanLabel ("le", bound)) (count : Nat) :
    (bucketSample key bound clean count).labels = bucketLabels key bound := rfl

variable (repr : Rat → Json.Numeral)

theorem cleanBound_number (q : Rat) : CleanLabel ("le", number repr q) :=
  cleanBound_of_numeral fun c hc => (repr q).numeral c (by rwa [number, String.toList_ofList] at hc)

theorem cleanBound_inf : CleanLabel ("le", "+Inf") := by
  exact ⟨⟨(by decide : ValidLabel "le"), by simp⟩, by decide⟩

-- Unfolding a number while the fields below are elaborated is slow.
attribute [local irreducible] number

def Counter.family (c : Counter) : Family where
  name := sanitize c.name
  helpText := c.helpText
  kind := .counter
  samples := c.values.map fun v => plainSample "" v.1 (number repr v.2) (isToken_number repr v.2)
  suffix_mem := by
    intro s hs
    obtain ⟨v, -, rfl⟩ := List.mem_map.mp hs
    exact List.mem_singleton.mpr rfl

def Gauge.family (g : Gauge) : Family where
  name := sanitize g.name
  helpText := g.helpText
  kind := .gauge
  samples := g.values.map fun v => plainSample "" v.1 (number repr v.2) (isToken_number repr v.2)
  suffix_mem := by
    intro s hs
    obtain ⟨v, -, rfl⟩ := List.mem_map.mp hs
    exact List.mem_singleton.mpr rfl

def Histogram.bucketSamples (h : Histogram) (key : Labels) (counts : List Nat) : List Sample :=
  (h.buckets.zip counts).map (fun b => bucketSample key (number repr b.1) (cleanBound_number repr b.1) b.2) ++
    [bucketSample key "+Inf" cleanBound_inf (counts.getLast?.getD 0)]

def Histogram.seriesSamples (h : Histogram) (key : Labels) (counts : List Nat) : List Sample :=
  h.bucketSamples repr key counts ++
    [plainSample "_count" key (toString ((h.observations.get? key).getD 0)) (isToken_toString _),
      plainSample "_sum" key (Text.fixed 3 ((h.sums.get? key).getD 0)) (isToken_fixed _ _)]

def Histogram.family (h : Histogram) : Family where
  name := sanitize h.name
  helpText := h.helpText
  kind := .histogram
  samples := h.counts.flatMap fun s => h.seriesSamples repr s.1 s.2
  suffix_mem := by
    intro s hs
    obtain ⟨v, -, hs⟩ := List.mem_flatMap.mp hs
    simp only [Histogram.seriesSamples, Histogram.bucketSamples, List.mem_append, List.mem_map, List.mem_singleton,
      List.mem_pair] at hs
    rcases hs with (⟨b, -, rfl⟩ | rfl) | rfl | rfl <;> simp [bucketSample, plainSample, Kind.suffixes]

def uptimeFamily (uptime : Rat) : Family where
  name := "occp_uptime_seconds"
  helpText := "OCCP metrics collector uptime"
  kind := .gauge
  samples := [plainSample "" [] (Text.fixed 3 uptime) (isToken_fixed 3 uptime)]
  suffix_mem := by simp [plainSample, Kind.suffixes]

def MetricsCollector.families (m : MetricsCollector) (uptime : Rat) : List Family :=
  uptimeFamily uptime :: m.counters.map (fun c => c.2.family repr) ++ m.gauges.map (fun g => g.2.family repr) ++
    m.histograms.map fun h => h.2.family repr

/-! ## Their lines -/

theorem Family.map_readings (f : Family) : f.readings.map (·.1) =
    (if f.helpText = "" then [] else [.help f.name f.helpText]) ++ .type f.name f.kind ::
      f.samples.map fun s => .sample (f.name ++ s.suffix) s.labels s.value := by
  unfold readings
  split <;> simp

theorem headLines_append (name help : String) (kind : Kind) (lines : List Line) :
    headLines name help kind ++ lines =
      (if help = "" then [] else [.help (sanitize name) help]) ++ .type (sanitize name) kind :: lines := by
  rw [headLines, List.append_assoc, List.singleton_append]

theorem Counter.lines_eq (c : Counter) : c.lines repr = (c.family repr).readings.map (·.1) := by
  rw [Counter.lines, headLines_append, Family.map_readings]
  simp only [Counter.family, List.map_map, Function.comp_def, labels_plainSample]
  simp only [plainSample, String.append_empty]
  rfl

theorem Gauge.lines_eq (g : Gauge) : g.lines repr = (g.family repr).readings.map (·.1) := by
  rw [Gauge.lines, headLines_append, Family.map_readings]
  simp only [Gauge.family, List.map_map, Function.comp_def, labels_plainSample]
  simp only [plainSample, String.append_empty]
  rfl

theorem Histogram.seriesLines_eq (h : Histogram) (key : Labels) (counts : List Nat) :
    h.seriesLines repr key counts =
      (h.seriesSamples repr key counts).map fun s => .sample (sanitize h.name ++ s.suffix) s.labels s.value := by
  simp only [Histogram.seriesLines, Histogram.seriesSamples, Histogram.bucketSamples, List.map_append, List.map_map,
    Function.comp_def, List.map_cons, List.map_nil, labels_plainSample, labels_bucketSample, List.append_assoc]
  simp [plainSample, bucketSample]

theorem Histogram.lines_eq (h : Histogram) : h.lines repr = (h.family repr).readings.map (·.1) := by
  rw [Histogram.lines, headLines_append, Family.map_readings]
  simp only [Histogram.family, Histogram.seriesLines_eq, List.map_flatMap]
  rfl

theorem MetricsCollector.lines_eq (m : MetricsCollector) (uptime : Rat) :
    m.lines repr uptime = familyLines (m.families repr uptime) := by
  have huptime : [Line.help "occp_uptime_seconds" "OCCP metrics collector uptime", .type "occp_uptime_seconds" .gauge,
      .sample "occp_uptime_seconds" [] (Text.fixed 3 uptime)] = (uptimeFamily uptime).readings.map (·.1) := by
    rw [Family.map_readings]
    simp [uptimeFamily]
    simp [plainSample]
  rw [MetricsCollector.lines, huptime, familyLines, MetricsCollector.families]
  simp only [Counter.lines_eq, Gauge.lines_eq, Histogram.lines_eq, List.map_flatMap, List.flatMap_cons,
    List.flatMap_append, List.flatMap_map, List.map_append, List.append_assoc, List.cons_append]

theorem MetricsCollector.renderPrometheus_eq (m : MetricsCollector) (uptime : Rat) :
    m.renderPrometheus repr uptime = linesText (familyLines (m.families repr uptime)) := by
  rw [renderPrometheus, lines_eq, linesText]

end Occp.Metrics
