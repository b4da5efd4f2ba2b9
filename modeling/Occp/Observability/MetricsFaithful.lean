import Occp.Observability.Collected
import Occp.Observability.Recordings

/-!
# The exposition is faithful (`observability/metrics_collector.py`)

After any recordings: when the text of the collector is read back as what was recorded.
-/

namespace Occp.Metrics

variable (repr : Rat → Json.Numeral)

/-! ## One sample a series -/

theorem Counter.distinct {c : Counter} (h : c.values.Kept) : (c.family repr).Distinct := by
  refine List.pairwise_map.mpr (h.nodup.imp_of_mem fun {e f} he hf hne hand => hne ?_)
  exact (h.sorted e he).eq_of_perm (h.sorted f hf) hand.2

theorem Gauge.distinct {g : Gauge} (h : g.values.Kept) : (g.family repr).Distinct := by
  refine List.pairwise_map.mpr (h.nodup.imp_of_mem fun {e f} he hf hne hand => hne ?_)
  exact (h.sorted e he).eq_of_perm (h.sorted f hf) hand.2

section Buckets

variable {key key' : Labels} {b b' : String}

theorem recorded_perm_iff : (labelsKey (key ++ [("le", b)])).Perm (labelsKey (key' ++ [("le", b')])) ↔
    (key ++ [("le", b)]).Perm (key' ++ [("le", b')]) :=
  ⟨fun h => (labelsKey_perm _).symm.trans (h.trans (labelsKey_perm _)),
    fun h => (labelsKey_perm _).trans (h.trans (labelsKey_perm _).symm)⟩

theorem eq_of_recorded_perm (hkey : Sorted key) (hkey' : Sorted key') (hle : "le" ∉ key'.map (·.1))
    (h : (labelsKey (key ++ [("le", b)])).Perm (labelsKey (key' ++ [("le", b')]))) : key = key' := by
  rw [recorded_perm_iff] at h
  have hmem : ("le", b) ∈ key' ++ [("le", b')] := h.mem_iff.mp (List.mem_append_right _ List.mem_cons_self)
  obtain rfl : b = b' := by
    rcases List.mem_append.mp hmem with hmem | hmem
    · exact absurd (List.mem_map.mpr ⟨_, hmem, rfl⟩) hle
    · simpa using hmem
  exact hkey.eq_of_perm hkey' ((List.perm_append_right_iff _).mp h)

theorem eq_of_same_key_perm (h : (labelsKey (key ++ [("le", b)])).Perm (labelsKey (key ++ [("le", b')]))) : b = b' := by
  rw [recorded_perm_iff, List.perm_append_left_iff] at h
  simpa using h

theorem number_ne_inf (q : Rat) : number repr q ≠ "+Inf" := by
  intro h
  have hmem : 'I' ∈ (number repr q).toList := by
    rw [h]
    decide
  rw [number, String.toList_ofList] at hmem
  exact absurd ((repr q).numeral 'I' hmem) (by decide)

end Buckets

/-- The two samples are not of one series. -/
def Sample.Apart (s t : Sample) : Prop := ¬ (s.suffix = t.suffix ∧ s.recorded.Perm t.recorded)

section Histograms

variable {h : Histogram} {key key' : Labels} {counts counts' : List Nat}

/-- The buckets of one series are apart just when their bounds are written differently. -/
theorem pairwise_bucketSamples_iff (hlength : counts.length = h.buckets.length + 1) :
    (h.bucketSamples repr key counts).Pairwise Sample.Apart ↔ (h.buckets.map (number repr)).Nodup := by
  have hapart : ∀ b b' clean clean' n n', (bucketSample key b clean n).Apart (bucketSample key b' clean' n') ↔ b ≠ b' := by
    intro b b' clean clean' n n'
    refine ⟨fun hnot heq => hnot ⟨rfl, ?_⟩, fun hne hand => hne (eq_of_same_key_perm hand.2)⟩
    subst heq
    exact List.Perm.refl _
  have hbounds : (h.buckets.zip counts).map (·.1) = h.buckets := List.map_fst_zip (by omega)
  rw [Histogram.bucketSamples, List.pairwise_append, List.pairwise_map]
  simp only [hapart, List.mem_map, List.mem_singleton]
  constructor
  · rintro ⟨hpairwise, -, -⟩
    rw [← hbounds, List.map_map, List.Nodup, List.pairwise_map]
    exact hpairwise
  · intro hnodup
    refine ⟨?_, List.pairwise_singleton _ _, ?_⟩
    · rw [← hbounds, List.map_map, List.Nodup, List.pairwise_map] at hnodup
      exact hnodup
    · rintro _ ⟨b, -, rfl⟩ _ rfl
      exact (hapart _ _ _ _ _ _).mpr (number_ne_inf repr b.1)

theorem pairwise_seriesSamples_iff (hlength : counts.length = h.buckets.length + 1) :
    (h.seriesSamples repr key counts).Pairwise Sample.Apart ↔ (h.buckets.map (number repr)).Nodup := by
  rw [Histogram.seriesSamples, List.pairwise_append, pairwise_bucketSamples_iff repr hlength]
  refine and_iff_left ⟨?_, ?_⟩
  · simp [Sample.Apart, plainSample]
  · intro s hs t ht hand
    have hsuffix : s.suffix = "_bucket" := by
      simp only [Histogram.bucketSamples, List.mem_append, List.mem_map, List.mem_singleton] at hs
      rcases hs with ⟨b, -, rfl⟩ | rfl <;> rfl
    rw [hsuffix] at hand
    rcases List.mem_pair.mp ht with rfl | rfl
    · exact absurd hand.1 (by simp [plainSample])
    · exact absurd hand.1 (by simp [plainSample])

theorem mem_seriesSamples {s : Sample} (hs : s ∈ h.seriesSamples repr key counts) :
    (s.suffix = "_bucket" ∧ ∃ b, s.recorded = labelsKey (key ++ [("le", b)])) ∨
      (s.suffix ≠ "_bucket" ∧ s.recorded = key) := by
  simp only [Histogram.seriesSamples, Histogram.bucketSamples, List.mem_append, List.mem_map, List.mem_singleton,
    List.mem_pair] at hs
  rcases hs with (⟨b, -, rfl⟩ | rfl) | rfl | rfl
  · exact .inl ⟨rfl, _, rfl⟩
  · exact .inl ⟨rfl, _, rfl⟩
  · exact .inr ⟨by simp [plainSample], rfl⟩
  · exact .inr ⟨by simp [plainSample], rfl⟩

/-- Series of other labels are apart. -/
theorem apart_of_ne {s t : Sample} (hkey : Sorted key) (hkey' : Sorted key') (hle : "le" ∉ key'.map (·.1))
    (hne : key ≠ key') (hs : s ∈ h.seriesSamples repr key counts) (ht : t ∈ h.seriesSamples repr key' counts') :
    s.Apart t := by
  rintro ⟨hsuffix, hperm⟩
  rcases mem_seriesSamples repr hs with ⟨hbucket, b, hrecorded⟩ | ⟨hbucket, hrecorded⟩
  · rcases mem_seriesSamples repr ht with ⟨-, b', hrecorded'⟩ | ⟨hbucket', -⟩
    · rw [hrecorded, hrecorded'] at hperm
      exact hne (eq_of_recorded_perm hkey hkey' hle hperm)
    · exact hbucket' (hsuffix ▸ hbucket)
  · rcases mem_seriesSamples repr ht with ⟨hbucket', -⟩ | ⟨-, hrecorded'⟩
    · exact hbucket (hsuffix ▸ hbucket')
    · rw [hrecorded, hrecorded'] at hperm
      exact hne (hkey.eq_of_perm hkey' hperm)

theorem Histogram.distinct_iff (hkept : h.counts.Kept) (hrows : ∀ s ∈ h.counts, s.2.length = h.buckets.length + 1)
    (hle : ∀ s ∈ h.counts, "le" ∉ s.1.map (·.1)) :
    (h.family repr).Distinct ↔ (h.counts ≠ [] → (h.buckets.map (number repr)).Nodup) := by
  have hapart : h.counts.Pairwise fun s t => ∀ x ∈ h.seriesSamples repr s.1 s.2, ∀ y ∈ h.seriesSamples repr t.1 t.2,
      x.Apart y :=
    hkept.nodup.imp_of_mem fun {s t} hs ht hne x hx y hy =>
      apart_of_ne repr (hkept.sorted s hs) (hkept.sorted t ht) (hle t ht) hne hx hy
  have hdistinct : (h.family repr).Distinct ↔
      ∀ s ∈ h.counts, (h.seriesSamples repr s.1 s.2).Pairwise Sample.Apart :=
    List.pairwise_flatMap.trans (and_iff_left hapart)
  have hseries : (∀ s ∈ h.counts, (h.seriesSamples repr s.1 s.2).Pairwise Sample.Apart) ↔
      ∀ s ∈ h.counts, (h.buckets.map (number repr)).Nodup :=
    forall₂_congr fun s hs => pairwise_seriesSamples_iff repr (hrows s hs)
  rw [hdistinct, hseries]
  exact ⟨fun hall hne => hall _ (List.head_mem hne), fun hall s hs => hall (List.ne_nil_of_mem hs)⟩

end Histograms

/-! ## Any recordings -/

/-- The text is read back as what the collector holds, and that is what was recorded. -/
def Faithful (uptime : Rat) (recordings : List Recording) : Prop :=
  parse ((collect recordings).renderPrometheus repr uptime) =
      some (((collect recordings).families repr uptime).flatMap Family.items) ∧
    Accounted recordings (collect recordings)

/-- Nothing that was recorded gets in the way of the format: all exported names are names and no two
metrics have one in common, no label or help text has anything special in it, no label of a histogram is
named like its bounds, and these are written differently. -/
structure Clean (uptime : Rat) (m : MetricsCollector) : Prop where
  readable : ∀ f ∈ m.families repr uptime, f.Readable
  names : (m.families repr uptime).Pairwise fun f g => f.names.Disjoint g.names
  bounds : ∀ e ∈ m.histograms, e.2.counts ≠ [] → (e.2.buckets.map (number repr)).Nodup

theorem bound_of_readable {h : Histogram} (hreadable : (h.family repr).Readable) :
    ∀ s ∈ h.counts, "le" ∉ s.1.map (·.1) := by
  intro s hs
  have hmem : bucketSample s.1 "+Inf" cleanBound_inf (s.2.getLast?.getD 0) ∈ (h.family repr).samples := by
    refine List.mem_flatMap.mpr ⟨s, hs, List.mem_append_left _ (List.mem_append_right _ ?_)⟩
    exact List.mem_singleton.mpr rfl
  exact hreadable.bound _ hmem rfl

theorem distinct_families_iff {m : MetricsCollector} (uptime : Rat) (horderly : Orderly m)
    (hreadable : ∀ f ∈ m.families repr uptime, f.Readable) :
    (∀ f ∈ m.families repr uptime, f.Distinct) ↔
      ∀ e ∈ m.histograms, e.2.counts ≠ [] → (e.2.buckets.map (number repr)).Nodup := by
  have huptime : (uptimeFamily uptime).Distinct := List.pairwise_singleton _ _
  have hcounters : ∀ e ∈ m.counters, (e.2.family repr).Distinct := fun e he =>
    Counter.distinct repr (horderly.counters e he)
  have hgauges : ∀ e ∈ m.gauges, (e.2.family repr).Distinct := fun e he => Gauge.distinct repr (horderly.gauges e he)
  have hhistograms : ∀ e ∈ m.histograms, (e.2.family repr).Readable := by
    intro e he
    refine hreadable _ ?_
    rw [MetricsCollector.families]
    exact List.mem_append_right _ (List.mem_map_of_mem he)
  rw [MetricsCollector.families, List.forall_mem_append, List.cons_append, List.forall_mem_cons,
    List.forall_mem_append, List.forall_mem_map, List.forall_mem_map, List.forall_mem_map,
    and_iff_right ⟨huptime, hcounters, hgauges⟩]
  exact forall₂_congr fun e he => Histogram.distinct_iff repr (horderly.histograms e he) (horderly.rows e he)
    (bound_of_readable repr (hhistograms e he))

/-- For every sequence of recordings the text is faithful just when what was recorded is clean. -/
theorem faithful_iff (uptime : Rat) (recordings : List Recording) :
    Faithful repr uptime recordings ↔ Clean repr uptime (collect recordings) := by
  rw [Faithful, and_iff_left (accounted_collect recordings), MetricsCollector.renderPrometheus_eq, parse_families_iff]
  constructor
  · rintro ⟨hreadable, hnames, hdistinct⟩
    exact ⟨hreadable, hnames, (distinct_families_iff repr uptime (orderly_collect recordings) hreadable).mp hdistinct⟩
  · rintro ⟨hreadable, hnames, hbounds⟩
    exact ⟨hreadable, hnames, (distinct_families_iff repr uptime (orderly_collect recordings) hreadable).mpr hbounds⟩

/-- A whole number of at least 0, as Python writes the float. -/
def wholeNumeral (q : Rat) : Json.Numeral where
  chars := (toString ⌊q⌋.toNat).toList ++ ['.', '0']
  nonempty := by simp
  numeral := by
    intro c hc
    rcases List.mem_append.mp hc with hc | hc
    · exact isNumeral_toString hc
    · rcases List.mem_pair.mp hc with rfl | rfl <;> decide

/-- One quote in a label value, or two names that are written alike, and the text cannot be read. -/
theorem quote_or_alias_not_faithful :
    ¬ Faithful wholeNumeral 0 [.counter "logins" 1 [("user", "a\"b")] ""] ∧
      ¬ Faithful wholeNumeral 0 [.counter "agent.runs" 1 [] "", .counter "agent-runs" 1 [] ""] := by
  constructor
  · rintro ⟨hparse, -⟩
    rw [MetricsCollector.renderPrometheus_eq] at hparse
    obtain ⟨hreadable, -, -⟩ := (parse_families_iff _).mp hparse
    have hlabel : ("user", "a\"b") ∈ labelsKey [("user", "a\"b")] :=
      (labelsKey_perm _).mem_iff.mpr List.mem_cons_self
    have hclean := (hreadable _ (List.getElem_mem (by decide : 5 < _))).labels _ List.mem_cons_self _ hlabel
    exact (hclean.1.2 '"' (by decide)).2 rfl
  · rintro ⟨hparse, -⟩
    rw [MetricsCollector.renderPrometheus_eq] at hparse
    obtain ⟨-, hnames, -⟩ := (parse_families_iff _).mp hparse
    have hapart := List.pairwise_iff_getElem.mp hnames 5 6 (by decide) (by decide) (by decide)
    exact hapart (a := "agent_runs") (by decide) (by decide)

end Occp.Metrics
