import Mathlib.Data.List.Induction
import Mathlib.Data.Prod.Lex
import Mathlib.Data.String.Basic
import Occp.Observability.Metrics

/-!
# Runs of recordings (`observability/metrics_collector.py`)

What a collector holds after any recordings: each value is the sum, the last or the count of what was
recorded under its labels.
-/

namespace Occp.Metrics

/-! ## Series -/

theorem itemLe_iff (a b : String × String) : itemLe a b = true ↔ toLex a ≤ toLex b := by
  rw [Prod.Lex.toLex_le_toLex, itemLe]
  simp only [Bool.or_eq_true, Bool.and_eq_true, decide_eq_true_eq, beq_iff_eq, le_iff_lt_or_eq]

def Sorted (key : Labels) : Prop := key.Pairwise fun a b => itemLe a b = true

theorem sorted_labelsKey (labels : Dict String) : Sorted (labelsKey labels) := by
  refine List.pairwise_mergeSort (fun a b c hab hbc => ?_) (fun a b => ?_) labels
  · rw [itemLe_iff] at hab hbc ⊢
    exact hab.trans hbc
  · rw [Bool.or_eq_true, itemLe_iff, itemLe_iff]
    exact le_total _ _

theorem Sorted.eq_of_perm {key key' : Labels} (h : Sorted key) (h' : Sorted key') (hperm : key.Perm key') : key = key' := by
  refine hperm.eq_of_pairwise (fun a b _ _ hab hba => ?_) h h'
  rw [itemLe_iff] at hab hba
  exact toLex_inj.mp (le_antisymm hab hba)

namespace Series

variable {α : Type} {s : Series α} {key : Labels} {v : α}

theorem get?_set (s : Series α) (key other : Labels) (v : α) :
    (s.set key v).get? other = if other = key then some v else s.get? other := by
  induction s with
  | nil => simp only [set, get?, eq_comm]
  | cons e s ih =>
    obtain ⟨k, w⟩ := e
    rw [set]
    by_cases hk : k = key
    · subst hk
      by_cases hother : other = k
      · simp [get?, hother]
      · simp [get?, hother, Ne.symm hother]
    · rw [if_neg hk, get?, get?, ih]
      by_cases hother : k = other
      · subst hother
        simp [hk]
      · simp [hother]

theorem mem_set {e : Labels × α} (h : e ∈ s.set key v) : e = (key, v) ∨ e ∈ s := by
  induction s with
  | nil => exact .inl (List.mem_singleton.mp h)
  | cons f s ih =>
    obtain ⟨k, w⟩ := f
    rw [set] at h
    split at h
    · next hk =>
      rw [hk] at h
      exact (List.mem_cons.mp h).imp_right (List.mem_cons_of_mem _)
    · rcases List.mem_cons.mp h with rfl | h
      · exact .inr List.mem_cons_self
      · exact (ih h).imp_right (List.mem_cons_of_mem _)

/-- Every label set once, its items in order. -/
structure Kept (s : Series α) : Prop where
  nodup : s.Pairwise fun e f => e.1 ≠ f.1
  sorted : ∀ e ∈ s, Sorted e.1

theorem kept_nil : Kept ([] : Series α) := ⟨List.Pairwise.nil, by simp⟩

theorem Kept.set (h : s.Kept) (hkey : Sorted key) (v : α) : (s.set key v).Kept := by
  constructor
  · have hnodup := h.nodup
    clear h
    induction s with
    | nil => exact List.pairwise_singleton _ _
    | cons e s ih =>
      obtain ⟨k, w⟩ := e
      rw [List.pairwise_cons] at hnodup
      rw [Series.set]
      split
      · exact List.pairwise_cons.mpr hnodup
      · next hk =>
        refine List.pairwise_cons.mpr ⟨fun f hf => ?_, ih hnodup.2⟩
        rcases mem_set hf with rfl | hf
        · exact hk
        · exact hnodup.1 f hf
  · intro e he
    rcases mem_set he with rfl | he
    · exact hkey
    · exact h.sorted e he

end Series

/-! ## Every collector is kept in order -/

structure Orderly (m : MetricsCollector) : Prop where
  counters : ∀ e ∈ m.counters, e.2.values.Kept
  gauges : ∀ e ∈ m.gauges, e.2.values.Kept
  histograms : ∀ e ∈ m.histograms, e.2.counts.Kept
  rows : ∀ e ∈ m.histograms, ∀ s ∈ e.2.counts, s.2.length = e.2.buckets.length + 1

theorem forall_set {α : Type} {d : Dict α} {p : α → Prop} {v : α} (h : ∀ e ∈ d, p e.2) (name : String) (hv : p v) :
    ∀ e ∈ d.set name v, p e.2 := by
  intro e he
  rcases Dict.mem_set he with rfl | he
  · exact hv
  · exact h e he

theorem getD_of_forall {α : Type} {d : Dict α} {p : α → Prop} {v : α} (h : ∀ e ∈ d, p e.2) (name : String) (hv : p v) :
    p ((d.get? name).getD v) := by
  cases hget : d.get? name with
  | none => exact hv
  | some w => exact h _ (Dict.mem_of_get? hget)

theorem length_countUp (buckets : List Rat) (value : Rat) (row : List Nat) : (countUp buckets value row).length = row.length := by
  rw [countUp, List.length_mapIdx]

theorem Series.mem_of_get? {α : Type} {s : Series α} {key : Labels} {v : α} (h : s.get? key = some v) : (key, v) ∈ s := by
  induction s with
  | nil => cases h
  | cons e s ih =>
    obtain ⟨k, w⟩ := e
    unfold Series.get? at h
    split at h
    · next hk =>
      cases h
      rw [hk]
      exact List.mem_cons_self
    · exact List.mem_cons_of_mem _ (ih h)

theorem kept_observe {h : Histogram} (hkept : h.counts.Kept) (value : Rat) (labels : Dict String) :
    (h.observe value labels).counts.Kept :=
  hkept.set (sorted_labelsKey labels) _

theorem rows_observe {h : Histogram} (hrows : ∀ s ∈ h.counts, s.2.length = h.buckets.length + 1) (value : Rat)
    (labels : Dict String) : ∀ s ∈ (h.observe value labels).counts, s.2.length = h.buckets.length + 1 := by
  intro s hs
  rcases Series.mem_set hs with rfl | hs
  · simp only [length_countUp]
    cases hrow : h.counts.get? (labelsKey labels) with
    | none => simp
    | some row => exact hrows _ (Series.mem_of_get? hrow)
  · exact hrows s hs

theorem orderly_record {m : MetricsCollector} (h : Orderly m) (r : Recording) : Orderly (m.record r) := by
  cases r with
  | counter name amount labels helpText =>
    have hc := getD_of_forall (p := fun c : Counter => c.values.Kept) (v := { name, helpText }) h.counters name
      Series.kept_nil
    exact ⟨forall_set (p := fun c : Counter => c.values.Kept) h.counters name (hc.set (sorted_labelsKey labels) _),
      h.gauges, h.histograms, h.rows⟩
  | gauge name value labels helpText =>
    have hg := getD_of_forall (p := fun g : Gauge => g.values.Kept) (v := { name, helpText }) h.gauges name
      Series.kept_nil
    exact ⟨h.counters, forall_set (p := fun g : Gauge => g.values.Kept) h.gauges name (hg.set (sorted_labelsKey labels) _),
      h.histograms, h.rows⟩
  | histogram name value labels helpText buckets =>
    let fresh : Histogram := { name, helpText, buckets := if buckets = [] then defaultHistBuckets else buckets }
    have hkept := getD_of_forall (p := fun h : Histogram => h.counts.Kept) (v := fresh) h.histograms name
      Series.kept_nil
    have hrows := getD_of_forall (p := fun h : Histogram => ∀ s ∈ h.counts, s.2.length = h.buckets.length + 1)
      (v := fresh) h.rows name (by simp [fresh])
    exact ⟨h.counters, h.gauges,
      forall_set (p := fun h : Histogram => h.counts.Kept) h.histograms name (kept_observe hkept value labels),
      forall_set (p := fun h : Histogram => ∀ s ∈ h.counts, s.2.length = h.buckets.length + 1) h.rows name
        (rows_observe hrows value labels)⟩

/-- A new collector after recordings. -/
def collect (recordings : List Recording) : MetricsCollector := recordings.foldl MetricsCollector.record .new

theorem collect_concat (recordings : List Recording) (r : Recording) :
    collect (recordings ++ [r]) = (collect recordings).record r := by
  rw [collect, List.foldl_append]
  rfl

theorem orderly_new : Orderly .new := by
  refine ⟨?_, ?_, ?_, ?_⟩
  · intro e he
    obtain ⟨name, -, rfl⟩ := List.mem_map.mp he
    exact Series.kept_nil
  · intro e he
    rw [List.mem_singleton.mp he]
    exact Series.kept_nil.set (sorted_labelsKey []) 0
  · intro e he
    rw [List.mem_singleton.mp he]
    exact Series.kept_nil
  · intro e he
    rw [List.mem_singleton.mp he]
    simp

theorem orderly_collect (recordings : List Recording) : Orderly (collect recordings) := by
  induction recordings using List.reverseRecOn with
  | nil => exact orderly_new
  | append_singleton recordings r ih =>
    rw [collect_concat]
    exact orderly_record ih r

/-! ## What was recorded -/

namespace Recording

variable (name : String) (key : Labels)

def amount? : Recording → Option Rat
  | counter name' amount labels _ => if name' = name ∧ labelsKey labels = key then some amount else none
  | _ => none

def level? : Recording → Option Rat
  | gauge name' value labels _ => if name' = name ∧ labelsKey labels = key then some value else none
  | _ => none

def observed? : Recording → Option Rat
  | histogram name' value labels _ _ => if name' = name ∧ labelsKey labels = key then some value else none
  | _ => none

end Recording

/-- The amounts that a counter was given for these labels. -/
def amounts (recordings : List Recording) (name : String) (key : Labels) : List Rat :=
  recordings.filterMap (·.amount? name key)

/-- The values that a gauge was set to. A new collector sets the kill switch to 0. -/
def levels (recordings : List Recording) (name : String) (key : Labels) : List Rat :=
  (if name = "occp_kill_switch_active" ∧ key = [] then [0] else []) ++ recordings.filterMap (·.level? name key)

/-- What a histogram observed. -/
def observed (recordings : List Recording) (name : String) (key : Labels) : List Rat :=
  recordings.filterMap (·.observed? name key)

/-- How many values are in each bucket, and how many there are. -/
def bucketCounts (buckets values : List Rat) : List Nat :=
  buckets.map (fun b => values.countP (· ≤ b)) ++ [values.length]

def unlessEmpty {α : Type} (values : List Rat) (a : α) : Option α := if values = [] then none else some a

/-- A histogram after it has observed values. -/
structure Histogram.Counted (h : Histogram) (observed : Labels → List Rat) : Prop where
  counts : ∀ key, h.counts.get? key = unlessEmpty (observed key) (bucketCounts h.buckets (observed key))
  sums : ∀ key, h.sums.get? key = unlessEmpty (observed key) (observed key).sum
  observations : ∀ key, h.observations.get? key = unlessEmpty (observed key) (observed key).length

/-- The collector holds what was recorded, and nothing else. -/
structure Accounted (recordings : List Recording) (m : MetricsCollector) : Prop where
  counters : ∀ name key, ((m.counters.get? name).bind fun c => c.values.get? key) =
    unlessEmpty (amounts recordings name key) (amounts recordings name key).sum
  gauges : ∀ name key, ((m.gauges.get? name).bind fun g => g.values.get? key) = (levels recordings name key).getLast?
  histograms : ∀ name h, m.histograms.get? name = some h → h.Counted (observed recordings name)
  unobserved : ∀ name key, m.histograms.get? name = none → observed recordings name key = []

theorem unlessEmpty_concat {α : Type} (values : List Rat) (v : Rat) (a : α) : unlessEmpty (values ++ [v]) a = some a := by
  simp [unlessEmpty]

theorem unlessEmpty_getD {α : Type} {values : List Rat} {a b : α} (h : values = [] → a = b) :
    (unlessEmpty values a).getD b = a := by
  rw [unlessEmpty]
  split
  · next hempty => exact (h hempty).symm
  · rfl

/-- Every bucket that the value is in counts it. -/
theorem countUp_bucketCounts (buckets values : List Rat) (v : Rat) :
    countUp buckets v (bucketCounts buckets values) = bucketCounts buckets (values ++ [v]) := by
  refine List.ext_getElem? fun i => ?_
  rw [countUp, List.getElem?_mapIdx]
  rcases Nat.lt_trichotomy i buckets.length with hi | hi | hi
  · rw [bucketCounts, bucketCounts, List.getElem?_append_left (by simpa using hi), List.getElem?_append_left (by simpa using hi),
      List.getElem?_map, List.getElem?_map, List.getElem?_eq_getElem hi]
    by_cases hv : v ≤ buckets[i] <;> simp [List.countP_append, hv]
  · subst hi
    simp [bucketCounts]
  · have hlength : ∀ vs, (bucketCounts buckets vs).length ≤ i := by
      intro vs
      simp only [bucketCounts, List.length_append, List.length_map, List.length_singleton]
      omega
    rw [List.getElem?_eq_none (hlength values), List.getElem?_eq_none (hlength (values ++ [v]))]
    rfl

theorem bucketCounts_nil (buckets : List Rat) : bucketCounts buckets [] = List.replicate (buckets.length + 1) 0 := by
  rw [bucketCounts, List.replicate_succ']
  simp [List.map_const']

section Steps

variable {h : Histogram} {seen : Labels → List Rat}

theorem counted_fresh (name helpText : String) (buckets : List Rat) :
    ({ name, helpText, buckets } : Histogram).Counted fun _ => [] :=
  ⟨fun _ => rfl, fun _ => rfl, fun _ => rfl⟩

theorem Histogram.Counted.observe (hc : h.Counted seen) (value : Rat) (labels : Dict String) :
    (h.observe value labels).Counted fun key => if labelsKey labels = key then seen key ++ [value] else seen key := by
  have hrow : (h.counts.get? (labelsKey labels)).getD (List.replicate (h.buckets.length + 1) 0) =
      bucketCounts h.buckets (seen (labelsKey labels)) := by
    rw [hc.counts]
    exact unlessEmpty_getD fun hempty => by rw [hempty, bucketCounts_nil]
  have hsum : (h.sums.get? (labelsKey labels)).getD 0 = (seen (labelsKey labels)).sum := by
    rw [hc.sums]
    exact unlessEmpty_getD fun hempty => by rw [hempty, List.sum_nil]
  have hobservations : (h.observations.get? (labelsKey labels)).getD 0 = (seen (labelsKey labels)).length := by
    rw [hc.observations]
    exact unlessEmpty_getD fun hempty => by rw [hempty, List.length_nil]
  refine ⟨fun key => ?_, fun key => ?_, fun key => ?_⟩ <;>
    simp only [Histogram.observe, Series.get?_set, eq_comm (a := key)] <;> split
  · next hkey => rw [hrow, countUp_bucketCounts, ← hkey, unlessEmpty_concat]
  · exact hc.counts key
  · next hkey => rw [hsum, ← hkey, unlessEmpty_concat, List.sum_append, List.sum_singleton]
  · exact hc.sums key
  · next hkey => rw [hobservations, ← hkey, unlessEmpty_concat, List.length_append, List.length_singleton]
  · exact hc.observations key

end Steps

theorem filterMap_concat {α β : Type} (f : α → Option β) (xs : List α) (x : α) :
    (xs ++ [x]).filterMap f = xs.filterMap f ++ (f x).toList := by
  rw [List.filterMap_append]
  cases hx : f x <;> simp [hx]

theorem append_toList_ite {α : Type} (xs : List α) (p : Prop) [Decidable p] (a : α) :
    xs ++ (if p then some a else none).toList = if p then xs ++ [a] else xs := by
  split <;> simp

/-- A metric that is new has nothing under any labels. -/
theorem getD_eq_bind {α β : Type} {d : Dict α} {get : α → Option β} {fresh : α} (hfresh : get fresh = none)
    (name : String) : get ((d.get? name).getD fresh) = (d.get? name).bind get := by
  cases d.get? name with
  | none => exact hfresh
  | some a => rfl

section Steps

variable {recordings : List Recording} {m : MetricsCollector}

theorem accounted_counter (h : Accounted recordings m) (name : String) (amount : Rat) (labels : Dict String)
    (helpText : String) :
    Accounted (recordings ++ [.counter name amount labels helpText]) (m.counter name amount labels helpText) := by
  have hamounts : ∀ name' key, amounts (recordings ++ [.counter name amount labels helpText]) name' key =
      if name = name' ∧ labelsKey labels = key then amounts recordings name' key ++ [amount]
      else amounts recordings name' key := by
    intro name' key
    rw [amounts, filterMap_concat, Recording.amount?, append_toList_ite]
    rfl
  have hlevels : ∀ name' key, levels (recordings ++ [.counter name amount labels helpText]) name' key =
      levels recordings name' key := by
    simp [levels, Recording.level?]
  have hobserved : ∀ name' key, observed (recordings ++ [.counter name amount labels helpText]) name' key =
      observed recordings name' key := by
    simp [observed, Recording.observed?]
  refine ⟨fun name' key => ?_, fun name' key => ?_, fun name' hist hget => ?_, fun name' key hget => ?_⟩
  · have hfresh := @getD_eq_bind _ _ m.counters (fun c => c.values.get? key) { name, helpText } rfl name
    simp only [MetricsCollector.counter, Dict.get?_set, hamounts]
    by_cases hname : name' = name
    · subst hname
      have hold := h.counters name' key
      rw [← hfresh] at hold
      simp only [if_pos, Option.bind_some, Counter.inc, Series.get?_set, true_and]
      by_cases hkey : key = labelsKey labels
      · rw [← hkey, if_pos rfl, if_pos rfl, hold, unlessEmpty_concat, List.sum_append, List.sum_singleton,
          unlessEmpty_getD fun hempty => by rw [hempty, List.sum_nil]]
      · rw [if_neg hkey, if_neg (Ne.symm hkey), hold]
    · rw [if_neg hname, if_neg fun hand => hname hand.1.symm]
      exact h.counters name' key
  · rw [hlevels]
    exact h.gauges name' key
  · rw [funext (hobserved name')]
    exact h.histograms name' hist hget
  · rw [hobserved]
    exact h.unobserved name' key hget

theorem accounted_gauge (h : Accounted recordings m) (name : String) (value : Rat) (labels : Dict String)
    (helpText : String) :
    Accounted (recordings ++ [.gauge name value labels helpText]) (m.gauge name value labels helpText) := by
  have hlevels : ∀ name' key, levels (recordings ++ [.gauge name value labels helpText]) name' key =
      if name = name' ∧ labelsKey labels = key then levels recordings name' key ++ [value]
      else levels recordings name' key := by
    intro name' key
    rw [levels, filterMap_concat, ← List.append_assoc, Recording.level?, append_toList_ite]
    rfl
  have hamounts : ∀ name' key, amounts (recordings ++ [.gauge name value labels helpText]) name' key =
      amounts recordings name' key := by
    simp [amounts, Recording.amount?]
  have hobserved : ∀ name' key, observed (recordings ++ [.gauge name value labels helpText]) name' key =
      observed recordings name' key := by
    simp [observed, Recording.observed?]
  refine ⟨fun name' key => ?_, fun name' key => ?_, fun name' hist hget => ?_, fun name' key hget => ?_⟩
  · rw [hamounts]
    exact h.counters name' key
  · have hfresh := @getD_eq_bind _ _ m.gauges (fun g => g.values.get? key) { name, helpText } rfl name
    simp only [MetricsCollector.gauge, Dict.get?_set, hlevels]
    by_cases hname : name' = name
    · subst hname
      have hold := h.gauges name' key
      rw [← hfresh] at hold
      simp only [if_pos, Option.bind_some, Gauge.set, Series.get?_set, true_and]
      by_cases hkey : key = labelsKey labels
      · rw [← hkey, if_pos rfl, if_pos rfl, List.getLast?_concat]
      · rw [if_neg hkey, if_neg (Ne.symm hkey), hold]
    · rw [if_neg hname, if_neg fun hand => hname hand.1.symm]
      exact h.gauges name' key
  · rw [funext (hobserved name')]
    exact h.histograms name' hist hget
  · rw [hobserved]
    exact h.unobserved name' key hget

theorem accounted_histogram (h : Accounted recordings m) (name : String) (value : Rat) (labels : Dict String)
    (helpText : String) (buckets : List Rat) :
    Accounted (recordings ++ [.histogram name value labels helpText buckets])
      (m.histogram name value labels helpText buckets) := by
  have hamounts : ∀ name' key, amounts (recordings ++ [.histogram name value labels helpText buckets]) name' key =
      amounts recordings name' key := by
    simp [amounts, Recording.amount?]
  have hlevels : ∀ name' key, levels (recordings ++ [.histogram name value labels helpText buckets]) name' key =
      levels recordings name' key := by
    simp [levels, Recording.level?]
  have hobserved : ∀ name' key, observed (recordings ++ [.histogram name value labels helpText buckets]) name' key =
      if name = name' ∧ labelsKey labels = key then observed recordings name' key ++ [value]
      else observed recordings name' key := by
    intro name' key
    rw [observed, filterMap_concat, Recording.observed?, append_toList_ite]
    rfl
  have hcounted : ((m.histograms.get? name).getD
      { name, helpText, buckets := if buckets = [] then defaultHistBuckets else buckets }).Counted
      (observed recordings name) := by
    cases hget : m.histograms.get? name with
    | some hist => exact h.histograms name hist hget
    | none =>
      rw [funext fun key => h.unobserved name key hget]
      exact counted_fresh name helpText _
  refine ⟨fun name' key => ?_, fun name' key => ?_, fun name' hist hget => ?_, fun name' key hget => ?_⟩
  · rw [hamounts]
    exact h.counters name' key
  · rw [hlevels]
    exact h.gauges name' key
  · simp only [MetricsCollector.histogram, Dict.get?_set] at hget
    split at hget
    · next hname =>
      subst hname
      cases hget
      have hstep := hcounted.observe value labels
      rw [funext (hobserved name')]
      simpa using hstep
    · next hname =>
      have hsame : observed (recordings ++ [.histogram name value labels helpText buckets]) name' =
          observed recordings name' := by
        funext key
        rw [hobserved, if_neg fun hand => hname hand.1.symm]
      rw [hsame]
      exact h.histograms name' hist hget
  · simp only [MetricsCollector.histogram, Dict.get?_set] at hget
    split at hget
    · cases hget
    · next hname =>
      rw [hobserved, if_neg fun hand => hname hand.1.symm]
      exact h.unobserved name' key hget

theorem accounted_record (h : Accounted recordings m) (r : Recording) : Accounted (recordings ++ [r]) (m.record r) := by
  cases r with
  | counter name amount labels helpText => exact accounted_counter h name amount labels helpText
  | gauge name value labels helpText => exact accounted_gauge h name value labels helpText
  | histogram name value labels helpText buckets => exact accounted_histogram h name value labels helpText buckets

end Steps

theorem accounted_new : Accounted [] .new := by
  refine ⟨fun name key => ?_, fun name key => ?_, fun name hist hget => ?_, fun name key _ => rfl⟩
  · cases hget : MetricsCollector.new.counters.get? name with
    | none => rfl
    | some c =>
      obtain ⟨other, -, heq⟩ := List.mem_map.mp (Dict.mem_of_get? hget)
      cases heq
      rfl
  · have hnew : MetricsCollector.new.gauges.get? name = if "occp_kill_switch_active" = name then
        some (({ name := "occp_kill_switch_active", helpText := sloHelp "occp_kill_switch_active" } : Gauge).set 0 [])
        else none := rfl
    have hvalues : (({ name := "occp_kill_switch_active", helpText := sloHelp "occp_kill_switch_active" } :
        Gauge).set 0 []).values.get? key = if [] = key then some 0 else none := by
      simp [Gauge.set, Series.set, Series.get?, labelsKey]
    rw [hnew, levels, List.filterMap_nil, List.append_nil]
    by_cases hname : "occp_kill_switch_active" = name
    · rw [if_pos hname, Option.bind_some, hvalues]
      by_cases hkey : [] = key
      · rw [if_pos hkey, if_pos ⟨hname.symm, hkey.symm⟩, List.getLast?_singleton]
      · rw [if_neg hkey, if_neg fun hand => hkey hand.2.symm, List.getLast?_nil]
    · rw [if_neg hname, if_neg fun hand => hname hand.1.symm, List.getLast?_nil]
      rfl
  · have hmem := List.mem_singleton.mp (Dict.mem_of_get? hget)
    cases hmem
    exact counted_fresh _ _ _

/-- After any recordings the collector holds just what was recorded. -/
theorem accounted_collect (recordings : List Recording) : Accounted recordings (collect recordings) := by
  induction recordings using List.reverseRecOn with
  | nil => exact accounted_new
  | append_singleton recordings r ih =>
    rw [collect_concat]
    exact accounted_record ih r

end Occp.Metrics
