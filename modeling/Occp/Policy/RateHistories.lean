import Mathlib.Data.List.Induction
import Mathlib.Data.Rat.Sqrt
import Occp.Policy.RateWindow

/-!
# Histories of one tracker

Only `record` starts a new bucket. A check counts the bucket of the last event as the current one,
also when that bucket is over.
-/

namespace Occp.Policy

/-! ## Calls -/

inductive RateCall where
  | record (now : Rat)
  | check (now : Rat)

def RateCall.time : RateCall → Rat
  | .record now => now
  | .check now => now

/-- A tracker and the times of the events it has recorded. -/
structure RateHistory where
  tracker : RateTracker := {}
  recorded : List Rat := []

namespace RateHistory

variable (floatText : Rat → String) (sqrt : Rat → Rat) (c : RateLimiterConfig)

def step (h : RateHistory) : RateCall → RateHistory
  | .record now => { tracker := h.tracker.record c now, recorded := h.recorded ++ [now] }
  | .check now => { h with tracker := (h.tracker.check floatText sqrt c now).2 }

def after (calls : List RateCall) : RateHistory := Lib.run (step floatText sqrt c) {} calls

end RateHistory

def InTimeOrder (calls : List RateCall) : Prop := (calls.map RateCall.time).Pairwise (· ≤ ·)

/-! ## Anomalies -/

namespace RateTracker

def mean (rates : List Rat) : Rat := rates.sum / rates.length

def variance (rates : List Rat) : Rat := (rates.map fun r => (r - mean rates) ^ 2).sum / rates.length

/-- A check now comes to the statistical test, and the count of the last bucket fails it. -/
structure Burst (sqrt : Rat → Rat) (c : RateLimiterConfig) (t : RateTracker) (now : Rat) : Prop where
  cooled : t.throttledUntil ≤ now
  below_limit : (t.windowCount c now : Int) < c.hardLimit
  samples : c.minSamples ≤ (t.bucketRates c).length ∧ (t.bucketRates c).length ≠ 0
  spread : 0 < sqrt (variance (t.bucketRates c))
  above : mean (t.bucketRates c) + c.sigmaThreshold * sqrt (variance (t.bucketRates c)) <
    t.currentBucketCount / c.bucketSeconds

variable (floatText : Rat → String) (sqrt : Rat → Rat) (c : RateLimiterConfig) (t : RateTracker) (now : Rat)

theorem check_anomaly_iff : (∃ d, (t.check floatText sqrt c now).1 = .ok d ∧ d.reason = .statisticalAnomaly) ↔
    (t.prune c now).Burst sqrt c now := by
  constructor
  · rintro ⟨d, hd, hreason⟩
    unfold check at hd
    dsimp only at hd
    split at hd
    · cases hd
      cases hreason
    · next hcooled =>
      split at hd
      · cases hd
        cases hreason
      · next hlimit =>
        unfold checkAnomaly at hd
        dsimp only at hd
        split at hd
        · cases hd
          cases hreason
        · next hsamples =>
          split at hd
          · cases hd
          · next hsome =>
            split at hd
            · next hexceeds =>
              exact ⟨not_lt.mp hcooled, not_le.mp hlimit, ⟨not_lt.mp hsamples, hsome⟩, hexceeds.2, hexceeds.1⟩
            · cases hd
              cases hreason
  · intro h
    unfold check
    dsimp only
    rw [if_neg (not_lt.mpr h.cooled), if_neg (not_le.mpr h.below_limit)]
    unfold checkAnomaly
    dsimp only
    rw [if_neg (not_lt.mpr h.samples.1), if_neg h.samples.2, if_pos ⟨h.above, h.spread⟩]
    exact ⟨_, rfl, rfl⟩

/-! ## Buckets -/

theorem bucketTime_eq : bucketTime c now = c.bucketSeconds * ⌊now / c.bucketSeconds⌋ := by
  unfold bucketTime modulo
  ring

variable {c} {t} {now}

theorem bucketTime_mono (hc : 0 < c.bucketSeconds) {now' : Rat} (h : now ≤ now') :
    bucketTime c now ≤ bucketTime c now' := by
  rw [bucketTime_eq, bucketTime_eq]
  have hfloor : ⌊now / c.bucketSeconds⌋ ≤ ⌊now' / c.bucketSeconds⌋ :=
    Int.floor_le_floor (div_le_div_of_nonneg_right h hc.le)
  exact mul_le_mul_of_nonneg_left (Int.cast_le.mpr hfloor) hc.le

theorem bucket_over (hc : 0 < c.bucketSeconds) {now' : Rat} (h : bucketTime c now < bucketTime c now') :
    bucketTime c now + c.bucketSeconds ≤ now' := by
  rw [bucketTime_eq, bucketTime_eq, mul_lt_mul_iff_right₀ hc, Int.cast_lt] at h
  have hnext : ((⌊now / c.bucketSeconds⌋ + 1 : Int) : Rat) ≤ now' / c.bucketSeconds :=
    (Int.cast_le.mpr (Int.add_one_le_of_lt h)).trans (Int.floor_le _)
  rw [le_div_iff₀ hc, Int.cast_add, Int.cast_one] at hnext
  rw [bucketTime_eq]
  linarith

theorem currentBucketTime_check : (t.check floatText sqrt c now).2.currentBucketTime = t.currentBucketTime := by
  unfold check checkAnomaly
  dsimp only
  split_ifs <;> rfl

theorem currentBucketCount_check : (t.check floatText sqrt c now).2.currentBucketCount = t.currentBucketCount := by
  unfold check checkAnomaly
  dsimp only
  split_ifs <;> rfl

theorem buckets_check : (t.check floatText sqrt c now).2.buckets = (t.prune c now).buckets := by
  unfold check checkAnomaly
  dsimp only
  split_ifs <;> rfl

end RateTracker

/-! ## What a tracker knows of its history -/

namespace RateHistory

open RateTracker (bucketTime bucketTime_mono)

variable (floatText : Rat → String) (sqrt : Rat → Rat) {c : RateLimiterConfig}

/-- The current bucket is that of the last event, and counts all the events in it. -/
structure Counts (c : RateLimiterConfig) (h : RateHistory) : Prop where
  count : h.tracker.currentBucketCount = h.recorded.countP fun e => bucketTime c e = h.tracker.currentBucketTime
  current : h.recorded ≠ [] → ∃ e ∈ h.recorded, bucketTime c e = h.tracker.currentBucketTime
  le_current : ∀ e ∈ h.recorded, bucketTime c e ≤ h.tracker.currentBucketTime
  no_buckets : h.recorded = [] → h.tracker.buckets = []

theorem Counts.check {h : RateHistory} (hcounts : Counts c h) (now : Rat) :
    Counts c (h.step floatText sqrt c (.check now)) := by
  obtain ⟨hcount, hcurrent, hle, hnone⟩ := hcounts
  unfold step
  constructor
  · rw [RateTracker.currentBucketTime_check, RateTracker.currentBucketCount_check]
    exact hcount
  · rw [RateTracker.currentBucketTime_check]
    exact hcurrent
  · rw [RateTracker.currentBucketTime_check]
    exact hle
  · intro hempty
    rw [RateTracker.buckets_check]
    unfold RateTracker.prune
    rw [hnone hempty]
    rfl

theorem Counts.record {h : RateHistory} (hc : 0 < c.bucketSeconds) (hcounts : Counts c h) {now : Rat}
    (hlater : ∀ e ∈ h.recorded, e ≤ now) : Counts c (h.step floatText sqrt c (.record now)) := by
  obtain ⟨hcount, hcurrent, hle, -⟩ := hcounts
  have hafter : ∀ e ∈ h.recorded, h.tracker.currentBucketTime ≤ bucketTime c now := by
    intro e he
    obtain ⟨last, hlast, hbucket⟩ := hcurrent (List.ne_nil_of_mem he)
    rw [← hbucket]
    exact bucketTime_mono hc (hlater last hlast)
  have hcurrent' : (h.tracker.record c now).currentBucketTime = bucketTime c now := by
    unfold RateTracker.record
    dsimp only
    by_cases hsame : bucketTime c now = h.tracker.currentBucketTime
    · rw [if_pos hsame]
      exact hsame.symm
    · rw [if_neg hsame]
      rfl
  have hcount' : (h.tracker.record c now).currentBucketCount =
      (h.recorded.countP fun e => bucketTime c e = bucketTime c now) + 1 := by
    unfold RateTracker.record
    dsimp only
    by_cases hsame : bucketTime c now = h.tracker.currentBucketTime
    · rw [if_pos hsame, hsame, ← hcount]
      rfl
    · have hzero : (h.recorded.countP fun e => bucketTime c e = bucketTime c now) = 0 := by
        rw [List.countP_eq_zero]
        intro e he
        rw [decide_eq_true_eq]
        intro hin
        exact hsame (le_antisymm (hin ▸ hle e he) (hafter e he))
      rw [if_neg hsame, hzero]
      rfl
  unfold step
  constructor
  · rw [hcurrent', hcount', List.countP_append, List.countP_singleton, if_pos (decide_eq_true rfl)]
  · rw [hcurrent']
    exact fun _ => ⟨now, by simp, rfl⟩
  · rw [hcurrent']
    intro e he
    rcases List.mem_append.mp he with he | he
    · exact bucketTime_mono hc (hlater e he)
    · rw [List.mem_singleton.mp he]
  · intro hempty
    simp at hempty

theorem after_concat (calls : List RateCall) (call : RateCall) :
    after floatText sqrt c (calls ++ [call]) = (after floatText sqrt c calls).step floatText sqrt c call :=
  Lib.run_append ..

theorem mem_of_recorded {calls : List RateCall} {e : Rat} (h : e ∈ (after floatText sqrt c calls).recorded) :
    e ∈ calls.map RateCall.time := by
  induction calls using List.reverseRecOn with
  | nil => cases h
  | append_singleton calls call ih =>
    rw [after_concat] at h
    rw [List.map_append, List.mem_append]
    cases call with
    | check now => exact .inl (ih h)
    | record now => exact (List.mem_append.mp h).imp_left ih

theorem counts_after (hc : 0 < c.bucketSeconds) {calls : List RateCall} (horder : InTimeOrder calls) :
    Counts c (after floatText sqrt c calls) := by
  induction calls using List.reverseRecOn with
  | nil => exact ⟨rfl, fun h => absurd rfl h, nofun, fun _ => rfl⟩
  | append_singleton calls call ih =>
    unfold InTimeOrder at horder
    rw [List.map_append, List.pairwise_append] at horder
    obtain ⟨hbefore, -, hlater⟩ := horder
    rw [after_concat]
    cases call with
    | check now => exact (ih hbefore).check floatText sqrt now
    | record now =>
      exact (ih hbefore).record floatText sqrt hc fun e he =>
        hlater e (mem_of_recorded floatText sqrt he) now (by simp [RateCall.time])

/-! ## Stale throttling -/

/-- If no event was recorded in the bucket that contains now, a check now finds no anomaly. -/
def NoStaleThrottling (c : RateLimiterConfig) (calls : List RateCall) (now : Rat) : Prop :=
  (∀ e ∈ (after floatText sqrt c calls).recorded, bucketTime c e ≠ bucketTime c now) →
    ∀ d, ((after floatText sqrt c calls).tracker.check floatText sqrt c now).1 = .ok d →
      d.reason ≠ .statisticalAnomaly

/-- A burst without an event in the bucket that contains now is that of an earlier bucket, which is over. -/
theorem burst_over (hc : 0 < c.bucketSeconds) {calls : List RateCall} {now : Rat}
    (horder : InTimeOrder (calls ++ [.check now]))
    (hburst : ((after floatText sqrt c calls).tracker.prune c now).Burst sqrt c now)
    (hstale : ∀ e ∈ (after floatText sqrt c calls).recorded, bucketTime c e ≠ bucketTime c now) :
    ∃ last ∈ (after floatText sqrt c calls).recorded, bucketTime c last + c.bucketSeconds ≤ now ∧
      (after floatText sqrt c calls).tracker.currentBucketCount =
        (after floatText sqrt c calls).recorded.countP fun e => bucketTime c e = bucketTime c last := by
  unfold InTimeOrder at horder
  rw [List.map_append, List.pairwise_append] at horder
  obtain ⟨hbefore, -, hlater⟩ := horder
  obtain ⟨hcount, hcurrent, -, hnone⟩ := counts_after floatText sqrt hc hbefore
  have hsome : (after floatText sqrt c calls).recorded ≠ [] := by
    intro hempty
    have hsamples := hburst.samples.2
    unfold RateTracker.bucketRates RateTracker.prune at hsamples
    rw [hnone hempty] at hsamples
    exact hsamples rfl
  obtain ⟨last, hlast, hbucket⟩ := hcurrent hsome
  have hle : last ≤ now := hlater last (mem_of_recorded floatText sqrt hlast) now (by simp [RateCall.time])
  refine ⟨last, hlast, RateTracker.bucket_over hc ?_, by rw [hbucket]; exact hcount⟩
  exact lt_of_le_of_ne (bucketTime_mono hc hle) (hstale last hlast)

def quick : RateLimiterConfig where
  bucketSeconds := 1
  minSamples := 2

def rising : List RateCall :=
  .record 0 :: (List.replicate 3 (RateCall.record 1) ++ List.replicate 6 (RateCall.record 2))

/-- What a call divides by, in turn. -/
def divisors (c : RateLimiterConfig) (t : RateTracker) : RateCall → List Rat
  | .record _ => [c.bucketSeconds]
  | .check now =>
    let t := t.prune c now
    if now < t.throttledUntil then []
    else if c.hardLimit ≤ t.windowCount c now then []
    else
      let rates := t.bucketRates c
      (rates.map fun _ => c.bucketSeconds) ++
        if rates.length < c.minSamples then [c.bucketSeconds]
        else [(rates.length : Rat), (rates.length : Rat), c.bucketSeconds]

/-- A check of the pruned tracker comes to the statistical test, and no sample is too few for it. -/
structure Unsampled (c : RateLimiterConfig) (t : RateTracker) (now : Rat) : Prop where
  cooled : t.throttledUntil ≤ now
  below_limit : (t.windowCount c now : Int) < c.hardLimit
  enough : c.minSamples ≤ (t.bucketRates c).length
  none : (t.bucketRates c).length = 0

theorem zero_mem_divisors_iff (hc : 0 < c.bucketSeconds) (t : RateTracker) (now : Rat) :
    0 ∈ divisors c t (.check now) ↔ Unsampled c (t.prune c now) now := by
  have hrates (rates : List Rat) : (0 : Rat) ∉ rates.map fun _ => c.bucketSeconds := by
    simp [hc.ne]
  unfold divisors
  dsimp only
  constructor
  · intro h
    split at h
    · cases h
    · next hcooled =>
      split at h
      · cases h
      · next hlimit =>
        have h := (List.mem_append.mp h).resolve_left (hrates _)
        split at h
        · simp [hc.ne] at h
        · next hsamples =>
          simp only [List.mem_cons, hc.ne, List.not_mem_nil, or_false, or_self] at h
          have hzero : ((t.prune c now).bucketRates c).length = 0 := Nat.cast_eq_zero.mp h.symm
          exact ⟨not_lt.mp hcooled, not_le.mp hlimit, not_lt.mp hsamples, hzero⟩
  · intro h
    rw [if_neg (not_lt.mpr h.cooled), if_neg (not_le.mpr h.below_limit), if_neg (not_lt.mpr h.enough), h.none]
    simp

/-- The zero that a check divides by is what the model raises for. -/
theorem check_raises_iff (hc : 0 < c.bucketSeconds) (t : RateTracker) (now : Rat) :
    (∃ err, (t.check floatText sqrt c now).1 = .error err) ↔ 0 ∈ divisors c t (.check now) := by
  rw [zero_mem_divisors_iff hc]
  constructor
  · rintro ⟨err, herr⟩
    unfold RateTracker.check at herr
    dsimp only at herr
    split at herr
    · cases herr
    · next hcooled =>
      split at herr
      · cases herr
      · next hlimit =>
        unfold RateTracker.checkAnomaly at herr
        dsimp only at herr
        split at herr
        · cases herr
        · next hsamples =>
          split at herr
          · next hzero =>
            exact ⟨not_lt.mp hcooled, not_le.mp hlimit, not_lt.mp hsamples, hzero⟩
          · split at herr <;> cases herr
  · intro h
    unfold RateTracker.check
    dsimp only
    rw [if_neg (not_lt.mpr h.cooled), if_neg (not_le.mpr h.below_limit)]
    unfold RateTracker.checkAnomaly
    dsimp only
    rw [if_neg (not_lt.mpr h.enough), if_pos h.none]
    exact ⟨_, rfl⟩

def NoZeroDivision (c : RateLimiterConfig) (calls : List RateCall) : Prop :=
  Lib.Admitted (step floatText sqrt c) (fun h call => 0 ∉ divisors c h.tracker call) {} calls

/-- **No call divides by zero, in any history, just when at least one sample is asked for.** -/
theorem noZeroDivision_iff {c : RateLimiterConfig} (h : c.validate = .ok ()) :
    (∀ calls, InTimeOrder calls → NoZeroDivision floatText sqrt c calls) ↔ 1 ≤ c.minSamples := by
  obtain ⟨hlimit, hc⟩ := hardLimit_pos h
  constructor
  · intro hall
    by_contra hfew
    obtain ⟨hfirst, -⟩ := hall [.check 0] (List.pairwise_singleton ..)
    refine hfirst ((zero_mem_divisors_iff hc _ _).mpr ⟨le_rfl, ?_, ?_, rfl⟩)
    · have hnone : (RateTracker.prune c {} 0).windowCount c 0 = 0 := by
        unfold RateTracker.windowCount RateTracker.countFrom RateTracker.prune
        simp
      rw [hnone]
      exact hlimit
    · change c.minSamples ≤ 0
      omega
  · intro hsamples calls _
    refine Lib.admitted_of_forall calls fun s call hzero => ?_
    cases call with
    | record now => exact hc.ne (List.mem_singleton.mp hzero)
    | check now =>
      obtain ⟨-, -, henough, hnone⟩ := (zero_mem_divisors_iff hc s.tracker now).mp hzero
      omega

theorem default_check_divides : NoZeroDivision (fun _ => "3.0") Rat.sqrt {} [.check 0, .record 1, .check 100] :=
  (noZeroDivision_iff _ _ (by decide +kernel)).mpr (by decide) _ (by unfold InTimeOrder; decide +kernel)

/-- A configuration with no samples is valid, and then the first check divides by zero. -/
theorem no_samples_divide_by_zero : ¬ ∀ (floatText : Rat → String) (sqrt : Rat → Rat) (c : RateLimiterConfig),
    c.validate = .ok () → ∀ calls, InTimeOrder calls → NoZeroDivision floatText sqrt c calls := by
  intro h
  have horder : InTimeOrder [.check 0] := List.pairwise_singleton ..
  obtain ⟨hfirst, -⟩ := h (fun _ => "3.0") Rat.sqrt { minSamples := 0 } (by decide +kernel) [.check 0] horder
  exact hfirst (by decide +kernel)

end RateHistory

end Occp.Policy
