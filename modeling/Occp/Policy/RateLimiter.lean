import Occp.Errors
import Occp.Text

/-!
# Rate throttling (`policy_engine/rate_limiter.py`)

Times are rational seconds. Nothing is assumed of `sqrt`, which is `math.sqrt`, and of `floatText`,
which is what Python writes for a float. A call that divides by zero raises.
-/

namespace Occp.Policy

structure RateLimiterConfig where
  windowSeconds : Rat := 60
  bucketSeconds : Rat := 5
  sigmaThreshold : Rat := 3
  minSamples : Int := 5
  hardLimit : Int := 100
  cooldownSeconds : Rat := 10

def RateLimiterConfig.validate (c : RateLimiterConfig) : Except PyError Unit :=
  if c.windowSeconds ≤ 0 then .error (.valueError "window_seconds must be positive")
  else if c.bucketSeconds ≤ 0 ∨ c.windowSeconds < c.bucketSeconds then
    .error (.valueError "bucket_seconds must be positive and <= window_seconds")
  else if c.sigmaThreshold ≤ 0 then .error (.valueError "sigma_threshold must be positive")
  else if c.hardLimit ≤ 0 then .error (.valueError "hard_limit must be positive")
  else .ok ()

inductive ThrottleReason where
  | none
  | statisticalAnomaly
  | hardLimit
  | cooldown
  deriving DecidableEq

structure ThrottleDecision where
  throttled : Bool
  reason : ThrottleReason := .none
  detail : String := ""
  currentRate : Rat := 0
  meanRate : Rat := 0
  stddev : Rat := 0
  windowCount : Nat := 0

/-! ## One tracker -/

/-- `_RateTracker`. The buckets are pairs of their time and their count, the oldest first. -/
structure RateTracker where
  buckets : List (Rat × Nat) := []
  currentBucketTime : Rat := 0
  currentBucketCount : Nat := 0
  throttledUntil : Rat := 0

namespace RateTracker

def modulo (x m : Rat) : Rat := x - m * ⌊x / m⌋

def bucketTime (c : RateLimiterConfig) (now : Rat) : Rat := now - modulo now c.bucketSeconds

def prune (c : RateLimiterConfig) (t : RateTracker) (now : Rat) : RateTracker :=
  let cutoff := now - c.windowSeconds
  { t with buckets := t.buckets.dropWhile fun b => b.1 < cutoff }

/-- The events in the buckets that start at this time or later. -/
def countFrom (t : RateTracker) (cutoff : Rat) : Nat :=
  (if cutoff ≤ t.currentBucketTime then t.currentBucketCount else 0) +
    ((t.buckets.filter fun b => cutoff ≤ b.1).map (·.2)).sum

def windowCount (c : RateLimiterConfig) (t : RateTracker) (now : Rat) : Nat := t.countFrom (now - c.windowSeconds)

def bucketRates (c : RateLimiterConfig) (t : RateTracker) : List Rat :=
  t.buckets.map fun b => b.2 / c.bucketSeconds

def record (c : RateLimiterConfig) (t : RateTracker) (now : Rat) : RateTracker :=
  let bucket := bucketTime c now
  let t :=
    if bucket = t.currentBucketTime then { t with currentBucketCount := t.currentBucketCount + 1 }
    else
      { t with
        buckets := if 0 < t.currentBucketCount then t.buckets ++ [(t.currentBucketTime, t.currentBucketCount)]
          else t.buckets
        currentBucketTime := bucket
        currentBucketCount := 1 }
  t.prune c now

/-- The end of `check`: the statistical test. -/
def checkAnomaly (floatText : Rat → String) (sqrt : Rat → Rat) (c : RateLimiterConfig) (t : RateTracker) (now : Rat) :
    Except PyError ThrottleDecision × RateTracker :=
  let windowCount := t.windowCount c now
  let rates := t.bucketRates c
  let currentRate : Rat := t.currentBucketCount / c.bucketSeconds
  if rates.length < c.minSamples then (.ok { throttled := false, windowCount, currentRate }, t)
  else if rates.length = 0 then (.error (.other "ZeroDivisionError" "division by zero"), t)
  else
    let mean : Rat := rates.sum / rates.length
    let variance : Rat := (rates.map fun r => (r - mean) ^ 2).sum / rates.length
    let stddev := sqrt variance
    let threshold := mean + c.sigmaThreshold * stddev
    if threshold < currentRate ∧ 0 < stddev then
      let rate := Text.fixed 1 currentRate
      let sigma := floatText c.sigmaThreshold
      let detail := s!"Rate {rate}/s exceeds {Text.fixed 1 mean} + {sigma}σ ({Text.fixed 1 stddev}) = {Text.fixed 1 threshold}/s"
      (.ok { throttled := true, reason := .statisticalAnomaly, detail, currentRate, meanRate := mean, stddev
             windowCount },
        { t with throttledUntil := now + c.cooldownSeconds })
    else (.ok { throttled := false, currentRate, meanRate := mean, stddev, windowCount }, t)

def check (floatText : Rat → String) (sqrt : Rat → Rat) (c : RateLimiterConfig) (t : RateTracker) (now : Rat) :
    Except PyError ThrottleDecision × RateTracker :=
  let t := t.prune c now
  let windowCount := t.windowCount c now
  if now < t.throttledUntil then
    let remaining := t.throttledUntil - now
    (.ok { throttled := true, reason := .cooldown, windowCount
           detail := s!"Cooldown active ({Text.fixed 1 remaining}s remaining)" }, t)
  else if c.hardLimit ≤ windowCount then
    (.ok { throttled := true, reason := .hardLimit, windowCount
           detail := s!"Hard limit reached: {windowCount}/{c.hardLimit}" },
      { t with throttledUntil := now + c.cooldownSeconds })
  else checkAnomaly floatText sqrt c t now

end RateTracker

/-! ## The limiter -/

structure AdaptiveRateLimiter where
  config : RateLimiterConfig := {}
  trackers : Dict RateTracker := []

namespace AdaptiveRateLimiter

def key (agentId toolName : String) : String := s!"{agentId}:{toolName}"

/-- A key that is new has a new tracker. -/
def tracker (l : AdaptiveRateLimiter) (key : String) : RateTracker := (l.trackers.get? key).getD {}

def record (l : AdaptiveRateLimiter) (agentId toolName : String) (now : Rat) : AdaptiveRateLimiter :=
  let key := key agentId toolName
  { l with trackers := l.trackers.set key ((l.tracker key).record l.config now) }

def check (floatText : Rat → String) (sqrt : Rat → Rat) (l : AdaptiveRateLimiter) (agentId toolName : String) (now : Rat) :
    Except PyError ThrottleDecision × AdaptiveRateLimiter :=
  let key := key agentId toolName
  let (decision, tracker) := (l.tracker key).check floatText sqrt l.config now
  (decision, { l with trackers := l.trackers.set key tracker })

end AdaptiveRateLimiter

end Occp.Policy
