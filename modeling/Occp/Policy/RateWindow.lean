import Mathlib.Tactic.Linarith
import Occp.Lib.Runs
import Occp.Policy.RateLimiter

/-!
# The hard limit

A tracker counts whole buckets. An event is no longer counted once its bucket starts before the
window, although the event itself may still lie in it.
-/

namespace Occp.Policy

/-! ## What a tracker counts -/

namespace RateTracker

variable {c : RateLimiterConfig} {t : RateTracker}

theorem filter_dropWhile {α : Type} {p q : α → Bool} (h : ∀ x, p x = true → q x = false) (xs : List α) :
    (xs.dropWhile p).filter q = xs.filter q := by
  induction xs with
  | nil => rfl
  | cons x xs ih =>
    cases hx : p x with
    | true => rw [List.dropWhile_cons_of_pos hx, ih, List.filter_cons_of_neg (by simp [h x hx])]
    | false => rw [List.dropWhile_cons_of_neg (by simp [hx])]

theorem countFrom_prune {now cutoff : Rat} (h : now - c.windowSeconds ≤ cutoff) :
    (t.prune c now).countFrom cutoff = t.countFrom cutoff := by
  unfold countFrom prune
  dsimp only
  rw [filter_dropWhile]
  intro b hb
  have hb : b.1 < now - c.windowSeconds := of_decide_eq_true hb
  exact decide_eq_false (by linarith)

theorem countFrom_record {now cutoff : Rat} (h : now - c.windowSeconds ≤ cutoff) :
    (t.record c now).countFrom cutoff = t.countFrom cutoff + if cutoff ≤ bucketTime c now then 1 else 0 := by
  unfold record
  dsimp only
  rw [countFrom_prune h]
  by_cases hsame : bucketTime c now = t.currentBucketTime
  · rw [if_pos hsame, hsame]
    unfold countFrom
    dsimp only
    split <;> omega
  · rw [if_neg hsame]
    unfold countFrom
    dsimp only
    by_cases hcount : 0 < t.currentBucketCount
    · rw [if_pos hcount, List.filter_append, List.map_append, List.sum_append]
      by_cases hcutoff : cutoff ≤ t.currentBucketTime
      · simp [hcutoff]
        omega
      · simp [hcutoff]
        omega
    · rw [if_neg hcount]
      have hzero : t.currentBucketCount = 0 := by omega
      simp [hzero]
      omega

/-- A check counts like the tracker that it has pruned. -/
theorem check_spec (floatText : Rat → String) (sqrt : Rat → Rat) (c : RateLimiterConfig) (t : RateTracker) (now : Rat) :
    (∀ cutoff, (t.check floatText sqrt c now).2.countFrom cutoff = (t.prune c now).countFrom cutoff) ∧
      ∀ d, (t.check floatText sqrt c now).1 = .ok d → d.throttled = false →
        ((t.prune c now).windowCount c now : Int) < c.hardLimit := by
  unfold check
  dsimp only
  split
  · refine ⟨fun _ => rfl, fun d hd hpass => ?_⟩
    cases hd
    cases hpass
  · split
    · refine ⟨fun _ => rfl, fun d hd hpass => ?_⟩
      cases hd
      cases hpass
    · next hlimit =>
      have hlimit := not_le.mp hlimit
      unfold checkAnomaly
      dsimp only
      split
      · exact ⟨fun _ => rfl, fun _ _ _ => hlimit⟩
      · split
        · exact ⟨fun _ => rfl, fun _ _ _ => hlimit⟩
        · split
          · exact ⟨fun _ => rfl, fun _ _ _ => hlimit⟩
          · exact ⟨fun _ => rfl, fun _ _ _ => hlimit⟩

/-- A bucket starts less than its length before its events. -/
theorem lt_bucketTime (hc : 0 < c.bucketSeconds) (now : Rat) : now - c.bucketSeconds < bucketTime c now := by
  unfold bucketTime modulo
  have hfloor : now / c.bucketSeconds < ⌊now / c.bucketSeconds⌋ + 1 := Int.lt_floor_add_one _
  have hmul := mul_lt_mul_of_pos_right hfloor hc
  rw [div_mul_cancel₀ _ hc.ne'] at hmul
  linarith

end RateTracker

/-! ## Traffic -/

structure RateRequest where
  agentId : String
  toolName : String
  time : Rat

/-- A limiter, everything it was asked, and what of that it let through. -/
structure Traffic where
  limiter : AdaptiveRateLimiter
  asked : List RateRequest := []
  admitted : List RateRequest := []

def RateRequest.key (r : RateRequest) : String := AdaptiveRateLimiter.key r.agentId r.toolName

def letsThrough : Except PyError ThrottleDecision → Bool
  | .ok d => !d.throttled
  | .error _ => false

variable (floatText : Rat → String) (sqrt : Rat → Rat)

def Traffic.step (s : Traffic) (r : RateRequest) : Traffic :=
  let (decision, limiter) := s.limiter.check floatText sqrt r.agentId r.toolName r.time
  let asked := s.asked ++ [r]
  if letsThrough decision then
    { limiter := limiter.record r.agentId r.toolName r.time, asked, admitted := s.admitted ++ [r] }
  else { limiter, asked, admitted := s.admitted }

def Traffic.start (c : RateLimiterConfig) : Traffic := { limiter := { config := c } }

/-- What was admitted for the key less than `span` ago is still counted. -/
def Counted (span : Rat) (s : Traffic) (r : RateRequest) : Prop :=
  ∀ e ∈ s.admitted, e.key = r.key → r.time - span ≤ e.time →
    r.time - s.limiter.config.windowSeconds ≤ RateTracker.bucketTime s.limiter.config e.time

def InOrder (s : Traffic) (r : RateRequest) : Prop := ∀ e ∈ s.asked, e.key = r.key → e.time ≤ r.time

/-- Each tracker counts what was admitted for its key, by buckets that no prune has reached. -/
def Tracks (s : Traffic) : Prop :=
  ∀ key cutoff, (∀ r ∈ s.asked, r.key = key → r.time - s.limiter.config.windowSeconds ≤ cutoff) →
    (s.limiter.tracker key).countFrom cutoff =
      s.admitted.countP fun r => r.key = key ∧ cutoff ≤ RateTracker.bucketTime s.limiter.config r.time

/-- At most the limit in every interval of this length. -/
def Limited (span : Rat) (s : Traffic) : Prop :=
  ∀ key start, (s.admitted.countP fun r => r.key = key ∧ start ≤ r.time ∧ r.time ≤ start + span : Int) ≤
    s.limiter.config.hardLimit

instance (span : Rat) (s : Traffic) (r : RateRequest) : Decidable (Counted span s r) :=
  inferInstanceAs (Decidable (∀ e ∈ s.admitted, e.key = r.key → r.time - span ≤ e.time →
    r.time - s.limiter.config.windowSeconds ≤ RateTracker.bucketTime s.limiter.config e.time))

variable {floatText sqrt} {s : Traffic} {r : RateRequest}

@[simp] theorem config_step : (s.step floatText sqrt r).limiter.config = s.limiter.config := by
  unfold Traffic.step
  dsimp only
  split <;> rfl

@[simp] theorem asked_step : (s.step floatText sqrt r).asked = s.asked ++ [r] := by
  unfold Traffic.step
  dsimp only
  split <;> rfl

theorem asked_run (requests : List RateRequest) :
    (Lib.run (Traffic.step floatText sqrt) s requests).asked = s.asked ++ requests := by
  induction requests generalizing s with
  | nil => simp
  | cons r requests ih => rw [Lib.run_cons, ih, asked_step, List.append_assoc, List.singleton_append]

/-! ## One request -/

theorem tracker_record (l : AdaptiveRateLimiter) (agentId toolName : String) (now : Rat) (key : String) :
    (l.record agentId toolName now).tracker key =
      if key = AdaptiveRateLimiter.key agentId toolName then (l.tracker key).record l.config now else l.tracker key := by
  unfold AdaptiveRateLimiter.record AdaptiveRateLimiter.tracker
  dsimp only
  rw [Dict.get?_set]
  split
  · next h => rw [h, Option.getD_some]
  · rfl

theorem tracker_check (l : AdaptiveRateLimiter) (agentId toolName : String) (now : Rat) (key : String) :
    (l.check floatText sqrt agentId toolName now).2.tracker key =
      if key = AdaptiveRateLimiter.key agentId toolName then ((l.tracker key).check floatText sqrt l.config now).2
      else l.tracker key := by
  unfold AdaptiveRateLimiter.check AdaptiveRateLimiter.tracker
  dsimp only
  rw [Dict.get?_set]
  split
  · next h => rw [h, Option.getD_some]
  · rfl

def passes (floatText : Rat → String) (sqrt : Rat → Rat) (s : Traffic) (r : RateRequest) : Bool :=
  letsThrough ((s.limiter.tracker r.key).check floatText sqrt s.limiter.config r.time).1

theorem step_of_passes (h : passes floatText sqrt s r = true) :
    s.step floatText sqrt r =
      { limiter := (s.limiter.check floatText sqrt r.agentId r.toolName r.time).2.record r.agentId r.toolName r.time
        asked := s.asked ++ [r], admitted := s.admitted ++ [r] } :=
  if_pos h

theorem step_of_not_passes (h : ¬ passes floatText sqrt s r = true) :
    s.step floatText sqrt r =
      { limiter := (s.limiter.check floatText sqrt r.agentId r.toolName r.time).2
        asked := s.asked ++ [r], admitted := s.admitted } :=
  if_neg h

theorem windowCount_lt_of_passes (h : passes floatText sqrt s r = true) :
    ((s.limiter.tracker r.key).windowCount s.limiter.config r.time : Int) < s.limiter.config.hardLimit := by
  obtain ⟨-, hlimit⟩ := RateTracker.check_spec floatText sqrt s.limiter.config (s.limiter.tracker r.key) r.time
  unfold passes at h
  cases hd : ((s.limiter.tracker r.key).check floatText sqrt s.limiter.config r.time).1 with
  | error e =>
    rw [hd] at h
    cases h
  | ok d =>
    rw [hd] at h
    have hroom := hlimit d hd (by simpa [letsThrough] using h)
    unfold RateTracker.windowCount at hroom ⊢
    rwa [RateTracker.countFrom_prune le_rfl] at hroom

/-- A request is counted with its bucket when it passes, and nothing else changes. -/
theorem countFrom_step {key : String} {cutoff : Rat}
    (h : key = r.key → r.time - s.limiter.config.windowSeconds ≤ cutoff) :
    ((s.step floatText sqrt r).limiter.tracker key).countFrom cutoff = (s.limiter.tracker key).countFrom cutoff +
      if passes floatText sqrt s r = true ∧ key = r.key ∧ cutoff ≤ RateTracker.bucketTime s.limiter.config r.time then 1 else 0 := by
  have hcheck (hkey : key = r.key) :
      ((s.limiter.check floatText sqrt r.agentId r.toolName r.time).2.tracker key).countFrom cutoff =
        (s.limiter.tracker key).countFrom cutoff := by
    have hkey' : key = AdaptiveRateLimiter.key r.agentId r.toolName := hkey
    rw [tracker_check, if_pos hkey', (RateTracker.check_spec ..).1, RateTracker.countFrom_prune (h hkey)]
  by_cases hkey : key = r.key
  · by_cases hpass : passes floatText sqrt s r = true
    · have hconfig : (s.limiter.check floatText sqrt r.agentId r.toolName r.time).2.config = s.limiter.config := rfl
      have hkey' : key = AdaptiveRateLimiter.key r.agentId r.toolName := hkey
      rw [step_of_passes hpass, tracker_record, if_pos hkey',
        RateTracker.countFrom_record (by rw [hconfig]; exact h hkey), hcheck hkey, hconfig]
      simp only [hpass, hkey, true_and]
    · rw [step_of_not_passes hpass, hcheck hkey, if_neg fun hall => hpass hall.1]
      rfl
  · have hkey' : ¬ key = AdaptiveRateLimiter.key r.agentId r.toolName := hkey
    rw [if_neg fun hall => hkey hall.2.1]
    by_cases hpass : passes floatText sqrt s r = true
    · rw [step_of_passes hpass, tracker_record, if_neg hkey', tracker_check, if_neg hkey']
      rfl
    · rw [step_of_not_passes hpass, tracker_check, if_neg hkey']
      rfl

theorem tracks_start (c : RateLimiterConfig) : Tracks (Traffic.start c) := by
  intro key cutoff _
  have hnew : (Traffic.start c).limiter.tracker key = {} := rfl
  rw [hnew, RateTracker.countFrom]
  split <;> rfl

theorem tracks_step (h : Tracks s) : Tracks (s.step floatText sqrt r) := by
  intro key cutoff hasked
  rw [config_step, asked_step] at hasked
  rw [config_step, countFrom_step fun hkey => hasked r (by simp) hkey.symm,
    h key cutoff fun e he hkey => hasked e (List.mem_append_left _ he) hkey]
  by_cases hpass : passes floatText sqrt s r = true
  · rw [step_of_passes hpass, List.countP_append, List.countP_singleton]
    simp only [hpass, true_and, decide_eq_true_eq, eq_comm (a := key)]
  · rw [step_of_not_passes hpass, if_neg fun hall => hpass hall.1, Nat.add_zero]

/-- A request that passes finds fewer than the limit in the interval that ends with it. -/
theorem limited_step {span : Rat} (htracks : Tracks s) (hlimited : Limited span s) (horder : InOrder s r)
    (hcounted : Counted span s r) : Limited span (s.step floatText sqrt r) := by
  intro key start
  rw [config_step]
  by_cases hpass : passes floatText sqrt s r = true
  · rw [step_of_passes hpass, List.countP_append, List.countP_singleton]
    split
    · next hin =>
      obtain ⟨hkey, hstart, hend⟩ := of_decide_eq_true hin
      have hroom := windowCount_lt_of_passes hpass
      rw [RateTracker.windowCount, htracks r.key _ fun e he hkey => sub_le_sub_right (horder e he hkey) _] at hroom
      have hle : (s.admitted.countP fun e => e.key = key ∧ start ≤ e.time ∧ e.time ≤ start + span) ≤
          s.admitted.countP fun e => e.key = r.key ∧
            r.time - s.limiter.config.windowSeconds ≤ RateTracker.bucketTime s.limiter.config e.time := by
        refine List.countP_mono_left fun e he hein => ?_
        obtain ⟨hekey, hestart, -⟩ := of_decide_eq_true hein
        have hsame : e.key = r.key := hekey.trans hkey.symm
        exact decide_eq_true ⟨hsame, hcounted e he hsame (by linarith)⟩
      push_cast
      omega
    · simpa using hlimited key start
  · rw [step_of_not_passes hpass]
    exact hlimited key start

/-! ## Every run -/

def Chronological (requests : List RateRequest) : Prop :=
  requests.Pairwise fun r r' => r.key = r'.key → r.time ≤ r'.time

instance (requests : List RateRequest) : Decidable (Chronological requests) :=
  inferInstanceAs (Decidable (requests.Pairwise fun r r' => r.key = r'.key → r.time ≤ r'.time))

variable {c : RateLimiterConfig} {requests : List RateRequest}

theorem inOrder_of_chronological (h : Chronological requests) :
    Lib.Admitted (Traffic.step floatText sqrt) InOrder (Traffic.start c) requests := by
  refine Lib.admitted_iff_forall.mpr fun before r after hsplit e he hkey => ?_
  rw [asked_run] at he
  have he : e ∈ before := by simpa [Traffic.start] using he
  rw [hsplit] at h
  exact (List.pairwise_append.mp h).2.2 e he r List.mem_cons_self hkey

theorem hardLimit_pos (h : c.validate = .ok ()) : 0 < c.hardLimit ∧ 0 < c.bucketSeconds := by
  unfold RateLimiterConfig.validate at h
  split at h
  · cases h
  · split at h
    · cases h
    · next hbucket =>
      split at h
      · cases h
      · split at h
        · cases h
        · next hlimit => exact ⟨not_le.mp hlimit, not_le.mp fun hle => hbucket (.inl hle)⟩

theorem limited_run {span : Rat} (hc : c.validate = .ok ()) (horder : Chronological requests)
    (hcounted : Lib.Admitted (Traffic.step floatText sqrt) (Counted span) (Traffic.start c) requests) :
    Limited span (Lib.run (Traffic.step floatText sqrt) (Traffic.start c) requests) := by
  have hboth := hcounted.and (inOrder_of_chronological horder)
  refine (hboth.invariant (fun s => Tracks s ∧ Limited span s) ⟨tracks_start c, ?_⟩ ?_).2
  · intro key start
    exact (hardLimit_pos hc).1.le
  · rintro s r ⟨htracks, hlimited⟩ ⟨hcounted, horder⟩
    exact ⟨tracks_step htracks, limited_step htracks hlimited horder hcounted⟩

theorem config_run (requests : List RateRequest) :
    (Lib.run (Traffic.step floatText sqrt) s requests).limiter.config = s.limiter.config := by
  induction requests generalizing s with
  | nil => rfl
  | cons r requests ih => rw [Lib.run_cons, ih, config_step]

/-- **At most `hard_limit` requests are admitted in every interval of the window's length, where every admitted
request that is still in the window is also still counted.** -/
theorem hard_limit_kept (floatText : Rat → String) (sqrt : Rat → Rat) (hc : c.validate = .ok ()) (horder : Chronological requests)
    (hcounted : Lib.Admitted (Traffic.step floatText sqrt) (Counted c.windowSeconds) (Traffic.start c) requests) :
    Limited c.windowSeconds (Lib.run (Traffic.step floatText sqrt) (Traffic.start c) requests) :=
  limited_run hc horder hcounted

/-- Twice two requests within a minute, where two are allowed: the first two are in a bucket that starts too early. -/
def burst : List RateRequest := [⟨"a", "t", 4⟩, ⟨"a", "t", 4⟩, ⟨"a", "t", 61⟩, ⟨"a", "t", 61⟩]

theorem burst_exceeds_limit :
    ¬ ∀ (floatText : Rat → String) (c : RateLimiterConfig) (requests : List RateRequest), c.validate = .ok () →
      Chronological requests → Limited c.windowSeconds (Lib.run (Traffic.step floatText id) (Traffic.start c) requests) := by
  intro h
  have hlimited := h (fun _ => "") { hardLimit := 2 } burst (by decide +kernel) (by decide +kernel) "a:t" 4
  revert hlimited
  decide +kernel

/-- Two requests a minute apart are in the window together, and both are counted. -/
theorem steady_within_limit :
    Limited 60 (Lib.run (Traffic.step (fun _ => "") id) (Traffic.start { hardLimit := 2 })
      [⟨"a", "t", 5⟩, ⟨"a", "t", 65⟩, ⟨"a", "t", 66⟩]) :=
  hard_limit_kept (fun _ => "") id (c := { hardLimit := 2 }) (by decide +kernel) (by decide +kernel)
    (by decide +kernel)

/-- In an interval that is shorter by one bucket, the limit is kept in any case. -/
theorem hard_limit_kept_shorter (hc : c.validate = .ok ()) (horder : Chronological requests) :
    Limited (c.windowSeconds - c.bucketSeconds) (Lib.run (Traffic.step floatText sqrt) (Traffic.start c) requests) := by
  refine limited_run hc horder (Lib.admitted_iff_forall.mpr fun before r after _ e _ _ hrecent => ?_)
  rw [config_run]
  have hbucket := RateTracker.lt_bucketTime (hardLimit_pos hc).2 e.time
  have hconfig : (Traffic.start c).limiter.config = c := rfl
  rw [hconfig]
  linarith

end Occp.Policy
