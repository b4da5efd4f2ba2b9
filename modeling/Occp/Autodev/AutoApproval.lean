import Mathlib.Tactic.Linarith
import Occp.Autodev.Orchestrator
import Occp.Evaluation.Spelling

/-!
# What is approved without a human

A change is merged or approved automatically when its score is below two. Every tier that
is not autonomous-safe weighs at least two, except that a single unknown path weighs one.
-/

namespace Occp.Autodev

open Evaluation (Boundaries ModificationVerdict Tier verdict_allowed_iff)
open Evaluation.SelfModifier (verdict)

/-! ## Verdicts by path -/

namespace ResidualRiskCalculator

theorem get?_checkMany (b : Boundaries) (paths : List String) (p : String) :
    (checkMany b paths).get? p = if p ∈ paths then some (verdict b p) else none := by
  have hfold (d : Dict ModificationVerdict) :
      (paths.foldl (fun verdicts p => verdicts.set p (verdict b p)) d).get? p =
        if p ∈ paths then some (verdict b p) else d.get? p := by
    induction paths generalizing d with
    | nil => simp
    | cons q paths ih =>
      rw [List.foldl_cons, ih, Dict.get?_set]
      by_cases hp : p ∈ paths
      · simp [hp]
      · by_cases hq : p = q <;> simp [hp, hq]
  exact hfold []

theorem keys_nodup_checkMany (b : Boundaries) (paths : List String) : (checkMany b paths).keys.Nodup := by
  have hfold (d : Dict ModificationVerdict) (hd : d.keys.Nodup) :
      (paths.foldl (fun verdicts p => verdicts.set p (verdict b p)) d).keys.Nodup := by
    induction paths generalizing d with
    | nil => exact hd
    | cons p paths ih => exact ih _ (Dict.nodup_keys_set d p _ hd)
  exact hfold [] List.nodup_nil

variable {b : Boundaries} {paths : List String}

theorem mem_pathsOf {tier : Tier} {p : String} :
    p ∈ pathsOf tier (checkMany b paths) ↔ p ∈ paths ∧ (verdict b p).tier = tier := by
  simp only [pathsOf, Dict.keys, List.mem_map, List.mem_filter, Prod.exists, exists_and_right, exists_eq_right,
    Dict.mem_iff_get? _ (keys_nodup_checkMany b paths), get?_checkMany, decide_eq_true_eq]
  constructor
  · rintro ⟨v, hv, htier⟩
    split at hv
    · next hp => exact ⟨hp, Option.some.inj hv ▸ htier⟩
    · cases hv
  · rintro ⟨hp, htier⟩
    exact ⟨_, if_pos hp, htier⟩

theorem nodup_pathsOf (tier : Tier) : (pathsOf tier (checkMany b paths)).Nodup := by
  have hsub : List.Sublist (pathsOf tier (checkMany b paths)) (checkMany b paths).keys :=
    List.filter_sublist.map _
  exact hsub.nodup (keys_nodup_checkMany b paths)

theorem pathsOf_eq_nil_iff {tier : Tier} :
    pathsOf tier (checkMany b paths) = [] ↔ ∀ p ∈ paths, (verdict b p).tier ≠ tier := by
  rw [List.eq_nil_iff_forall_not_mem]
  refine forall_congr' fun p => ?_
  rw [mem_pathsOf, not_and]

/-! ## The score -/

def sensitive (p : String) : Bool := sensitivePathSubstrings.any fun sub => isSubstring sub.toList p.toList

theorem sum_factors (c : ResidualRiskCalculator) (r : VerificationReport) (paths : List String) (n : Nat) :
    ((c.factors r paths n).map (·.weight)).sum =
      (if r.passed then 0 else 10) +
      (if pathsOf .immutable (checkMany c.modifier paths) = [] then 0 else 10) +
      (if pathsOf .humanReviewRequired (checkMany c.modifier paths) = [] then 0 else 2) +
      ((pathsOf .unknown (checkMany c.modifier paths)).length : Rat) +
      (if n ≤ 200 then 0 else 2) + (if paths.length ≤ 5 then 0 else 3 / 2) +
      (if paths.filter sensitive = [] then 0 else 3) := by
  have hweight (p : Prop) [Decidable p] (f : RiskFactor) :
      ((if p then [] else [f]).map (·.weight)).sum = if p then 0 else f.weight := by
    split <;> simp
  have hunknown : (if pathsOf .unknown (checkMany c.modifier paths) = [] then (0 : Rat) else
      ((pathsOf .unknown (checkMany c.modifier paths)).length : Rat)) =
      ((pathsOf .unknown (checkMany c.modifier paths)).length : Rat) := by
    split
    · next h => rw [h, List.length_nil, Nat.cast_zero]
    · rfl
  unfold factors
  dsimp only
  simp only [List.map_append, List.sum_append, hweight, List.length_eq_zero_iff]
  rw [hunknown]
  rfl

theorem weight_nonneg (p : Prop) [Decidable p] {w : Rat} (hw : 0 ≤ w) : 0 ≤ if p then 0 else w := by
  split
  · exact le_refl 0
  · exact hw

theorem of_weight_lt {p : Prop} [Decidable p] {w : Rat} (hw : 2 ≤ w) (h : (if p then 0 else w) < 2) : p := by
  by_contra hp
  rw [if_neg hp] at h
  linarith

theorem autoMerge_iff (c : ResidualRiskCalculator) (r : VerificationReport) (paths : List String) (n : Nat) :
    (c.assess r paths n).recommendation = .autoMerge ↔ ((c.factors r paths n).map (·.weight)).sum < 2 := by
  unfold assess
  dsimp only
  generalize ((c.factors r paths n).map (·.weight)).sum = score
  have hclamp : max 0 (min 10 score) < 2 ↔ score < 2 := by
    simp only [max_lt_iff, min_lt_iff]
    norm_num
  rw [← hclamp]
  generalize max 0 (min 10 score) = clamped
  split
  · next h => simp only [reduceCtorEq, false_iff, not_lt]; linarith
  · split
    · next h => simp only [reduceCtorEq, false_iff, not_lt]; linarith
    · split
      · next h => simpa using h
      · next h => simpa using h

theorem low_iff (c : ResidualRiskCalculator) (r : VerificationReport) (paths : List String) (n : Nat) :
    (c.assess r paths n).riskLevel = .low ↔ (c.assess r paths n).recommendation = .autoMerge := by
  unfold assess
  dsimp only
  split
  · simp
  · split
    · simp
    · split <;> simp

/-- A verified small change of insensitive paths, of which exactly one is in no tier and the others are safe. -/
structure LoneUnknown (b : Boundaries) (r : VerificationReport) (paths : List String) (n : Nat) : Prop where
  passed : r.passed = true
  lone : ∃ p ∈ paths, (verdict b p).tier = .unknown ∧ ∀ q ∈ paths, q ≠ p → (verdict b q).allowed = true
  smallDiff : n ≤ 200
  fewPaths : paths.length ≤ 5
  insensitive : ∀ p ∈ paths, sensitive p = false

theorem allowed_of_tiers {p : String} (himm : (verdict b p).tier ≠ .immutable)
    (hreview : (verdict b p).tier ≠ .humanReviewRequired) (hunknown : (verdict b p).tier ≠ .unknown) :
    (verdict b p).allowed = true := by
  rw [verdict_allowed_iff]
  cases ht : (verdict b p).tier with
  | autonomousSafe => rfl
  | immutable => exact absurd ht himm
  | humanReviewRequired => exact absurd ht hreview
  | unknown => exact absurd ht hunknown

/-- A single unknown path weighs one, and nothing else weighs anything. -/
theorem LoneUnknown.autoMerge {c : ResidualRiskCalculator} {r : VerificationReport} {paths : List String} {n : Nat}
    (h : LoneUnknown c.modifier r paths n) : (c.assess r paths n).recommendation = .autoMerge := by
  obtain ⟨p, hp, hunknown, hothers⟩ := h.lone
  have htier (q : String) (hq : q ∈ paths) :
      (verdict c.modifier q).tier = .unknown ∧ q = p ∨ (verdict c.modifier q).tier = .autonomousSafe := by
    by_cases hqp : q = p
    · exact .inl ⟨hqp ▸ hunknown, hqp⟩
    · exact .inr ((verdict_allowed_iff q).mp (hothers q hq hqp))
  have hnone (tier : Tier) (h₁ : tier ≠ .unknown) (h₂ : tier ≠ .autonomousSafe) :
      pathsOf tier (checkMany c.modifier paths) = [] := by
    refine pathsOf_eq_nil_iff.mpr fun q hq ht => ?_
    rcases htier q hq with ⟨hq', -⟩ | hq'
    · exact h₁ (ht.symm.trans hq')
    · exact h₂ (ht.symm.trans hq')
  have hone : (pathsOf .unknown (checkMany c.modifier paths)).length ≤ 1 := by
    have hsub : pathsOf .unknown (checkMany c.modifier paths) ⊆ [p] := by
      intro q hq
      obtain ⟨hq, hqu⟩ := mem_pathsOf.mp hq
      rcases htier q hq with ⟨-, rfl⟩ | hsafe
      · exact List.mem_singleton_self q
      · rw [hqu] at hsafe
        cases hsafe
    exact (List.subperm_of_subset (nodup_pathsOf .unknown) hsub).length_le
  have hweight : ((pathsOf .unknown (checkMany c.modifier paths)).length : Rat) ≤ 1 := by exact_mod_cast hone
  have hsensitive : paths.filter sensitive = [] := by
    refine List.filter_eq_nil_iff.mpr fun q hq => ?_
    rw [h.insensitive q hq]
    decide
  rw [autoMerge_iff, sum_factors, if_pos h.passed, if_pos (hnone .immutable (by decide) (by decide)),
    if_pos (hnone .humanReviewRequired (by decide) (by decide)), if_pos h.smallDiff, if_pos h.fewPaths,
    if_pos hsensitive]
  linarith

/-- What is recommended for an automatic merge is allowed throughout, unless it is one unknown path. -/
theorem allowed_of_autoMerge {c : ResidualRiskCalculator} {r : VerificationReport} {paths : List String} {n : Nat}
    (h : (c.assess r paths n).recommendation = .autoMerge) (hlone : ¬ LoneUnknown c.modifier r paths n) :
    ∀ p ∈ paths, (verdict c.modifier p).allowed = true := by
  rw [autoMerge_iff, sum_factors] at h
  have hpassed := weight_nonneg (r.passed = true) (w := 10) (by norm_num)
  have himmutable := weight_nonneg (pathsOf .immutable (checkMany c.modifier paths) = []) (w := 10) (by norm_num)
  have hreview := weight_nonneg (pathsOf .humanReviewRequired (checkMany c.modifier paths) = []) (w := 2) (by norm_num)
  have hunknown : (0 : Rat) ≤ (pathsOf .unknown (checkMany c.modifier paths)).length := Nat.cast_nonneg _
  have hdiff := weight_nonneg (n ≤ 200) (w := 2) (by norm_num)
  have hfew := weight_nonneg (paths.length ≤ 5) (w := 3 / 2) (by norm_num)
  have hsensitive := weight_nonneg (paths.filter sensitive = []) (w := 3) (by norm_num)
  -- A factor of weight two or more is not among those of a sum below two.
  have hpassed' : r.passed = true := of_weight_lt (w := 10) (by norm_num) (by linarith)
  have himmutable' : pathsOf .immutable (checkMany c.modifier paths) = [] :=
    of_weight_lt (w := 10) (by norm_num) (by linarith)
  have hreview' : pathsOf .humanReviewRequired (checkMany c.modifier paths) = [] :=
    of_weight_lt (w := 2) (by norm_num) (by linarith)
  have hdiff' : n ≤ 200 := of_weight_lt (w := 2) (by norm_num) (by linarith)
  have hsensitive' : paths.filter sensitive = [] := of_weight_lt (w := 3) (by norm_num) (by linarith)
  intro p hp
  refine allowed_of_tiers (pathsOf_eq_nil_iff.mp himmutable' p hp) (pathsOf_eq_nil_iff.mp hreview' p hp) fun hpu => ?_
  have hmem : p ∈ pathsOf .unknown (checkMany c.modifier paths) := mem_pathsOf.mpr ⟨hp, hpu⟩
  have hsingle : pathsOf .unknown (checkMany c.modifier paths) = [p] := by
    have hlt : ((pathsOf .unknown (checkMany c.modifier paths)).length : Rat) < 2 := by linarith
    have hlt : (pathsOf .unknown (checkMany c.modifier paths)).length < 2 := by exact_mod_cast hlt
    have hpos := List.length_pos_of_mem hmem
    have hlen : (pathsOf .unknown (checkMany c.modifier paths)).length = 1 := by omega
    obtain ⟨q, hq⟩ := List.length_eq_one_iff.mp hlen
    rw [hq, List.mem_singleton] at hmem
    rw [hq, hmem]
  refine hlone ⟨hpassed', ⟨p, hp, hpu, fun q hq hne => ?_⟩, hdiff', ?_, fun q hq => ?_⟩
  · refine allowed_of_tiers (pathsOf_eq_nil_iff.mp himmutable' q hq) (pathsOf_eq_nil_iff.mp hreview' q hq) fun hqu => ?_
    have hq : q ∈ pathsOf .unknown (checkMany c.modifier paths) := mem_pathsOf.mpr ⟨hq, hqu⟩
    rw [hsingle, List.mem_singleton] at hq
    exact hne hq
  · by_contra hlen
    rw [if_neg hlen, hsingle, List.length_singleton, Nat.cast_one] at h
    linarith
  · exact Bool.eq_false_iff.mpr (List.filter_eq_nil_iff.mp hsensitive' q hq)

end ResidualRiskCalculator

/-! ## The orchestrator -/

open ResidualRiskCalculator

variable {File : Type}

/-- What the orchestrator asks the calculator about a run. -/
def assessment (c : Config File) (run : AutoDevRun) (report : VerificationReport) : RiskAssessment :=
  c.risk.assess report run.filesModified (run.proposedDiff.toList.count '\n')

/-- The merge is recommended, or a request of the run is put into the queue as auto-approved. -/
def WavedThrough (c : Config File) (m : Moment) (o : AutoDevOrchestrator File) (run : AutoDevRun)
    (report : VerificationReport) : Prop :=
  (assessment c run report).recommendation = .autoMerge ∨
    ∃ id req, (AutoDevOrchestrator.decide c m o run report).2.approvals.requests.get? id = some req ∧
      o.approvals.requests.get? id ≠ some req ∧ req.state = .autoApproved

/-- What the approval step does to the queue. -/
theorem submitForApproval_queue (m : Moment) (o : AutoDevOrchestrator File) (run : AutoDevRun) (a : RiskAssessment) :
    (AutoDevOrchestrator.submitForApproval m o run a).2.approvals.requests = o.approvals.requests ∨
      ∃ req, (AutoDevOrchestrator.submitForApproval m o run a).2.approvals.requests =
          o.approvals.requests.set s!"appr-{run.runId}" req ∧
        req.affectedPaths = run.filesModified ∧ (req.state = .autoApproved ↔ a.riskLevel = .low) := by
  unfold AutoDevOrchestrator.submitForApproval
  dsimp only
  split
  · exact .inl rfl
  · next req approvals hsubmit =>
    obtain ⟨-, hset, -, -, hpaths, hstate⟩ := ApprovalQueue.submit_spec hsubmit
    refine .inr ⟨req, ?_, hpaths, hstate⟩
    split <;> exact hset

theorem decide_queue (c : Config File) (m : Moment) (o : AutoDevOrchestrator File) (run : AutoDevRun)
    (report : VerificationReport) :
    (AutoDevOrchestrator.decide c m o run report).2.approvals.requests = o.approvals.requests ∨
      ∃ req, (AutoDevOrchestrator.decide c m o run report).2.approvals.requests =
          o.approvals.requests.set s!"appr-{run.runId}" req ∧
        req.affectedPaths = run.filesModified ∧
        (req.state = .autoApproved ↔ (assessment c run report).riskLevel = .low) := by
  unfold AutoDevOrchestrator.decide
  dsimp only
  split
  · exact .inl rfl
  · split
    · exact .inl rfl
    · split
      · exact submitForApproval_queue m o _ _
      · split
        · exact .inl rfl
        · exact submitForApproval_queue m _ _ _

theorem autoMerge_of_wavedThrough {c : Config File} {m : Moment} {o : AutoDevOrchestrator File} {run : AutoDevRun}
    {report : VerificationReport} (h : WavedThrough c m o run report) :
    (assessment c run report).recommendation = .autoMerge := by
  rcases h with h | ⟨id, req, hreq, hnew, hstate⟩
  · exact h
  · rcases decide_queue c m o run report with hsame | ⟨req', hset, -, hlow⟩
    · rw [hsame] at hreq
      exact absurd hreq hnew
    · rw [hset, Dict.get?_set] at hreq
      split at hreq
      · cases hreq
        exact (low_iff _ _ _ _).mp (hlow.mp hstate)
      · exact absurd hreq hnew

/-- **Nothing outside the autonomous-safe tier is waved through exactly when the change is
not a small one with a single unknown path.** -/
theorem wavedThrough_allowed_iff (c : Config File) (m : Moment) (o : AutoDevOrchestrator File) (run : AutoDevRun)
    (report : VerificationReport) :
    (WavedThrough c m o run report → ∀ p ∈ run.filesModified, (verdict c.risk.modifier p).allowed = true) ↔
      ¬ LoneUnknown c.risk.modifier report run.filesModified (run.proposedDiff.toList.count '\n') := by
  constructor
  · intro h hlone
    obtain ⟨p, hp, hunknown, -⟩ := hlone.lone
    have hallowed := h (.inl hlone.autoMerge) p hp
    rw [verdict_allowed_iff, hunknown] at hallowed
    cases hallowed
  · intro h hwaved
    exact allowed_of_autoMerge (autoMerge_of_wavedThrough hwaved) h

def plainConfig : Config String where
  git := { apply := fun tree _ => .ok tree, diffHead := fun _ _ => .ok [] }
  risk := { modifier := Evaluation.boundaries, repr := fun _ => "[...]" }

/-- A change of the build file alone, which is in no tier. -/
def makefileRun : AutoDevRun where
  runId := "r1"
  title := "build"
  rationale := "flags"
  proposedDiff := "+a\n"
  state := .verifying
  filesModified := ["Makefile"]

/-- A human has to review every unknown path, but this one is approved without any. -/
theorem makefile_auto_approved :
    let o : AutoDevOrchestrator String := { budget := { current := { date := 0 } } }
    let decided := (AutoDevOrchestrator.decide plainConfig { now := 0 } o makefileRun {}).2
    (decided.approvals.requests.get? "appr-r1").map (·.state) = some .autoApproved ∧
      (decided.runs.get? "r1").map (·.state) = some .approved ∧
      (verdict Evaluation.boundaries "Makefile").allowed = false ∧
      ¬ (WavedThrough plainConfig { now := 0 } o makefileRun {} →
        ∀ p ∈ makefileRun.filesModified, (verdict plainConfig.risk.modifier p).allowed = true) := by
  intro o decided
  have hdecided : (decided.approvals.requests.get? "appr-r1").map (·.state) = some .autoApproved ∧
      (decided.runs.get? "r1").map (·.state) = some .approved := by decide +kernel
  have hunknown : (verdict Evaluation.boundaries "Makefile").allowed = false := by decide +kernel
  refine ⟨hdecided.1, hdecided.2, hunknown, fun h => ?_⟩
  have hallowed := h (.inl (by decide +kernel)) "Makefile" (List.mem_singleton_self _)
  exact Bool.eq_false_iff.mp hunknown hallowed

end Occp.Autodev
