import Mathlib.Data.List.Perm.Subperm
import Mathlib.Logic.Relation
import Occp.Autodev.AutoApproval

/-!
# More risk is never scored lower

The factors only add up, so that a change with more in it is at least as risky. One that verifies
worse is, too.
-/

namespace Occp.Autodev

open Evaluation (Boundaries Tier)

/-- From the least restrictive one on. -/
def Recommendation.restriction : Recommendation → Nat
  | autoMerge => 0
  | review => 1
  | reject => 2

/-- What `assess` is given. -/
structure RiskInput where
  verification : Option VerificationReport
  affectedPaths : List String
  diffSizeLines : Nat

/-- Without a report nothing has failed. -/
def RiskInput.assess (x : RiskInput) (c : ResidualRiskCalculator) : RiskAssessment :=
  c.assess (x.verification.getD {}) x.affectedPaths x.diffSizeLines

/-- A path more, lines more, or a step that fails instead of passing. -/
inductive Worse : RiskInput → RiskInput → Prop
  | path (r : Option VerificationReport) (before after : List String) (p : String) (n : Nat) :
    Worse ⟨r, before ++ after, n⟩ ⟨r, before ++ p :: after, n⟩
  | lines (r : Option VerificationReport) (paths : List String) (n more : Nat) :
    Worse ⟨r, paths, n⟩ ⟨r, paths, n + more⟩
  | failure (before after : List StageResult) (stage : String) (paths : List String) (n : Nat) :
    Worse ⟨some ⟨before ++ ⟨stage, "pass"⟩ :: after⟩, paths, n⟩ ⟨some ⟨before ++ ⟨stage, "fail"⟩ :: after⟩, paths, n⟩

namespace ResidualRiskCalculator

variable {c : ResidualRiskCalculator} {r r' : VerificationReport} {paths paths' : List String} {n n' : Nat}

theorem weight_le {p q : Prop} [Decidable p] [Decidable q] (h : q → p) {w : Rat} (hw : 0 ≤ w) :
    (if p then 0 else w) ≤ if q then 0 else w := by
  by_cases hq : q
  · rw [if_pos (h hq), if_pos hq]
  · rw [if_neg hq]
    split
    · exact hw
    · exact le_rfl

theorem pathsOf_subset {b : Boundaries} (tier : Tier) (h : paths ⊆ paths') :
    pathsOf tier (checkMany b paths) ⊆ pathsOf tier (checkMany b paths') := by
  intro p hp
  obtain ⟨hmem, htier⟩ := mem_pathsOf.mp hp
  exact mem_pathsOf.mpr ⟨h hmem, htier⟩

theorem weights_mono (hpassed : r'.passed = true → r.passed = true) (hpaths : paths ⊆ paths')
    (hlength : paths.length ≤ paths'.length) (hlines : n ≤ n') :
    ((c.factors r paths n).map (·.weight)).sum ≤ ((c.factors r' paths' n').map (·.weight)).sum := by
  have htier (tier : Tier) := pathsOf_subset (b := c.modifier) tier hpaths
  have hunknown := ((nodup_pathsOf .unknown).subperm (htier .unknown)).length_le
  have hsensitive : paths.filter sensitive ⊆ paths'.filter sensitive := fun p hp =>
    List.mem_filter.mpr ⟨hpaths (List.mem_filter.mp hp).1, (List.mem_filter.mp hp).2⟩
  have hnil {xs ys : List String} (hsub : xs ⊆ ys) (hys : ys = []) : xs = [] := by
    subst hys
    exact List.subset_nil.mp hsub
  rw [sum_factors, sum_factors]
  gcongr
  · exact weight_le hpassed (by norm_num)
  · exact weight_le (hnil (htier .immutable)) (by norm_num)
  · exact weight_le (hnil (htier .humanReviewRequired)) (by norm_num)
  · exact weight_le hlines.trans (by norm_num)
  · exact weight_le hlength.trans (by norm_num)
  · exact weight_le (hnil hsensitive) (by norm_num)

theorem score_eq (c : ResidualRiskCalculator) (r : VerificationReport) (paths : List String) (n : Nat) :
    (c.assess r paths n).score = max 0 (min 10 ((c.factors r paths n).map (·.weight)).sum) := by
  unfold assess
  dsimp only
  split
  · rfl
  · split
    · rfl
    · split <;> rfl

theorem restriction_eq (c : ResidualRiskCalculator) (r : VerificationReport) (paths : List String) (n : Nat) :
    (c.assess r paths n).recommendation.restriction =
      if 8 ≤ (c.assess r paths n).score then 2 else if 2 ≤ (c.assess r paths n).score then 1 else 0 := by
  rw [score_eq]
  unfold assess
  dsimp only
  generalize max 0 (min 10 ((c.factors r paths n).map (·.weight)).sum) = score
  split
  · rfl
  · split
    · next h => rw [if_pos (by linarith)]; rfl
    · split <;> rfl

theorem assess_mono (hpassed : r'.passed = true → r.passed = true) (hpaths : paths ⊆ paths')
    (hlength : paths.length ≤ paths'.length) (hlines : n ≤ n') :
    (c.assess r paths n).score ≤ (c.assess r' paths' n').score ∧
      (c.assess r paths n).recommendation.restriction ≤ (c.assess r' paths' n').recommendation.restriction := by
  have hscore : (c.assess r paths n).score ≤ (c.assess r' paths' n').score := by
    rw [score_eq, score_eq]
    have hsum := weights_mono (c := c) hpassed hpaths hlength hlines
    gcongr
  refine ⟨hscore, ?_⟩
  rw [restriction_eq, restriction_eq]
  split
  · next h => rw [if_pos (h.trans hscore)]
  · split
    · next h =>
      rw [if_pos (h.trans hscore)]
      split <;> omega
    · exact Nat.zero_le _

end ResidualRiskCalculator

open ResidualRiskCalculator

theorem assess_worse (c : ResidualRiskCalculator) {x y : RiskInput} (h : Worse x y) :
    (x.assess c).score ≤ (y.assess c).score ∧
      (x.assess c).recommendation.restriction ≤ (y.assess c).recommendation.restriction := by
  cases h with
  | path r before after p n =>
    refine assess_mono id (fun q hq => ?_) (by simp) le_rfl
    rw [List.mem_append] at hq
    rw [List.mem_append, List.mem_cons]
    exact hq.imp_right .inr
  | lines r paths n more => exact assess_mono id (List.Subset.refl paths) le_rfl (Nat.le_add_right n more)
  | failure before after stage paths n =>
    refine assess_mono (fun hpassed => ?_) (List.Subset.refl paths) le_rfl le_rfl
    have hfail := List.all_eq_true.mp hpassed ⟨stage, "fail"⟩ (by simp)
    simp at hfail

/-- **Whatever paths and lines a change gets in addition, and whatever steps fail, its score is not lower and its
recommendation is not less restrictive.** -/
theorem residual_risk_monotone (c : ResidualRiskCalculator) {x y : RiskInput} (h : Relation.ReflTransGen Worse x y) :
    (x.assess c).score ≤ (y.assess c).score ∧
      (x.assess c).recommendation.restriction ≤ (y.assess c).recommendation.restriction := by
  induction h with
  | refl => exact ⟨le_rfl, le_rfl⟩
  | tail _ hstep ih =>
    obtain ⟨hscore, hrestriction⟩ := assess_worse c hstep
    exact ⟨ih.1.trans hscore, ih.2.trans hrestriction⟩

/-- The build file is joined by a planner, and then the lint fails. -/
theorem residual_risk_monotone_makefile :
    let x : RiskInput := ⟨some ⟨[⟨"lint", "pass"⟩]⟩, ["Makefile"], 12⟩
    let y : RiskInput := ⟨some ⟨[⟨"lint", "fail"⟩]⟩, ["Makefile", "adapters/claude_planner.py"], 12⟩
    (x.assess plainConfig.risk).score ≤ (y.assess plainConfig.risk).score ∧
      (x.assess plainConfig.risk).recommendation.restriction ≤ (y.assess plainConfig.risk).recommendation.restriction :=
  residual_risk_monotone plainConfig.risk <|
    .tail (.single (.path _ ["Makefile"] [] "adapters/claude_planner.py" 12)) (.failure [] [] "lint" _ 12)

end Occp.Autodev
