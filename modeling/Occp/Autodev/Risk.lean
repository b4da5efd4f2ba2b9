import Mathlib.Algebra.Order.Ring.Rat
import Occp.Evaluation.SelfModifier
import Occp.Orchestrator.Models

/-!
# Verification reports and residual risk (`autodev/verification_gate.py`, `autodev/residual_risk.py`)

The weights are exact in binary, so the score is a rational here.
-/

namespace Occp.Autodev

open Evaluation (Boundaries ModificationVerdict SelfModifier.verdict)

structure StageResult where
  stage : String
  /-- `pass`, `fail`, `error` or `skipped`. -/
  verdict : String
  deriving DecidableEq

/-- `verification_gate.VerificationReport`, by its stages. -/
structure VerificationReport where
  stages : List StageResult := []
  deriving DecidableEq

def VerificationReport.passed (r : VerificationReport) : Bool :=
  r.stages.all fun s => s.verdict == "pass" || s.verdict == "skipped"

inductive Recommendation where
  | autoMerge
  | review
  | reject
  deriving DecidableEq

structure RiskFactor where
  name : String
  weight : Rat
  reason : String

structure RiskAssessment where
  score : Rat
  riskLevel : RiskLevel
  recommendation : Recommendation
  factors : List RiskFactor := []

structure ResidualRiskCalculator where
  modifier : Boundaries
  /-- `repr` of a list of strings. -/
  repr : List String → String

namespace ResidualRiskCalculator

def sensitivePathSubstrings : List String :=
  ["orchestrator/", "adapters/claude_planner", "adapters/multi_llm_planner", "adapters/openclaw_executor", "store/"]

def checkMany (data : Boundaries) (paths : List String) : Dict ModificationVerdict :=
  paths.foldl (fun verdicts p => verdicts.set p (SelfModifier.verdict data p)) []

def pathsOf (tier : Evaluation.Tier) (verdicts : Dict ModificationVerdict) : List String :=
  Dict.keys (verdicts.filter fun e => e.2.tier = tier)

/-- The factors in the order in which `assess` adds them. -/
def factors (c : ResidualRiskCalculator) (verification : VerificationReport) (affectedPaths : List String)
    (diffSizeLines : Nat) : List RiskFactor :=
  let verdicts := checkMany c.modifier affectedPaths
  let immutable := pathsOf .immutable verdicts
  let review := (pathsOf .humanReviewRequired verdicts).length
  let unknown := (pathsOf .unknown verdicts).length
  let sensitive := affectedPaths.filter fun p =>
    sensitivePathSubstrings.any fun sub => isSubstring sub.toList p.toList
  (if verification.passed then [] else
    let failed := (verification.stages.filter fun s => s.verdict = "fail").map (·.stage)
    [⟨"verification_failed", 10, s!"stages failed: {c.repr failed}"⟩]) ++
  (if immutable = [] then [] else [⟨"immutable_path", 10, s!"touches immutable: {c.repr immutable}"⟩]) ++
  (if review = 0 then [] else [⟨"human_review_paths", 2, s!"{review} path(s) require human review"⟩]) ++
  (if unknown = 0 then [] else [⟨"unknown_paths", unknown, s!"{unknown} path(s) not in any boundary tier"⟩]) ++
  (if diffSizeLines ≤ 200 then [] else [⟨"large_diff", 2, s!"{diffSizeLines} lines (> 200)"⟩]) ++
  (if affectedPaths.length ≤ 5 then [] else
    [⟨"multi_file", 3 / 2, s!"{affectedPaths.length} files modified (> 5)"⟩]) ++
  (if sensitive = [] then [] else [⟨"sensitive_module", 3, s!"touches: {c.repr (sensitive.take 3)}"⟩])

def assess (c : ResidualRiskCalculator) (verification : VerificationReport) (affectedPaths : List String)
    (diffSizeLines : Nat) : RiskAssessment :=
  let factors := c.factors verification affectedPaths diffSizeLines
  let score := max 0 (min 10 (factors.map (·.weight)).sum)
  if 8 ≤ score then { score, riskLevel := .critical, recommendation := .reject, factors }
  else if 5 ≤ score then { score, riskLevel := .high, recommendation := .review, factors }
  else if 2 ≤ score then { score, riskLevel := .medium, recommendation := .review, factors }
  else { score, riskLevel := .low, recommendation := .autoMerge, factors }

end ResidualRiskCalculator

end Occp.Autodev
