import Occp.Lib.Except
import Occp.Policy.Engine

/-!
# What an approval of the gate means

The docstring of `evaluate` promises an approval only if all guards pass, no
rule objects and ABAC allows. The guards and the rules keep that promise. ABAC
keeps it except where no ABAC rule matches at all.
-/

open Occp.Lib.Except

namespace Occp.Policy

/-! ## The three sources of the verdict -/

def GuardsPass (eng : PolicyEngine) (t : Task) : Prop :=
  ∀ g ∈ eng.guards, ∃ r, g (taskToPayload t) = .ok r ∧ r.passed = true

def NoRuleObjects (eng : PolicyEngine) (t : Task) : Prop :=
  ∀ r ∈ eng.rules, ruleMatches r (taskToPayload t) = true → r.action ≠ .deny ∧ r.action ≠ .requireApproval

/-- An evaluator with at least one rule decides ALLOW. -/
def AbacAllows (py : PyLib) (eng : PolicyEngine) (t : Task) (now : Nat) : Prop :=
  ∀ ev, eng.abacEvaluator = some ev → 0 < ev.ruleCount →
    ∃ d, ev.evaluate py (.fromTask t now) = .ok d ∧ d.effect = .allow

/-- ABAC has rules, none of them matches the task, and the default effect is DENY. -/
def UnmatchedDefaultDeny (py : PyLib) (eng : PolicyEngine) (t : Task) (now : Nat) : Prop :=
  ∃ ev, eng.abacEvaluator = some ev ∧ 0 < ev.ruleCount ∧
    (∀ r ∈ ev.rules, r.matches py (.fromTask t now) = .ok false) ∧ ev.defaultEffect = .deny

/-! ## Guards -/

theorem guards_pass_iff (eng : PolicyEngine) (t : Task) (rs : List GuardResult)
    (h : eng.guards.mapM (fun guard => guard (taskToPayload t)) = .ok rs) :
    (rs.filter fun g => !g.passed) = [] ↔ GuardsPass eng t := by
  simp only [List.filter_eq_nil_iff, Bool.not_eq_true, Bool.not_eq_false', GuardsPass]
  have hall := mapM_eq_ok.mp h
  clear h
  generalize eng.guards = guards at hall ⊢
  induction hall with
  | nil => simp
  | cons hb _ ih => simp [hb, ih]

/-! ## Rules -/

theorem violatedRules_eq_nil (eng : PolicyEngine) (payload : Dict Value) :
    eng.violatedRules payload = [] ↔ ∀ r ∈ eng.rules, ruleMatches r payload = true → r.action ≠ .deny := by
  simp [PolicyEngine.violatedRules, List.filter_eq_nil_iff]

theorem rulesRequireApproval_eq_false (eng : PolicyEngine) (payload : Dict Value) :
    eng.rulesRequireApproval payload = false ↔
      ∀ r ∈ eng.rules, ruleMatches r payload = true → r.action ≠ .requireApproval := by
  simp [PolicyEngine.rulesRequireApproval]

theorem no_rule_objects_iff (eng : PolicyEngine) (t : Task) :
    NoRuleObjects eng t ↔ eng.violatedRules (taskToPayload t) = [] ∧
      eng.rulesRequireApproval (taskToPayload t) = false := by
  rw [violatedRules_eq_nil, rulesRequireApproval_eq_false, NoRuleObjects]
  constructor
  · intro h
    exact ⟨fun r hr hm => (h r hr hm).1, fun r hr hm => (h r hr hm).2⟩
  · rintro ⟨hd, ha⟩ r hr hm
    exact ⟨hd r hr hm, ha r hr hm⟩

/-! ## ABAC -/

theorem matching_eq_nil_iff (py : PyLib) (ctx : RequestContext) (rules m : List ABACRule)
    (h : ABACEvaluator.matching py ctx rules = .ok m) :
    m = [] ↔ ∀ r ∈ rules, r.matches py ctx = .ok false := by
  induction rules generalizing m with
  | nil =>
    cases h
    simp
  | cons r rest ih =>
    obtain ⟨hit, hh, h⟩ := bind_eq_ok.mp h
    obtain ⟨others, ho, h⟩ := bind_eq_ok.mp h
    rw [pure_eq_ok] at h
    subst h
    cases hit <;> simp [hh, ih others ho]

/-- A denial names its rules, except when it is the default. -/
theorem abac_denied_without_rules (py : PyLib) (ev : ABACEvaluator) (ctx : RequestContext)
    (d : ABACDecision) (h : ev.evaluate py ctx = .ok d) :
    d.denied = true ∧ d.matchedRules = [] ↔
      (∀ r ∈ ev.rules, r.matches py ctx = .ok false) ∧ ev.defaultEffect = .deny := by
  obtain ⟨m, hm, h⟩ := bind_eq_ok.mp h
  rw [← matching_eq_nil_iff py ctx ev.rules m hm]
  by_cases hnil : m = []
  · subst hnil
    simp only [List.isEmpty_nil, if_true, pure_eq_ok] at h
    simp [← h, ABACDecision.denied]
  · have hne : m.isEmpty = false := by simpa using hnil
    simp only [hne, Bool.false_eq_true, if_false, pure_eq_ok] at h
    simp [← h, hnil]

/-- What the verdict reads off an ABAC decision: denied with nobody named passes as no objection. -/
def abacSilent (abac : Option ABACDecision) : Prop :=
  ∀ d, abac = some d → d.effect = .allow ∨ (d.denied = true ∧ d.matchedRules = [])

theorem abac_silent_iff (py : PyLib) (eng : PolicyEngine) (t : Task) (now : Nat)
    (abac : Option ABACDecision) (h : eng.abacDecide py t now = .ok abac) :
    abacSilent abac ↔ AbacAllows py eng t now ∨ UnmatchedDefaultDeny py eng t now := by
  unfold PolicyEngine.abacDecide at h
  unfold abacSilent AbacAllows UnmatchedDefaultDeny
  cases hev : eng.abacEvaluator with
  | none => simp [hev] at h; simp [← h]
  | some ev =>
    simp only [hev] at h
    split at h
    · next hcount =>
      cases hd : ev.evaluate py (.fromTask t now) with
      | error e => simp [hd] at h
      | ok d =>
        simp only [hd, Except.map_ok, Except.ok.injEq] at h
        have hdeny := abac_denied_without_rules py ev _ d hd
        simp [← h, hcount, hd, hdeny]
    · next hcount => simp at h; simp [← h, hcount]

/-! ## The verdict -/

theorem abac_silent_cases (abac : Option ABACDecision) :
    abacSilent abac ↔ PolicyEngine.abacViolations abac = [] ∧
      PolicyEngine.abacRequiresApproval abac = false := by
  cases abac with
  | none => simp [abacSilent, PolicyEngine.abacViolations, PolicyEngine.abacRequiresApproval]
  | some d =>
    cases h : d.effect <;>
      simp [abacSilent, PolicyEngine.abacViolations, PolicyEngine.abacRequiresApproval,
        ABACDecision.denied, h]

theorem verdict_approved (eng : PolicyEngine) (payload : Dict Value) (rs : List GuardResult)
    (abac : Option ABACDecision) :
    (eng.verdict payload rs abac).approved = true ↔
      (rs.filter fun g => !g.passed) = [] ∧
      (eng.violatedRules payload = [] ∧ eng.rulesRequireApproval payload = false) ∧
      abacSilent abac := by
  rw [abac_silent_cases]
  unfold PolicyEngine.verdict
  dsimp only
  split_ifs with hreject happroval
  · simp only [false_iff]
    rintro ⟨hg, ⟨hv, -⟩, ha, -⟩
    simp [hg, hv, ha] at hreject
  · simp only [false_iff]
    rintro ⟨-, ⟨-, hr⟩, -, ha⟩
    simp [hr, ha] at happroval
  · simp_all

/-- Unless the ABAC default is what denies, an approval is exactly what the docstring says. When
the guards pass and no rule objects, a default denial is approved. -/
theorem evaluate_approved_iff (py : PyLib) (eng eng' : PolicyEngine) (t : Task) (now : Nat)
    (entryId timestamp : String) (r : GateResult)
    (h : eng.evaluate py t now entryId timestamp = .ok (r, eng')) :
    (r.approved = true ↔ GuardsPass eng t ∧ NoRuleObjects eng t ∧ AbacAllows py eng t now) ↔
      ¬ (GuardsPass eng t ∧ NoRuleObjects eng t ∧ UnmatchedDefaultDeny py eng t now) := by
  obtain ⟨rs, hrs, h⟩ := bind_eq_ok.mp h
  obtain ⟨abac, habac, h⟩ := bind_eq_ok.mp h
  simp only [pure_eq_ok, Prod.mk.injEq] at h
  rw [← h.1, verdict_approved, guards_pass_iff eng t rs hrs, ← no_rule_objects_iff,
    abac_silent_iff py eng t now abac habac]
  have hexcl : UnmatchedDefaultDeny py eng t now → ¬ AbacAllows py eng t now := by
    rintro ⟨ev, hev, hcount, hnone, hdef⟩ hallow
    obtain ⟨d, hd, heff⟩ := hallow ev hev hcount
    have := (abac_denied_without_rules py ev _ d hd).mpr ⟨hnone, hdef⟩
    simp [ABACDecision.denied, heff] at this
  tauto

/-! ## One ABAC rule: `tool_category: shell` may run -/

/-- Python's library, as far as one string comparison needs it. -/
def plainLib : PyLib where
  str
    | .str s => s
    | _ => ""
  reMatch _ _ := .ok false
  timeFromIso _ := none
  timeIso _ := ""
  inNetwork _ _ := none
  dumps _ := ""
  sha256 s := s

def shellOnly : PolicyEngine where
  abacEvaluator := some {
    rules := [{
      id := "allow-shell"
      effect := .allow
      conditions := [{ attributeName := "tool_category", operator := "eq", value := .str "shell" }] }] }

def shellTask : Task where
  id := "t1"
  name := "list files"
  description := ""
  agentType := "general"
  metadata := [("tool_category", .str "shell")]

theorem shell_task_verdict : ∃ r eng', shellOnly.evaluate plainLib shellTask 0 "e1" "now" = .ok (r, eng') ∧
    ((r.approved = true ↔ GuardsPass shellOnly shellTask ∧ NoRuleObjects shellOnly shellTask ∧
        AbacAllows plainLib shellOnly shellTask 0) ↔
      ¬ (GuardsPass shellOnly shellTask ∧ NoRuleObjects shellOnly shellTask ∧
        UnmatchedDefaultDeny plainLib shellOnly shellTask 0)) :=
  ⟨_, _, rfl, evaluate_approved_iff plainLib shellOnly _ shellTask 0 "e1" "now" _ rfl⟩

/-- No rule matches a task without a tool category. ABAC denies it by default, and the gate approves it. -/
theorem default_denial_is_approved :
    ∃ r eng', shellOnly.evaluate plainLib { shellTask with metadata := [] } 0 "e1" "now" = .ok (r, eng') ∧
      (∃ d, r.abacDecision = some d ∧ d.effect = .deny) ∧
      ¬ (r.approved = true ↔ GuardsPass shellOnly { shellTask with metadata := [] } ∧
        NoRuleObjects shellOnly { shellTask with metadata := [] } ∧
        AbacAllows plainLib shellOnly { shellTask with metadata := [] } 0) := by
  refine ⟨_, _, rfl, ⟨_, rfl, rfl⟩, ?_⟩
  intro h
  obtain ⟨-, -, hallow⟩ := h.mp rfl
  obtain ⟨d, hd, heff⟩ := hallow _ rfl (by decide)
  cases hd
  cases heff

end Occp.Policy
