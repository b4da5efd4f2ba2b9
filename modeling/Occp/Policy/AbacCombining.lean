import Occp.Policy.Replay
import Occp.Policy.Verdict

/-!
# How ABAC rules combine (`policy_engine/abac.py`)

Rules are kept by priority, in the order of their insertion among equals. The evaluator asks all
of them before it combines what the matching ones say.
-/

namespace Occp.Policy

open Lib.Except

/-! ## Insertion -/

namespace ABACEvaluator

/-- A new evaluator into which the batches have been loaded, one after the other. -/
def loaded (py : PyLib) (algorithm : CombineAlgorithm) (defaultEffect : Effect) (batches : List (List ABACRule)) :
    ABACEvaluator :=
  batches.foldl (loadRules py) { algorithm, defaultEffect }

/-- The effect of the decision, where the evaluation does not raise. -/
def effect? (py : PyLib) (ctx : RequestContext) (ev : ABACEvaluator) : Option Effect :=
  match ev.evaluate py ctx with
  | .ok decision => some decision.effect
  | .error _ => none

variable {py : PyLib} {ctx : RequestContext}

@[simp] theorem loadRules_algorithm (ev : ABACEvaluator) (rules : List ABACRule) :
    (ev.loadRules py rules).algorithm = ev.algorithm := rfl

@[simp] theorem loadRules_defaultEffect (ev : ABACEvaluator) (rules : List ABACRule) :
    (ev.loadRules py rules).defaultEffect = ev.defaultEffect := rfl

theorem loadRules_perm (ev : ABACEvaluator) (rules : List ABACRule) :
    (ev.loadRules py rules).rules.Perm (ev.rules ++ rules) :=
  List.perm_insertionSort _ _

/-- Loading keeps the algorithm and the default, and adds the rules. -/
theorem foldl_loadRules (ev : ABACEvaluator) (batches : List (List ABACRule)) :
    (batches.foldl (loadRules py) ev).algorithm = ev.algorithm ∧
      (batches.foldl (loadRules py) ev).defaultEffect = ev.defaultEffect ∧
      (batches.foldl (loadRules py) ev).rules.Perm (ev.rules ++ batches.flatten) := by
  induction batches generalizing ev with
  | nil => simp
  | cons rules batches ih =>
    obtain ⟨halgorithm, hdefault, hperm⟩ := ih (ev.loadRules py rules)
    refine ⟨halgorithm, hdefault, hperm.trans ?_⟩
    rw [List.flatten_cons, ← List.append_assoc]
    exact (loadRules_perm ev rules).append_right _

/-! ## What the evaluation makes of the rules -/

/-- Whether the rule matches, where that does not raise. -/
def hits (py : PyLib) (ctx : RequestContext) (r : ABACRule) : Bool :=
  match r.matches py ctx with
  | .ok hit => hit
  | .error _ => false

/-- No condition that is asked raises. -/
def Decided (py : PyLib) (ctx : RequestContext) (rules : List ABACRule) : Prop :=
  ∀ r ∈ rules, ∃ hit, r.matches py ctx = .ok hit

theorem matching_of_decided {rules : List ABACRule} (h : Decided py ctx rules) :
    matching py ctx rules = .ok (rules.filter (hits py ctx)) := by
  induction rules with
  | nil => rfl
  | cons r rest ih =>
    obtain ⟨hit, hr⟩ := h r List.mem_cons_self
    rw [matching, hr, ih fun r' hr' => h r' (List.mem_cons_of_mem _ hr'), List.filter_cons, hits, hr]
    rfl

theorem decided_of_matching {rules m : List ABACRule} (h : matching py ctx rules = .ok m) : Decided py ctx rules := by
  induction rules generalizing m with
  | nil =>
    intro r hr
    exact absurd hr List.not_mem_nil
  | cons r rest ih =>
    obtain ⟨hit, hhit, h⟩ := bind_eq_ok.mp h
    obtain ⟨others, hothers, -⟩ := bind_eq_ok.mp h
    intro r' hr'
    rcases List.mem_cons.mp hr' with rfl | hr'
    · exact ⟨hit, hhit⟩
    · exact ih hothers r' hr'

theorem effect?_of_decided {ev : ABACEvaluator} (h : Decided py ctx ev.rules) :
    ev.effect? py ctx =
      some (if ev.rules.filter (hits py ctx) = [] then ev.defaultEffect
        else ev.combine ((ev.rules.filter (hits py ctx)).map (·.effect))) := by
  rw [effect?, evaluate, matching_of_decided h]
  cases ev.rules.filter (hits py ctx) <;> rfl

theorem effect?_isSome_iff {ev : ABACEvaluator} : (ev.effect? py ctx).isSome ↔ Decided py ctx ev.rules := by
  constructor
  · intro h
    cases hm : matching py ctx ev.rules with
    | ok m => exact decided_of_matching hm
    | error e =>
      rw [effect?, evaluate, hm] at h
      cases h
  · intro h
    rw [effect?_of_decided h]
    rfl

theorem Decided.perm {rules rules' : List ABACRule} (hperm : rules.Perm rules') :
    Decided py ctx rules ↔ Decided py ctx rules' :=
  forall_congr' fun _ => imp_congr_left hperm.mem_iff

end ABACEvaluator

/-- The effect that the algorithm lets prevail. -/
def CombineAlgorithm.overriding : CombineAlgorithm → Option Effect
  | .denyOverrides => some .deny
  | .allowOverrides => some .allow
  | .firstMatch => none

namespace ABACEvaluator

variable {py : PyLib} {ctx : RequestContext} {ev ev' : ABACEvaluator} {e : Effect}

theorem combine_of_mem (h : ev.algorithm.overriding = some e) {effects : List Effect} (he : e ∈ effects) :
    ev.combine effects = e := by
  unfold combine
  cases halg : ev.algorithm with
  | firstMatch => simp [halg, CombineAlgorithm.overriding] at h
  | denyOverrides =>
    obtain rfl : .deny = e := by simpa [halg, CombineAlgorithm.overriding] using h
    exact if_pos he
  | allowOverrides =>
    obtain rfl : .allow = e := by simpa [halg, CombineAlgorithm.overriding] using h
    exact if_pos he

/-- An algorithm that lets an effect prevail only asks which effects there are. -/
theorem combine_congr (h : ev.algorithm.overriding = some e) (halg : ev.algorithm = ev'.algorithm)
    {effects effects' : List Effect} (hmem : ∀ x, x ∈ effects ↔ x ∈ effects') :
    ev.combine effects = ev'.combine effects' := by
  unfold combine
  rw [← halg]
  cases hev : ev.algorithm with
  | firstMatch => simp [hev, CombineAlgorithm.overriding] at h
  | denyOverrides => simp only [hmem]
  | allowOverrides => simp only [hmem]

theorem effect?_perm (h : ev.algorithm.overriding = some e) (halg : ev.algorithm = ev'.algorithm)
    (hdefault : ev.defaultEffect = ev'.defaultEffect) (hperm : ev.rules.Perm ev'.rules) :
    ev.effect? py ctx = ev'.effect? py ctx := by
  by_cases hdecided : Decided py ctx ev.rules
  · have hhits := hperm.filter (hits py ctx)
    rw [effect?_of_decided hdecided, effect?_of_decided ((Decided.perm hperm).mp hdecided), hdefault]
    have hnil : ev.rules.filter (hits py ctx) = [] ↔ ev'.rules.filter (hits py ctx) = [] := by
      rw [← List.length_eq_zero_iff, ← List.length_eq_zero_iff, hhits.length_eq]
    have hcombine := combine_congr h halg fun x => (hhits.map (·.effect)).mem_iff (a := x)
    simp only [hnil, hcombine]
  · have hnone := mt effect?_isSome_iff.mp hdecided
    have hnone' := mt effect?_isSome_iff.mp (mt (Decided.perm hperm).mpr hdecided)
    rw [Option.not_isSome_iff_eq_none.mp hnone, Option.not_isSome_iff_eq_none.mp hnone']

end ABACEvaluator

end Occp.Policy
