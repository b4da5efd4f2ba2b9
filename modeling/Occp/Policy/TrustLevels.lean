import Mathlib.Data.List.Basic

/-! # Trust levels (`policy_engine/trust_levels.py`) -/

namespace Occp.Policy

inductive TrustLevel where
  | l0Deterministic
  | l1Constrained
  | l2Supervised
  | l3Autonomous
  | l4Delegating
  | l5Orchestrator
  deriving DecidableEq

namespace TrustLevel

def name : TrustLevel → String
  | l0Deterministic => "L0_DETERMINISTIC"
  | l1Constrained => "L1_CONSTRAINED"
  | l2Supervised => "L2_SUPERVISED"
  | l3Autonomous => "L3_AUTONOMOUS"
  | l4Delegating => "L4_DELEGATING"
  | l5Orchestrator => "L5_ORCHESTRATOR"

def value : TrustLevel → Nat
  | l0Deterministic => 0
  | l1Constrained => 1
  | l2Supervised => 2
  | l3Autonomous => 3
  | l4Delegating => 4
  | l5Orchestrator => 5

end TrustLevel

/-- What `check_action` reads of a constraint. -/
structure TrustConstraint where
  canUseLlm : Bool := false
  canAccessNetwork : Bool := false
  canSpawnChildren : Bool := false
  maxToolCategories : List String := []

def trustConstraints : List (TrustLevel × TrustConstraint) :=
  [(.l0Deterministic, { maxToolCategories := ["read", "compute"] }),
    (.l1Constrained, { canUseLlm := true, maxToolCategories := ["read", "compute", "generate"] }),
    (.l2Supervised, { canUseLlm := true, canAccessNetwork := true
                      maxToolCategories := ["read", "compute", "generate", "write", "network"] }),
    (.l3Autonomous, { canUseLlm := true, canAccessNetwork := true
                      maxToolCategories := ["read", "compute", "generate", "write", "network", "execute"] }),
    (.l4Delegating, { canUseLlm := true, canAccessNetwork := true, canSpawnChildren := true
                      maxToolCategories := ["read", "compute", "generate", "write", "network", "execute", "admin"] }),
    (.l5Orchestrator, { canUseLlm := true, canAccessNetwork := true, canSpawnChildren := true
                        maxToolCategories := ["read", "compute", "generate", "write", "network", "execute", "admin",
                          "orchestrate"] })]

structure TrustCheckResult where
  allowed : Bool
  agentId : String := ""
  trustLevel : TrustLevel := .l0Deterministic
  reason : String := ""
  constraintViolated : String := ""

/-- What an action needs of its agent. -/
structure TrustRequest where
  agentId : String
  trustLevel : TrustLevel
  action : String
  toolCategory : String := ""
  requiresLlm : Bool := false
  requiresNetwork : Bool := false
  requiresSpawn : Bool := false

structure TrustEnforcer where
  constraints : List (TrustLevel × TrustConstraint) := trustConstraints

namespace TrustEnforcer

/-- An empty table counts as none. -/
def new (constraints : List (TrustLevel × TrustConstraint)) : TrustEnforcer where
  constraints := if constraints = [] then trustConstraints else constraints

variable (e : TrustEnforcer)

def checkAction (r : TrustRequest) : TrustCheckResult :=
  let denied (reason constraintViolated : String) : TrustCheckResult :=
    { allowed := false, agentId := r.agentId, trustLevel := r.trustLevel, reason, constraintViolated }
  match e.constraints.lookup r.trustLevel with
  | none => denied s!"Unknown trust level: {r.trustLevel.value}" "unknown_level"
  | some constraint =>
    if r.requiresLlm && !constraint.canUseLlm then
      denied s!"Trust level {r.trustLevel.name} does not permit LLM access" "can_use_llm"
    else if r.requiresNetwork && !constraint.canAccessNetwork then
      denied s!"Trust level {r.trustLevel.name} does not permit network access" "can_access_network"
    else if r.requiresSpawn && !constraint.canSpawnChildren then
      denied s!"Trust level {r.trustLevel.name} does not permit spawning children" "can_spawn_children"
    else if r.toolCategory ≠ "" ∧ r.toolCategory ∉ constraint.maxToolCategories then
      denied s!"Trust level {r.trustLevel.name} does not permit tool category '{r.toolCategory}'" "tool_category"
    else { allowed := true, agentId := r.agentId, trustLevel := r.trustLevel }

/-- Whatever the action needs, the level grants. -/
structure Grants (constraint : TrustConstraint) (r : TrustRequest) : Prop where
  llm : r.requiresLlm = true → constraint.canUseLlm = true
  network : r.requiresNetwork = true → constraint.canAccessNetwork = true
  spawn : r.requiresSpawn = true → constraint.canSpawnChildren = true
  toolCategory : r.toolCategory ≠ "" → r.toolCategory ∈ constraint.maxToolCategories

theorem checkAction_allowed_iff (r : TrustRequest) :
    (e.checkAction r).allowed = true ↔ ∃ constraint, e.constraints.lookup r.trustLevel = some constraint ∧ Grants constraint r := by
  unfold checkAction
  cases e.constraints.lookup r.trustLevel with
  | none => simp
  | some constraint =>
    constructor
    · intro h
      refine ⟨constraint, rfl, ?_⟩
      simp only at h
      split at h
      · cases h
      · split at h
        · cases h
        · split at h
          · cases h
          · split at h
            · cases h
            · next hllm hnetwork hspawn hcategory =>
              constructor
              · simpa using hllm
              · simpa using hnetwork
              · simpa using hspawn
              · tauto
    · rintro ⟨_, hsome, hgrants⟩
      cases hsome
      have hllm : ¬ (r.requiresLlm && !constraint.canUseLlm) = true := by simpa using hgrants.llm
      have hnetwork : ¬ (r.requiresNetwork && !constraint.canAccessNetwork) = true := by simpa using hgrants.network
      have hspawn : ¬ (r.requiresSpawn && !constraint.canSpawnChildren) = true := by simpa using hgrants.spawn
      have hcategory : ¬ (r.toolCategory ≠ "" ∧ r.toolCategory ∉ constraint.maxToolCategories) := fun h =>
        h.2 (hgrants.toolCategory h.1)
      simp only [if_neg hllm, if_neg hnetwork, if_neg hspawn, if_neg hcategory]

end TrustEnforcer

end Occp.Policy
