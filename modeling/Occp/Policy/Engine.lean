import Occp.Orchestrator.Models
import Occp.Policy.Abac

/-! # The policy engine (`policy_engine/engine.py`) -/

namespace Occp.Policy

/-- A guard as the engine sees it: it looks at the payload, and passes, fails or raises. -/
abbrev Guard := Dict Value → Except PyError GuardResult

structure GateResult where
  approved : Bool
  reason : String := ""
  violatedRules : List String := []
  guardResults : List GuardResult := []
  policyHash : String := ""
  abacDecision : Option ABACDecision := none

namespace GateResult

def toDecisionRecord (r : GateResult) : Dict Value :=
  [("approved", .bool r.approved), ("reason", .str r.reason), ("policy_hash", .str r.policyHash),
    ("violated_rules", .list (r.violatedRules.map .str)),
    ("guards", .list (r.guardResults.map fun g =>
      .dict [("name", .str g.guardName), ("passed", .bool g.passed), ("detail", .str g.detail)]))] ++
  (match r.abacDecision with
    | some d => [("abac", d.toAuditDict)]
    | none => [])

end GateResult

structure PolicyEngine where
  policies : List Policy := []
  guards : List Guard := []
  auditChain : List AuditEntry := []
  /-- The entries handed to the audit store, when there is one. -/
  auditStore : Option (List AuditEntry) := none
  abacEvaluator : Option ABACEvaluator := none
  policyHash : String := ""

/-! ## Helpers -/

/-- `_task_to_payload`, for a `Task`. -/
def taskToPayload (t : Task) : Dict Value :=
  [("name", .str t.name), ("description", .str t.description), ("agent_type", .str t.agentType),
    ("plan", t.plan.getD .none), ("metadata", .dict t.metadata)]

/-- `_rule_matches`. A key that is missing reads as `None`. -/
def ruleMatches (rule : PolicyRule) (payload : Dict Value) : Bool :=
  rule.conditions.all fun (key, expected) => ((payload.get? key).getD .none).pyEq expected

/-- `RequestContext.from_task`, at the time of day `now`. -/
def RequestContext.fromTask (t : Task) (now : Nat) : RequestContext :=
  let fromMeta key := (t.metadata.get? key).getD (.str "")
  { userRole := fromMeta "user_role"
    agentType := .str t.agentType
    toolCategory := fromMeta "tool_category"
    toolName := fromMeta "tool_name"
    dataClassification := fromMeta "data_classification"
    sourceIp := fromMeta "source_ip"
    timeOfDay := some now
    extra := [("name", .str t.name), ("metadata", .dict t.metadata)] }

namespace PolicyEngine

/-- `_append_audit`; `id` and `timestamp` are the new entry's defaults. -/
def appendAudit (py : PyLib) (eng : PolicyEngine) (id timestamp actor action taskId : String)
    (detail : Dict Value) : AuditEntry × PolicyEngine :=
  let prevHash := match eng.auditChain.getLast? with
    | some last => last.hash
    | none => ""
  let entry := AuditEntry.computeHash py { id, timestamp, actor, action, taskId, detail } prevHash
  (entry, { eng with auditChain := eng.auditChain ++ [entry] })

/-- All rules of all policies, in the order the loop visits them. -/
def rules (eng : PolicyEngine) : List PolicyRule := eng.policies.flatMap (·.rules)

/-- Phase 2: the ids of the matching DENY rules. -/
def violatedRules (eng : PolicyEngine) (payload : Dict Value) : List String :=
  (eng.rules.filter fun r => ruleMatches r payload && r.action == .deny).map (·.id)

def rulesRequireApproval (eng : PolicyEngine) (payload : Dict Value) : Bool :=
  eng.rules.any fun r => ruleMatches r payload && r.action == .requireApproval

/-- Phase 3. No decision when there is no evaluator, or no rule in it. -/
def abacDecide (py : PyLib) (eng : PolicyEngine) (t : Task) (now : Nat) :
    Except PyError (Option ABACDecision) :=
  match eng.abacEvaluator with
  | none => .ok none
  | some ev =>
    if 0 < ev.ruleCount then some <$> ev.evaluate py (.fromTask t now) else .ok none

/-- The rules that ABAC adds to the violated ones. -/
def abacViolations : Option ABACDecision → List String
  | some d => if d.denied then d.matchedRules else []
  | none => []

def abacRequiresApproval : Option ABACDecision → Bool
  | some d => !d.denied && d.effect == .requireApproval
  | none => false

/-- The verdict over the three phases. -/
def verdict (eng : PolicyEngine) (payload : Dict Value) (guardResults : List GuardResult)
    (abac : Option ABACDecision) : GateResult :=
  let failedGuards := guardResults.filter fun g => !g.passed
  let violated := eng.violatedRules payload ++ abacViolations abac
  let requiresApproval := eng.rulesRequireApproval payload || abacRequiresApproval abac
  if !failedGuards.isEmpty || !violated.isEmpty then
    let reasons :=
      (if failedGuards.isEmpty then []
        else ["Guards failed: " ++ String.intercalate ", " (failedGuards.map (·.guardName))]) ++
      (if violated.isEmpty then []
        else ["Policy violations: " ++ String.intercalate ", " violated])
    { approved := false
      reason := String.intercalate "; " reasons
      violatedRules := violated
      guardResults
      policyHash := eng.policyHash
      abacDecision := abac }
  else if requiresApproval then
    { approved := false
      reason := "Manual approval required by policy"
      guardResults
      policyHash := eng.policyHash
      abacDecision := abac }
  else
    { approved := true
      guardResults
      policyHash := eng.policyHash
      abacDecision := abac }

/-- `evaluate`, with the clock and the audit entry's defaults as inputs. -/
def evaluate (py : PyLib) (eng : PolicyEngine) (t : Task) (now : Nat) (entryId timestamp : String) :
    Except PyError (GateResult × PolicyEngine) := do
  let payload := taskToPayload t
  let guardResults ← eng.guards.mapM fun guard => guard payload
  let abac ← eng.abacDecide py t now
  let result := eng.verdict payload guardResults abac
  let (entry, eng) := eng.appendAudit py entryId timestamp "policy_engine" "gate_evaluation" t.id
    result.toDecisionRecord
  return (result, { eng with auditStore := eng.auditStore.map (· ++ [entry]) })

end PolicyEngine

end Occp.Policy
