import Occp.Policy.Models

/-! # The ABAC evaluator (`policy_engine/abac.py`) -/

namespace Occp.Policy

inductive Effect where
  | allow
  | deny
  | requireApproval
  deriving DecidableEq

namespace Effect

def value : Effect → String
  | allow => "allow"
  | deny => "deny"
  | requireApproval => "require_approval"

end Effect

inductive CombineAlgorithm where
  | denyOverrides
  | allowOverrides
  | firstMatch
  deriving DecidableEq

namespace CombineAlgorithm

def value : CombineAlgorithm → String
  | denyOverrides => "deny_overrides"
  | allowOverrides => "allow_overrides"
  | firstMatch => "first_match"

end CombineAlgorithm

/-- An attribute of a request: a JSON value, or the time of day. -/
inductive Attribute where
  | value (v : Value)
  | time (t : Nat)

def Attribute.str (py : PyLib) : Attribute → String
  | value v => py.str v
  | time t => py.timeIso t

/-! ## Conditions -/

structure ABACCondition where
  attributeName : String
  /-- `eq`, `not_eq`, `in`, `not_in`, `time_range`, `cidr` or `regex`; any other never matches. -/
  operator : String
  value : Value

namespace ABACCondition

/-- The items that `for v in self.value` walks. -/
def items (py : PyLib) : Value → Except PyError (List String)
  | .list vs => .ok (vs.map py.str)
  | .dict entries => .ok (entries.map fun e => py.str (.str e.1))
  | .str s => .ok (s.toList.map fun c => py.str (.str (String.singleton c)))
  | _ => .error (.typeError "object is not iterable")

/-- One bound of a time range: the outer `none` is a `ValueError`, which the caller turns into no match. -/
def timeBound (py : PyLib) (value : Dict Value) (key default : String) :
    Except PyError (Option Nat) :=
  match value.get? key with
  | none => .ok (py.timeFromIso default)
  | some (.str s) => .ok (py.timeFromIso s)
  | some _ => .error (.typeError "fromisoformat: argument must be str")

def checkTimeRange (py : PyLib) (c : ABACCondition) (actual : Attribute) : Except PyError Bool := do
  let current? := match actual with
    | .time t => some t
    | .value (.str s) => py.timeFromIso s
    | .value _ => none
  match current?, c.value with
  | some current, .dict value =>
    let after? ← timeBound py value "after" "00:00"
    match after? with
    | none => return false
    | some after =>
      let before? ← timeBound py value "before" "23:59"
      match before? with
      | none => return false
      | some before =>
        if after ≤ before then
          return decide (after ≤ current ∧ current ≤ before)
        else
          return decide (after ≤ current ∨ current ≤ before)
  | _, _ => return false

def checkCidr (py : PyLib) (c : ABACCondition) (actual : Attribute) : Bool :=
  (py.inNetwork (actual.str py) (py.str c.value)).getD false

end ABACCondition

def ABACCondition.matches (py : PyLib) (c : ABACCondition) (actual : Option Attribute) : Except PyError Bool :=
  match actual with
  | none => .ok false
  | some a =>
    match c.operator with
    | "eq" => .ok (a.str py == py.str c.value)
    | "not_eq" => .ok (a.str py != py.str c.value)
    | "in" => return (← ABACCondition.items py c.value).contains (a.str py)
    | "not_in" => return !(← ABACCondition.items py c.value).contains (a.str py)
    | "time_range" => c.checkTimeRange py a
    | "cidr" => .ok (c.checkCidr py a)
    | "regex" => py.reMatch (py.str c.value) (a.str py)
    | _ => .ok false

/-! ## Requests -/

structure RequestContext where
  userRole : Value := .str ""
  agentType : Value := .str ""
  toolCategory : Value := .str ""
  toolName : Value := .str ""
  dataClassification : Value := .str ""
  timeOfDay : Option Nat := none
  sourceIp : Value := .str ""
  sessionType : Value := .str ""
  trustLevel : Int := -1
  action : Value := .str ""
  resource : Value := .str ""
  extra : Dict Value := []

namespace RequestContext

/-- The declared attributes that hold a JSON value, by their Python names. -/
def declared (c : RequestContext) : Dict Value :=
  [("user_role", c.userRole), ("agent_type", c.agentType), ("tool_category", c.toolCategory),
    ("tool_name", c.toolName), ("data_classification", c.dataClassification),
    ("source_ip", c.sourceIp), ("session_type", c.sessionType), ("trust_level", .int c.trustLevel),
    ("action", c.action), ("resource", c.resource)]

/-- `val is not None and val != "" and val != -1`. -/
def isSet (v : Value) : Bool := !(v.pyEq .none) && !(v.pyEq (.str "")) && !(v.pyEq (.int (-1)))

/-- Unset attributes fall back to `extra`, where `None` is the same as missing. -/
def getAttribute (c : RequestContext) (name : String) : Option Attribute :=
  let fallback := match c.extra.get? name with
    | none | some .none => none
    | some v => some (.value v)
  if name = "time_of_day" then
    match c.timeOfDay with
    | some t => some (.time t)
    | none => fallback
  else
    match c.declared.get? name with
    | some v => if isSet v then some (.value v) else fallback
    | none => fallback

/-- `_context_to_dict`: the attributes that go into the audit record. -/
def toDict (py : PyLib) (c : RequestContext) : Dict Value :=
  c.declared.filter (fun e => isSet e.2) ++
    (match c.timeOfDay with
      | some t => [("time_of_day", .str (py.timeIso t))]
      | none => []) ++
    (if c.extra.isEmpty then [] else [("extra", .dict c.extra)])

end RequestContext

/-! ## Rules and decisions -/

structure ABACRule where
  id : String
  effect : Effect
  conditions : List ABACCondition
  priority : Int := 0

/-- All conditions match. The first that does not match ends the walk. -/
def ABACRule.matches (py : PyLib) (ctx : RequestContext) (r : ABACRule) : Except PyError Bool :=
  r.conditions.allM fun c => c.matches py (ctx.getAttribute c.attributeName)

structure ABACDecision where
  effect : Effect
  matchedRules : List String := []
  reason : String
  contextSnapshot : Dict Value
  policyHash : String

def ABACDecision.denied (d : ABACDecision) : Bool := d.effect == .deny

def ABACDecision.toAuditDict (d : ABACDecision) : Value :=
  .dict [("effect", .str d.effect.value), ("matched_rules", .list (d.matchedRules.map .str)),
    ("reason", .str d.reason), ("policy_hash", .str d.policyHash), ("context", .dict d.contextSnapshot)]

structure ABACEvaluator where
  rules : List ABACRule := []
  algorithm : CombineAlgorithm := .denyOverrides
  defaultEffect : Effect := .deny
  policyHash : String := ""

namespace ABACEvaluator

def ruleCount (ev : ABACEvaluator) : Nat := ev.rules.length

/-- `matched` is never empty when this runs. -/
def combine (ev : ABACEvaluator) (effects : List Effect) : Effect :=
  match ev.algorithm with
  | .firstMatch => effects.headD ev.defaultEffect
  | .denyOverrides =>
    if .deny ∈ effects then .deny
    else if .requireApproval ∈ effects then .requireApproval
    else .allow
  | .allowOverrides =>
    if .allow ∈ effects then .allow
    else if .requireApproval ∈ effects then .requireApproval
    else .deny

/-- The rules that match, in order. A rule that raises ends the walk. -/
def matching (py : PyLib) (ctx : RequestContext) : List ABACRule → Except PyError (List ABACRule)
  | [] => .ok []
  | r :: rest => do
    let hit ← r.matches py ctx
    let others ← matching py ctx rest
    return if hit then r :: others else others

def evaluate (py : PyLib) (ev : ABACEvaluator) (ctx : RequestContext) : Except PyError ABACDecision := do
  let matched ← matching py ctx ev.rules
  if matched.isEmpty then
    return {
      effect := ev.defaultEffect
      reason := "No matching rules — default effect applied"
      contextSnapshot := ctx.toDict py
      policyHash := ev.policyHash }
  return {
    effect := ev.combine (matched.map (·.effect))
    matchedRules := matched.map (·.id)
    reason := s!"Matched {matched.length} rules, algorithm={ev.algorithm.value}"
    contextSnapshot := ctx.toDict py
    policyHash := ev.policyHash }

end ABACEvaluator

end Occp.Policy
