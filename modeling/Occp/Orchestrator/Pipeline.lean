import Occp.Policy.Engine

/-!
# The Verified Autonomy Pipeline (`orchestrator/pipeline.py`)

A run is a computation over the task and the evidence that can raise. What it
writes before it raises stays written, as in Python. Logging, metrics, progress
events and timings are left out: nothing reads them back.
-/

namespace Occp.Orchestrator

open Policy (GateResult)

/-! ## Adapters -/

inductive ConfirmationStatus where
  | pending
  | approved
  | rejected
  | timeout
  | autoApproved
  deriving DecidableEq

def ConfirmationStatus.value : ConfirmationStatus → String
  | pending => "pending"
  | approved => "approved"
  | rejected => "rejected"
  | timeout => "timeout"
  | autoApproved => "auto_approved"

abbrev Planner := Task → Except PyError Value

/-- The number is how often the run has called the executor before. -/
abbrev Executor := Nat → Task → Except PyError Value

abbrev Validator := Task → Except PyError (List String)

abbrev Shipper := Task → Except PyError Value

abbrev PolicyGate := Task → Except PyError GateResult

/-- `request_confirmation`. The task id, chat, plan summary, risk level and agent type that it
gets are all read off the task. -/
abbrev ConfirmationGate := Task → Except PyError ConfirmationStatus

/-- The number is the revision attempt. -/
structure QualityGate where
  runQualityGate : Nat → (agentType taskId : String) → (output : Value) → Except PyError (List Value)
  brainFinalReview : Nat → (taskId : String) → (checks : List Value) → Except PyError Bool
  getRevisionInstructions : Nat → (checks : List Value) → Except PyError Value

structure ToolAccess where
  allowed : Bool
  reason : String

/-! ## Adapter registry (`orchestrator/adapter_registry.py`) -/

structure AdapterSet where
  planner : Option Planner := none
  executor : Option Executor := none
  validator : Option Validator := none
  shipper : Option Shipper := none

structure AdapterRegistry where
  defaultPlanner : Planner
  defaultExecutor : Executor
  defaultValidator : Validator
  defaultShipper : Shipper
  overrides : Dict AdapterSet := []

namespace AdapterRegistry

def getPlanner (r : AdapterRegistry) (agentType : String) : Planner :=
  ((r.overrides.get? agentType).bind (·.planner)).getD r.defaultPlanner

def getExecutor (r : AdapterRegistry) (agentType : String) : Executor :=
  ((r.overrides.get? agentType).bind (·.executor)).getD r.defaultExecutor

def getValidator (r : AdapterRegistry) (agentType : String) : Validator :=
  ((r.overrides.get? agentType).bind (·.validator)).getD r.defaultValidator

def getShipper (r : AdapterRegistry) (agentType : String) : Shipper :=
  ((r.overrides.get? agentType).bind (·.shipper)).getD r.defaultShipper

def source {α : Type} (override : Option α) : Value :=
  .str (if override.isSome then "override" else "default")

def getRoutingInfo (r : AdapterRegistry) (agentType : String) : Value :=
  let override := (r.overrides.get? agentType).getD {}
  .dict [("planner", source override.planner), ("executor", source override.executor),
    ("validator", source override.validator), ("shipper", source override.shipper)]

end AdapterRegistry

/-! ## Configuration -/

/-- `_STAGE_NAMES`, in order. -/
inductive VapStage where
  | plan
  | gate
  | execute
  | validate
  | ship
  deriving DecidableEq

namespace VapStage

def name : VapStage → String
  | plan => "plan"
  | gate => "gate"
  | execute => "execute"
  | validate => "validate"
  | ship => "ship"

/-- The stage that `_STAGE_SEQUENCE` puts before this one. -/
def previous : VapStage → Option VapStage
  | plan => none
  | gate => some plan
  | execute => some gate
  | validate => some execute
  | ship => some validate

end VapStage

/-- What the process around the pipeline decides. -/
structure Process where
  /-- `KillSwitchActive` as text, when `require_kill_switch_inactive` raises. -/
  killSwitch : Option String := none
  /-- The Redis probe, when that backend is configured: it raises, or says why it is active. -/
  redisKillSwitch : Option (Except PyError (Option String)) := none
  /-- `OCCP_AGENT_TOOL_GUARD_ENFORCE`. -/
  enforceToolGuard : Bool := false

structure Pipeline where
  planner : Planner
  policyEngine : PolicyGate
  executor : Executor
  validator : Validator
  shipper : Shipper
  registry : Option AdapterRegistry := none
  executeRetries : Nat := 0
  confirmationGate : Option ConfirmationGate := none
  qualityGate : Option QualityGate := none
  qualityMaxRevisions : Nat := 2
  /-- `check_access(agent_type, tool)`. -/
  agentToolGuard : Option (String → String → ToolAccess) := none

namespace Pipeline

def resolvePlanner (p : Pipeline) (agentType : String) : Planner :=
  match p.registry with
  | some r => r.getPlanner agentType
  | none => p.planner

def resolveExecutor (p : Pipeline) (agentType : String) : Executor :=
  match p.registry with
  | some r => r.getExecutor agentType
  | none => p.executor

def resolveValidator (p : Pipeline) (agentType : String) : Validator :=
  match p.registry with
  | some r => r.getValidator agentType
  | none => p.validator

def resolveShipper (p : Pipeline) (agentType : String) : Shipper :=
  match p.registry with
  | some r => r.getShipper agentType
  | none => p.shipper

end Pipeline

/-! ## A run -/

/-- The components that a run calls, in the order it calls them. -/
inductive Stage where
  | plan
  | confirm
  | gate
  | execute
  | quality
  | validate
  | ship
  deriving DecidableEq

/-- One entry of the call log. The code keeps no such log; it is what an observer of the adapters sees. -/
inductive Event where
  | invoked (s : Stage)
  | planned (plan : Value)
  | confirmed (status : ConfirmationStatus)
  | gated (approved : Bool)
  | executed (output : Value)
  | reviewed (output : Value) (passed : Bool)
  | validated (failures : List String)
  | shipped (output : Value)
  | raised (s : Stage) (e : PyError)

structure Run where
  task : Task
  evidence : Dict Value := []
  completedStages : List VapStage := []
  executions : Nat := 0
  /-- Newest first. -/
  calls : List Event := []

abbrev PipelineM := ExceptT PyError (StateM Run)

def note (e : Event) : PipelineM Unit :=
  modify fun s => { s with calls := e :: s.calls }

def record (key : String) (v : Value) : PipelineM Unit :=
  modify fun s => { s with evidence := s.evidence.set key v }

/-- `evidence["_completed_stages"] = completed_stages`. -/
def recordStages : PipelineM Unit :=
  modify fun s => { s with
    evidence := s.evidence.set "_completed_stages" (.list (s.completedStages.map fun v => .str v.name)) }

def setTask (f : Task → Task) : PipelineM Unit :=
  modify fun s => { s with task := f s.task }

/-- `task.transition(new)`. -/
def transition (new : TaskStatus) : PipelineM Unit := do
  match (← get).task.transition new with
  | .ok t => setTask fun _ => t
  | .error e => throw e

/-- `task.transition(new)` with every exception swallowed. -/
def tryTransition (new : TaskStatus) : PipelineM Unit := do
  match (← get).task.transition new with
  | .ok t => setTask fun _ => t
  | .error _ => pure ()

/-- One call of an adapter: what it replies is returned or raised. -/
def call {α : Type} (stage : Stage) (reply : Except PyError α) (returned : α → Event) : PipelineM α := do
  note (.invoked stage)
  match reply with
  | .ok a =>
    note (returned a)
    return a
  | .error e =>
    note (.raised stage e)
    throw e

def assertStageOrder (stage : VapStage) : PipelineM Unit := do
  let completed := (← get).completedStages
  let names := ", ".intercalate (completed.map fun v => s!"'{v.name}'")
  match stage.previous with
  | none =>
    if completed ≠ [] then
      throw (.stageSkip s!"Stage '{stage.name}' must be first but [{names}] already completed")
  | some previous =>
    if completed.getLast? ≠ some previous then
      throw (.stageSkip (s!"Stage '{stage.name}' requires '{previous.name}' to be completed first. " ++
        s!"Completed stages: [{names}]"))

def complete (stage : VapStage) : PipelineM Unit :=
  modify fun s => { s with completedStages := s.completedStages ++ [stage] }

/-! ## The stages -/

def planStage (p : Pipeline) : PipelineM Unit := do
  assertStageOrder .plan
  transition .planning
  let task := (← get).task
  let plan ← call .plan (p.resolvePlanner task.agentType task) .planned
  setTask fun t => { t with plan := some plan }
  record "plan" plan
  complete .plan

/-- The human confirmation between PLAN and GATE. -/
def confirmStage (p : Pipeline) : PipelineM Unit := do
  match p.confirmationGate with
  | none => pure ()
  | some gate =>
    transition .awaitingConfirmation
    let task := (← get).task
    let status ← call .confirm (gate task) .confirmed
    record "confirmation" (.dict [("status", .str status.value), ("risk_level", .str task.riskLevel.value)])
    if status ≠ .approved ∧ status ≠ .autoApproved then
      transition .rejected
      recordStages
      if status = .timeout then
        throw (.confirmationTimeout task.id)
      else
        throw (.humanRejected task.id s!"Human rejected task (response: {status.value})")

def gateStage (p : Pipeline) : PipelineM Unit := do
  assertStageOrder .gate
  transition .gated
  let task := (← get).task
  let result ← call .gate (p.policyEngine task) fun r => .gated r.approved
  if result.approved = false then
    throw (.gateRejected task.id result.reason)
  record "gate" (.dict result.toDecisionRecord)
  complete .gate

def callExecutor (p : Pipeline) : PipelineM Value := do
  let s ← get
  modify fun s => { s with executions := s.executions + 1 }
  call .execute (p.resolveExecutor s.task.agentType s.executions s.task) .executed

/-- The retry loop, with `left` attempts after this one. -/
def executeAttempts (p : Pipeline) (taskId : String) : (left : Nat) → PipelineM Value
  | 0 =>
    tryCatch (callExecutor p) fun
      | .execution id detail => throw (.execution id detail)
      | .budgetExceeded id reason message => throw (.budgetExceeded id reason message)
      | e => throw (.execution taskId s!"All {1 + p.executeRetries} attempts failed: {e.str}")
  | left + 1 =>
    tryCatch (callExecutor p) fun
      | .execution id detail => throw (.execution id detail)
      | .budgetExceeded id reason message => throw (.budgetExceeded id reason message)
      | _ => executeAttempts p taskId left

def executeWithRetry (p : Pipeline) (proc : Process) : PipelineM Value := do
  let task := (← get).task
  match p.agentToolGuard with
  | none => pure ()
  | some guard =>
    let check := guard task.agentType "execute"
    if check.allowed = false ∧ proc.enforceToolGuard = true then
      throw (.execution task.id s!"AgentToolGuard denied: {check.reason}")
  executeAttempts p task.id p.executeRetries

def executeStage (p : Pipeline) (proc : Process) : PipelineM Value := do
  assertStageOrder .execute
  transition .executing
  let output ← executeWithRetry p proc
  record "execution" output
  complete .execute
  return output

/-- One review: the checks, then the final review of them. -/
def review (gate : QualityGate) (attempt : Nat) (task : Task) (output : Value) :
    Except PyError (List Value × Bool) := do
  let checks ← gate.runQualityGate attempt task.agentType task.id output
  let passed ← gate.brainFinalReview attempt task.id checks
  return (checks, passed)

/-- The revision loop of `_run_quality_gate`, with `left` revisions still allowed. -/
def qualityAttempts (p : Pipeline) (gate : QualityGate) :
    (left attempt : Nat) → (output : Value) → PipelineM Bool
  | left, attempt, output => do
    let task := (← get).task
    let (checks, passed) ← call .quality (review gate attempt task output) fun r => .reviewed output r.2
    record s!"quality_gate_attempt_{attempt}" (.dict [("checks", .list checks), ("passed", .bool passed)])
    if passed then
      record "quality_gate" (.dict [("passed", .bool true), ("attempts", .int (attempt + 1))])
      return true
    else
      match left with
      | 0 =>
        record "quality_gate" (.dict [("passed", .bool false), ("attempts", .int (1 + p.qualityMaxRevisions))])
        return false
      | left + 1 =>
        match gate.getRevisionInstructions attempt checks with
        | .error e =>
          note (.raised .quality e)
          throw e
        | .ok instructions =>
          setTask fun t => { t with
            metadata := (t.metadata.set "_revision_instructions" instructions).set
              "_revision_attempt" (.int (attempt + 1)) }
          let output ← callExecutor p
          record s!"execution_revision_{attempt + 1}" output
          qualityAttempts p gate left (attempt + 1) output

/-- The quality gate between EXECUTE and VALIDATE. -/
def qualityStage (p : Pipeline) (output : Value) : PipelineM Unit := do
  match p.qualityGate with
  | none => pure ()
  | some gate =>
    let passed ← qualityAttempts p gate p.qualityMaxRevisions 0 output
    if passed = false then
      let task := (← get).task
      throw (.validation task.id [s!"Quality gate failed after {p.qualityMaxRevisions} revision attempts"])

def validateStage (p : Pipeline) : PipelineM Unit := do
  assertStageOrder .validate
  transition .validating
  let task := (← get).task
  let failures ← call .validate (p.resolveValidator task.agentType task) .validated
  if failures ≠ [] then
    throw (.validation task.id failures)
  record "validation" (.dict [("passed", .bool true)])
  complete .validate

def shipStage (p : Pipeline) : PipelineM Unit := do
  assertStageOrder .ship
  transition .shipping
  let task := (← get).task
  let output ← call .ship (p.resolveShipper task.agentType task) .shipped
  record "ship" output
  complete .ship
  transition .completed

/-- The body of `run`'s `try`. -/
def runStages (p : Pipeline) (proc : Process) : PipelineM PipelineResult := do
  planStage p
  confirmStage p
  gateStage p
  let output ← executeStage p proc
  qualityStage p output
  validateStage p
  shipStage p
  recordStages
  let s ← get
  return { taskId := s.task.id, success := true, status := .completed, evidence := s.evidence }

/-! ## The handlers -/

/-- A FAILED result with the task as it stands. -/
def failedResult (message : String) : PipelineM PipelineResult := do
  let s ← get
  return { taskId := s.task.id, success := false, status := .failed, evidence := s.evidence, error := some message }

/-- The `except` clauses of `run`. -/
def handle (e : PyError) : PipelineM PipelineResult := do
  match e with
  | .gateRejected .. =>
    transition .rejected
    recordStages
    throw e
  | .humanRejected .. | .confirmationTimeout .. =>
    -- The source relies on the confirm block having moved the task to REJECTED.
    recordStages
    throw e
  | .budgetExceeded taskId reason message =>
    tryTransition .failed
    setTask fun t => { t with error := some message }
    recordStages
    record "_budget_exceeded" (.dict [("task_id", .str taskId), ("reason", .str reason)])
    failedResult s!"budget_exceeded: {message}"
  | _ =>
    transition .failed
    setTask fun t => { t with error := some e.str }
    recordStages
    failedResult e.str

/-- The result when a kill switch is active. The task may already be terminal. -/
def refuse (evidence : Dict Value) (taskError error : String) : PipelineM PipelineResult := do
  tryTransition .failed
  setTask fun t => { t with error := some taskError }
  record "_kill_switch" (.dict evidence)
  failedResult error

/-- Why the run is refused before it starts. A Redis probe that raises is only logged. -/
def refusal (proc : Process) : Option (Dict Value × String × String) :=
  match proc.killSwitch, proc.redisKillSwitch with
  | some exc, _ =>
    some ([("blocked", .bool true), ("reason", .str exc)], s!"kill_switch_active: {exc}",
      s!"kill_switch_active: {exc}")
  | none, some (.ok (some reason)) =>
    some ([("blocked", .bool true), ("backend", .str "redis"), ("reason", .str reason)],
      s!"kill_switch_active (redis): {reason}", s!"kill_switch_active: {reason}")
  | none, _ => none

def run (p : Pipeline) (proc : Process) : PipelineM PipelineResult := do
  match refusal proc with
  | some (evidence, taskError, error) => refuse evidence taskError error
  | none =>
    match p.registry with
    | some r => record "_routing" (r.getRoutingInfo (← get).task.agentType)
    | none => pure ()
    tryCatch (runStages p proc) handle

/-- What a run returns or raises, and the state it leaves. -/
def runTask (p : Pipeline) (proc : Process) (task : Task) : Except PyError PipelineResult × Run :=
  (run p proc).run { task }

/-- A run that is refused calls no component. -/
theorem calls_of_refusal {proc : Process} (h : (refusal proc).isSome = true) (p : Pipeline) (task : Task) :
    (runTask p proc task).2.calls = [] := by
  obtain ⟨⟨evidence, taskError, error⟩, hrefusal⟩ := Option.isSome_iff_exists.mp h
  unfold runTask run
  rw [hrefusal]
  unfold refuse tryTransition
  cases htask : task.transition .failed with
  | ok failed =>
    simp only [ExceptT.run, bind, ExceptT.bind, ExceptT.mk, get, getThe, MonadStateOf.get, liftM, monadLift,
      MonadLift.monadLift, ExceptT.lift, StateT.bind, StateT.get, Functor.map, StateT.map, pure, ExceptT.bindCont, htask]
    rfl
  | error e =>
    simp only [ExceptT.run, bind, ExceptT.bind, ExceptT.mk, get, getThe, MonadStateOf.get, liftM, monadLift,
      MonadLift.monadLift, ExceptT.lift, StateT.bind, StateT.get, Functor.map, StateT.map, pure, ExceptT.bindCont, htask]
    rfl

end Occp.Orchestrator
