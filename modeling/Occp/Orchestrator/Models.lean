import Occp.Errors

/-! # Tasks and pipeline results (`orchestrator/models.py`) -/

namespace Occp

inductive TaskStatus where
  | pending
  | planning
  | awaitingConfirmation
  | gated
  | executing
  | validating
  | shipping
  | completed
  | failed
  | rejected
  deriving DecidableEq

namespace TaskStatus

def value : TaskStatus → String
  | pending => "pending"
  | planning => "planning"
  | awaitingConfirmation => "awaiting_confirmation"
  | gated => "gated"
  | executing => "executing"
  | validating => "validating"
  | shipping => "shipping"
  | completed => "completed"
  | failed => "failed"
  | rejected => "rejected"

def validTransitions : TaskStatus → List TaskStatus
  | pending => [planning, failed]
  | planning => [awaitingConfirmation, gated, failed]
  | awaitingConfirmation => [gated, rejected, failed]
  | gated => [executing, rejected, failed]
  | executing => [validating, failed]
  | validating => [shipping, failed]
  | shipping => [completed, failed]
  | completed => []
  | failed => []
  | rejected => []

/-- A status that nothing leaves. -/
def terminal (s : TaskStatus) : Bool := s.validTransitions.isEmpty

/-- Everything that is not over may still fail. -/
theorem failed_mem_validTransitions (s : TaskStatus) :
    failed ∈ s.validTransitions ↔ s.terminal = false := by
  cases s <;> decide

theorem terminal_iff (s : TaskStatus) :
    s.terminal = true ↔ s = completed ∨ s = failed ∨ s = rejected := by
  cases s <;> decide

end TaskStatus

inductive RiskLevel where
  | low
  | medium
  | high
  | critical
  deriving DecidableEq

def RiskLevel.value : RiskLevel → String
  | low => "low"
  | medium => "medium"
  | high => "high"
  | critical => "critical"

structure Task where
  id : String
  name : String
  description : String
  agentType : String
  riskLevel : RiskLevel := .low
  status : TaskStatus := .pending
  plan : Option Value := none
  error : Option String := none
  metadata : Dict Value := []

namespace Task

def transition (t : Task) (new : TaskStatus) : Except PyError Task :=
  if new ∈ t.status.validTransitions then
    .ok { t with status := new }
  else
    .error (.valueError s!"Invalid transition: {t.status.value} → {new.value}")

end Task

structure PipelineResult where
  taskId : String
  success : Bool
  status : TaskStatus
  evidence : Dict Value
  error : Option String := none

end Occp
