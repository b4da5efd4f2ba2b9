import Occp.Value

/-!
# Exceptions

The exceptions that the modelled code raises or catches by name, and one
constructor for every other `Exception`.
-/

namespace Occp

inductive PyError where
  | gateRejected (taskId reason : String)
  | humanRejected (taskId reason : String)
  | confirmationTimeout (taskId : String)
  | execution (taskId detail : String)
  | validation (taskId : String) (failures : List String)
  | budgetExceeded (taskId reason message : String)
  | stageSkip (message : String)
  | workflow (message : String)
  | workflowValidation (workflowId : String) (issues : List String)
  | workflowNotFound (workflowId : String)
  | workflowKilled (executionId : String)
  | valueError (message : String)
  | typeError (message : String)
  | other (cls message : String)
  deriving DecidableEq

structure HTTPException where
  statusCode : Nat
  detail : String
  deriving DecidableEq

namespace PyError

/-- `str(exc)`. -/
def str : PyError → String
  | gateRejected taskId reason => s!"Gate rejected task {taskId}: {reason}"
  | humanRejected taskId reason =>
    let reason := if reason = "" then "no reason given" else reason
    s!"Task {taskId} rejected by human: {reason}"
  | confirmationTimeout taskId => s!"Confirmation timeout for task {taskId}"
  | execution taskId detail => s!"Execution failed for task {taskId}: {detail}"
  | validation taskId failures =>
    let failures := String.intercalate "; " failures
    s!"Validation failed for task {taskId}: {failures}"
  | budgetExceeded _ _ message => message
  | stageSkip message => message
  | workflow message => message
  | workflowValidation workflowId issues =>
    let issues := String.intercalate "; " issues
    s!"Workflow {workflowId} validation failed: {issues}"
  | workflowNotFound workflowId => s!"Workflow not found: {workflowId}"
  | workflowKilled executionId => s!"Workflow execution killed: {executionId}"
  | valueError message => message
  | typeError message => message
  | other _ message => message

end PyError

end Occp
