import Occp.Workflow.Definition

/-!
# Running a workflow (`orchestrator/multi_agent.py`, `store/workflow_store.py`)

One call of `start_workflow` or `resume_execution` that nothing interferes with.
A run carries the writes that it makes to the store, in order, so that a process
that stops after any of them leaves the row of that many writes.
-/

namespace Occp.Workflow

/-! ## The data -/

inductive WorkflowStatus where
  | pending
  | running
  | paused
  | completed
  | failed
  | killed
  deriving DecidableEq

def WorkflowStatus.value : WorkflowStatus → String
  | pending => "pending"
  | running => "running"
  | paused => "paused"
  | completed => "completed"
  | failed => "failed"
  | killed => "killed"

/-- An entry of `node_results`. -/
inductive NodeResult where
  | success (output : Value)
  | failure (error : String)

def NodeResult.output? : NodeResult → Option Value
  | success output => some output
  | failure _ => none

structure WorkflowExecution where
  executionId : String
  workflowId : String
  status : WorkflowStatus
  nodeResults : Dict NodeResult := []
  error : Option String := none

structure WorkflowExecutionRow where
  executionId : String
  workflowId : String
  status : WorkflowStatus
  dagDefinition : WorkflowDefinition
  nodeResults : Dict NodeResult
  currentWave : Nat
  errorDetail : Option String

def WorkflowExecution.row (execution : WorkflowExecution) (d : WorkflowDefinition) (currentWave : Nat) :
    WorkflowExecutionRow where
  executionId := execution.executionId
  workflowId := execution.workflowId
  status := execution.status
  dagDefinition := d
  nodeResults := execution.nodeResults
  currentWave
  errorDetail := execution.error

/-- The output of a node, once it has succeeded. -/
def outputOf (results : Dict NodeResult) (nodeId : String) : Option Value :=
  (results.get? nodeId).bind (·.output?)

/-! ## The store -/

inductive StoreWrite where
  | saveWorkflowExecution (row : WorkflowExecutionRow)
  | updateWorkflowNodeResult (nodeId : String) (result : NodeResult)

/-- What a write leaves of the row. A result for a row that is not there is dropped. -/
def StoreWrite.apply (row : Option WorkflowExecutionRow) : StoreWrite → Option WorkflowExecutionRow
  | saveWorkflowExecution new => some new
  | updateWorkflowNodeResult nodeId result =>
    row.map fun r => { r with nodeResults := r.nodeResults.set nodeId result }

def storedRow (writes : List StoreWrite) : Option WorkflowExecutionRow :=
  writes.foldl StoreWrite.apply none

/-! ## One node -/

/-- The `Task` that `_execute_node` builds, without its random id and its defaults. -/
structure NodeTask where
  name : String
  description : String
  agentType : String
  metadata : Dict Value

/-- `Scheduler.dispatch`: what an attempt at a node comes back with. -/
abbrev Dispatch := (nodeId : String) → (attempt : Nat) → NodeTask → Except PyError Value

def nodeTask (node : AgentNode) (context : Dict Value) (executionId : String) : NodeTask where
  name := node.taskTemplate.name.getD s!"workflow-node-{node.nodeId}"
  description := node.taskTemplate.description.getD ""
  agentType := node.agentType
  metadata :=
    let upstream := node.dependsOn.foldl (fun (u : Dict Value) dep => u.set dep ((context.get? dep).getD .none)) []
    (node.taskTemplate.metadata.getD [])
      |>.set "_workflow_execution_id" (.str executionId)
      |>.set "_node_id" (.str node.nodeId)
      |>.set "_upstream_results" (.dict upstream)
      |>.set "_workflow_input" ((context.get? "input").getD (.dict []))

/-- The retry loop of `_execute_node`. -/
def attempts (node : AgentNode) (dispatch : Nat → Except PyError Value) (retriesLeft attempt : Nat) :
    Except PyError Value :=
  match dispatch attempt with
  | .ok result => .ok result
  | .error (.workflowKilled executionId) => .error (.workflowKilled executionId)
  | .error exc =>
    match retriesLeft with
    | 0 =>
      let tries := 1 + node.retryCount
      .error (.workflow s!"Node {node.nodeId} failed after {tries} attempt(s): {exc.str}")
    | left + 1 => attempts node dispatch left (attempt + 1)

def executeNode (dispatch : Dispatch) (node : AgentNode) (context : Dict Value) (executionId : String) :
    Except PyError Value :=
  attempts node (fun n => dispatch node.nodeId n (nodeTask node context executionId)) node.retryCount 0

/-! ## One wave -/

/-- A run: the execution, the context that its nodes read, and what it has done so far. -/
structure Run where
  execution : WorkflowExecution
  accumulated : Dict Value := []
  writes : List StoreWrite := []
  /-- The tasks that were handed to the scheduler. -/
  handed : List (String × NodeTask) := []

/-- An output goes on to the later nodes. -/
def feedForward (context : Dict Value) (nodeId : String) : NodeResult → Dict Value
  | .success output => context.set nodeId output
  | .failure _ => context

namespace Run

/-- `_persist_execution`. -/
def persist (s : Run) (d : WorkflowDefinition) (currentWave : Nat) : Run :=
  { s with writes := s.writes ++ [.saveWorkflowExecution (s.execution.row d currentWave)] }

def setStatus (s : Run) (status : WorkflowStatus) : Run :=
  { s with execution := { s.execution with status } }

def setError (s : Run) (error : String) : Run :=
  { s with execution := { s.execution with error := some error } }

/-- An entry of `node_results`, its write, and what it feeds forward. -/
def record (s : Run) (nodeId : String) (result : NodeResult) : Run :=
  { s with
    execution := { s.execution with nodeResults := s.execution.nodeResults.set nodeId result }
    accumulated := feedForward s.accumulated nodeId result
    writes := s.writes ++ [.updateWorkflowNodeResult nodeId result] }

/-- The loop over `zip(wave, wave_results)`; it returns `wave_failed`. -/
def recordResults : List (String × Except PyError Value) → (waveFailed : Bool) → Run → Except PyError Bool × Run
  | [], waveFailed, s => (.ok waveFailed, s)
  | (nodeId, result) :: rest, waveFailed, s =>
    match result with
    | .error (.workflowKilled executionId) => (.error (.workflowKilled executionId), s)
    | .error exc => recordResults rest true (s.record nodeId (.failure exc.str))
    | .ok output => recordResults rest waveFailed (s.record nodeId (.success output))

end Run

/-- How a wave ends for its loop: the next wave, an early return, or an exception. -/
inductive WaveEnd where
  | next
  | returned
  | raised (exc : PyError)

section Waves

variable (d : WorkflowDefinition) (dispatch : Dispatch)

/-- The nodes of a wave. Every id of a wave is a key of `node_map`. -/
def waveNodes (nodeIds : List String) : List AgentNode := nodeIds.filterMap d.nodeMap.get?

/-- From `status = RUNNING` to the checkpoint and the failed return: the part of a wave that
`start_workflow` and `resume_execution` share. -/
def runWave (waveIndex : Nat) (nodeIds : List String) (error : String) (s : Run) : WaveEnd × Run :=
  let s := s.setStatus .running
  let context := s.accumulated
  let executionId := s.execution.executionId
  let nodes := waveNodes d nodeIds
  let waveResults := nodes.map fun n => (n.nodeId, executeNode dispatch n context executionId)
  let s := { s with handed := s.handed ++ nodes.map fun n => (n.nodeId, nodeTask n context executionId) }
  match Run.recordResults waveResults false s with
  | (.error exc, s) => (.raised exc, s)
  | (.ok waveFailed, s) =>
    let s := s.persist d (waveIndex + 1)
    if waveFailed then (.returned, ((s.setStatus .failed).setError error).persist d (waveIndex + 1))
    else (.next, s)

/-! ## The two loops -/

/-- The wave loop of `start_workflow`, with what it raises. -/
def startWaves (total : Nat) : (waveIndex : Nat) → List (List String) → Run → Option PyError × Run
  | _, [], s => (none, (s.setStatus .completed).persist d total)
  | waveIndex, wave :: rest, s =>
    match runWave d dispatch waveIndex wave
      s!"One or more nodes failed in wave {waveIndex}: {reprStrings wave}" s with
    | (.next, s) => startWaves total (waveIndex + 1) rest s
    | (.returned, s) => (none, s)
    | (.raised exc, s) => (some exc, s)

/-- The nodes of a wave that have no successful result. -/
def pendingNodes (results : Dict NodeResult) (wave : List String) : List String :=
  wave.filter fun nodeId => (outputOf results nodeId).isNone

/-- The wave loop of `resume_execution`. -/
def resumeWaves (total : Nat) : (waveIndex : Nat) → List (List String) → Run → Option PyError × Run
  | _, [], s => (none, (s.setStatus .completed).persist d total)
  | waveIndex, wave :: rest, s =>
    let pending := pendingNodes s.execution.nodeResults wave
    if pending = [] then resumeWaves total (waveIndex + 1) rest s
    else
      match runWave d dispatch waveIndex pending
        s!"Nodes failed in wave {waveIndex}: {reprStrings pending}" s with
      | (.next, s) => resumeWaves total (waveIndex + 1) rest s
      | (.returned, s) => (none, s)
      | (.raised exc, s) => (some exc, s)

/-- The `except` clauses. -/
def settleRun : Option PyError × Run → Except PyError WorkflowExecution × Run
  | (none, s) => (.ok s.execution, s)
  | (some (.workflowKilled executionId), s) =>
    let error := s!"Workflow execution {s.execution.executionId} was killed"
    (.error (.workflowKilled executionId), ((s.setStatus .killed).setError error).persist d 0)
  | (some exc, s) =>
    let s := ((s.setStatus .failed).setError exc.str).persist d 0
    (.ok s.execution, s)

end Waves

/-! ## The two entry points -/

def startWorkflow (workflows : Dict WorkflowDefinition) (dispatch : Dispatch) (workflowId executionId : String)
    (inputData : Dict Value) : Except PyError WorkflowExecution × Run :=
  let s : Run := { execution := { executionId, workflowId, status := .running } }
  match workflows.get? workflowId with
  | none => (.error (.workflowNotFound workflowId), s)
  | some d =>
    if d.validate = [] then
      let s := s.persist d 0
      settleRun d <|
        match d.topologicalSort with
        | .error exc => (some exc, s)
        | .ok waves => startWaves d dispatch waves.length 0 waves { s with accumulated := [("input", .dict inputData)] }
    else (.error (.workflowValidation workflowId (d.validate.map (·.text))), s)

/-- `input_data or row.dag_definition.get("metadata", {}).get("input", {})`. -/
def resumeInput (d : WorkflowDefinition) : (inputData : Option (Dict Value)) → Value
  | some (entry :: rest) => .dict (entry :: rest)
  | _ => (d.metadata.get? "input").getD (.dict [])

/-- The context, from the results that the row kept. -/
def rebuildContext (input : Value) (results : Dict NodeResult) : Dict Value :=
  results.foldl (fun context e => feedForward context e.1 e.2) [("input", input)]

/-- The execution that `resume_execution` builds from a row. -/
def resumedRun (row : WorkflowExecutionRow) (executionId : String) (inputData : Option (Dict Value)) : Run where
  execution := { executionId, workflowId := row.workflowId, status := .running, nodeResults := row.nodeResults }
  accumulated := rebuildContext (resumeInput row.dagDefinition inputData) row.nodeResults

def resumeExecution (stored : Option WorkflowExecutionRow) (dispatch : Dispatch) (executionId : String)
    (inputData : Option (Dict Value)) : Except PyError WorkflowExecution × Run :=
  match stored with
  | none =>
    (.error (.workflowNotFound executionId), { execution := { executionId, workflowId := "", status := .pending } })
  | some row =>
    let d := row.dagDefinition
    let s := resumedRun row executionId inputData
    if row.status = .running ∨ row.status = .paused then
      match d.topologicalSort with
      | .error exc => (.error exc, s)
      | .ok waves => settleRun d (resumeWaves d dispatch waves.length row.currentWave (waves.drop row.currentWave) s)
    else (.error (.workflow s!"Cannot resume execution in status '{row.status.value}'"), s)

end Occp.Workflow
