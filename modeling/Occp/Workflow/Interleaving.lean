import Occp.Lib.Runs
import Occp.Workflow.WaveRun

/-!
# One execution, interleaved (`orchestrator/multi_agent.py`, `orchestrator/scheduler.py`)

The calls of `start_workflow` and `resume_execution` for one execution id, and its pauses and
kills. Every step ends at an await, and what the store makes of a write is a step of its own.
-/

namespace Occp.Workflow

/-! ## The task of a node -/

inductive Phase where
  /-- Behind the semaphore of its wave. -/
  | waiting
  /-- Past the kill check, behind the semaphore of its agent type. A free slot is taken at once
  in the code; here other steps may come first, as they do when there is none. -/
  | queued (attempt : Nat)
  | running (attempt : Nat)
  | done (result : Except PyError Value)

structure NodeRun where
  node : AgentNode
  phase : Phase := .waiting

namespace NodeRun

def result? (n : NodeRun) : Option (String × Except PyError Value) :=
  match n.phase with
  | .done result => some (n.node.nodeId, result)
  | _ => none

/-- The task is inside the semaphore of its wave. -/
def inside (n : NodeRun) : Bool :=
  match n.phase with
  | .queued _ => true
  | .running _ => true
  | _ => false

/-- Each attempt begins with the kill check. -/
def attempt (killed : Bool) (executionId : String) (number : Nat) : Phase :=
  if killed then .done (.error (.workflowKilled executionId)) else .queued number

/-- What `_execute_node` makes of what an attempt came back with. -/
def settle (killed : Bool) (executionId : String) (n : NodeRun) (number : Nat) : Except PyError Value → Phase
  | .ok output => .done (.ok output)
  | .error (.workflowKilled id) => .done (.error (.workflowKilled id))
  | .error exc =>
    if number < n.node.retryCount then attempt killed executionId (number + 1)
    else
      let tries := 1 + n.node.retryCount
      .done (.error (.workflow s!"Node {n.node.nodeId} failed after {tries} attempt(s): {exc.str}"))

end NodeRun

/-! ## One call of `start_workflow` or `resume_execution` -/

/-- The kill flag and the pause flag of an execution. -/
structure Flags where
  kill : Bool := false
  pause : Bool := false
  deriving DecidableEq

/-- Where a call awaits something. `rest` are the waves after the one it is in. -/
inductive Stage where
  | starting (inputData : Dict Value)
  | paused (waveIndex : Nat) (wave : List String) (rest : List (List String))
  | wave (waveIndex : Nat) (nodes : List NodeRun) (rest : List (List String))
  | results (waveIndex : Nat) (wave : List String) (left : List (String × Except PyError Value)) (waveFailed : Bool)
    (rest : List (List String))
  | checkpointed (waveIndex : Nat) (wave : List String) (waveFailed : Bool) (rest : List (List String))
  | ending
  | ended

structure Runner where
  /-- `resume_execution` rather than `start_workflow`. -/
  resumed : Bool
  definition : WorkflowDefinition
  run : Run
  stage : Stage
  total : Nat := 0
  /-- How many writes of the run the store has made. -/
  saved : Nat := 0

namespace Runner

def executionId (r : Runner) : String := r.run.execution.executionId

def complete (r : Runner) : Runner :=
  { r with run := (r.run.setStatus .completed).persist r.definition r.total, stage := .ending }

/-- `except WorkflowKilledError`. -/
def stop (r : Runner) : Runner :=
  let error := s!"Workflow execution {r.executionId} was killed"
  { r with run := ((r.run.setStatus .killed).setError error).persist r.definition 0, stage := .ending }

/-- `except Exception`. -/
def fail (r : Runner) (exc : PyError) : Runner :=
  { r with run := ((r.run.setStatus .failed).setError exc.str).persist r.definition 0, stage := .ending }

/-- What a look-up of flags raises that another call has popped. -/
def keyError (r : Runner) : PyError := .other "KeyError" (reprString r.executionId)

/-- A wave starts with these nodes. -/
def enter (r : Runner) (waveIndex : Nat) (nodeIds : List String) (rest : List (List String)) : Runner :=
  { r with
    run := r.run.setStatus .running
    stage := .wave waveIndex ((waveNodes r.definition nodeIds).map ({ node := · })) rest }

def pauseAt (r : Runner) (waveIndex : Nat) (wave : List String) (rest : List (List String)) : Runner :=
  { r with run := r.run.setStatus .paused, stage := .paused waveIndex wave rest }

/-- The wave loop up to its next await. Only `start_workflow` looks at the pause flag. -/
def nextWave (flags : Option Flags) (r : Runner) : (waveIndex : Nat) → List (List String) → Runner
  | _, [] => r.complete
  | waveIndex, wave :: rest =>
    match flags with
    | none => r.fail r.keyError
    | some f =>
      if f.kill then r.stop
      else if r.resumed then
        let pending := pendingNodes r.run.execution.nodeResults wave
        if pending = [] then nextWave flags r (waveIndex + 1) rest else r.enter waveIndex pending rest
      else if f.pause then r.pauseAt waveIndex wave rest
      else r.enter waveIndex wave rest

/-- The loop over `zip(wave, wave_results)` up to its next await. -/
def nextResult (r : Runner) (waveIndex : Nat) (wave : List String) (waveFailed : Bool) (rest : List (List String)) :
    List (String × Except PyError Value) → Runner
  | [] => { r with
      run := r.run.persist r.definition (waveIndex + 1), stage := .checkpointed waveIndex wave waveFailed rest }
  | (nodeId, result) :: left =>
    match entryOf result with
    | .error _ => r.stop
    | .ok entry => { r with
        run := r.run.record nodeId entry
        stage := .results waveIndex wave left (waveFailed || entry.output?.isNone) rest }

def waveError (r : Runner) (waveIndex : Nat) (wave : List String) : String :=
  if r.resumed then s!"Nodes failed in wave {waveIndex}: {reprStrings wave}"
  else s!"One or more nodes failed in wave {waveIndex}: {reprStrings wave}"

/-- The failed return after the checkpoint of a wave. -/
def giveUp (r : Runner) (waveIndex : Nat) (wave : List String) : Runner :=
  { r with
    run := ((r.run.setStatus .failed).setError (r.waveError waveIndex wave)).persist r.definition (waveIndex + 1)
    stage := .ending }

/-- From one await to the next. A call whose write is under way cannot go on. -/
def advance (flags : Option Flags) (r : Runner) : Option Runner :=
  if r.saved < r.run.writes.length then none
  else
    match r.stage with
    | .starting inputData =>
      match r.definition.topologicalSort with
      | .error exc => some (r.fail exc)
      | .ok waves =>
        some (nextWave flags
          { r with total := waves.length, run := { r.run with accumulated := [("input", .dict inputData)] } } 0 waves)
    | .paused waveIndex wave rest =>
      match flags with
      | none => some (r.fail r.keyError)
      | some f =>
        if f.kill then some r.stop
        else if f.pause then some (r.pauseAt waveIndex wave rest)
        else some (r.enter waveIndex wave rest)
    | .wave waveIndex nodes rest =>
      (nodes.mapM NodeRun.result?).map (r.nextResult waveIndex (nodes.map (·.node.nodeId)) false rest)
    | .results waveIndex wave left waveFailed rest => some (r.nextResult waveIndex wave waveFailed rest left)
    | .checkpointed waveIndex wave waveFailed rest =>
      if waveFailed then some (r.giveUp waveIndex wave) else some (nextWave flags r (waveIndex + 1) rest)
    | .ending => some { r with stage := .ended }
    | .ended => none

def save (r : Runner) : Option Runner :=
  if r.saved < r.run.writes.length then some { r with saved := r.saved + 1 } else none

/-- The nodes of the wave that is under way. -/
def nodes (r : Runner) : List NodeRun :=
  match r.stage with
  | .wave _ nodes _ => nodes
  | _ => []

end Runner

/-- The first node of this id moves on, if it can. -/
def moveFirst (move : NodeRun → Option Phase) (nodeId : String) : List NodeRun → Option (List NodeRun)
  | [] => none
  | n :: nodes =>
    if n.node.nodeId = nodeId then (move n).map fun phase => { n with phase } :: nodes
    else (moveFirst move nodeId nodes).map (n :: ·)

def Runner.move (r : Runner) (move : NodeRun → Option Phase) (nodeId : String) : Option Runner :=
  match r.stage with
  | .wave waveIndex nodes rest =>
    (moveFirst move nodeId nodes).map fun nodes => { r with stage := .wave waveIndex nodes rest }
  | _ => none

/-! ## The orchestrator, as far as the execution goes -/

/-- A `resume_execution` that has read the row. -/
structure Call where
  inputData : Option (Dict Value)
  row : Option WorkflowExecutionRow

/-- What an observer would note, by the call that does it. -/
inductive Note where
  | entered (runner waveIndex : Nat)
  | begun (runner waveIndex : Nat) (nodeId : String)
  | ended (runner : Nat) (nodeId : String) (succeeded : Bool)
  | finished (runner : Nat) (status : WorkflowStatus)
  | paused
  | resumed
  | killed
  deriving DecidableEq

structure MultiAgentOrchestrator where
  executionId : String
  maxConcurrent : Nat
  row : Option WorkflowExecutionRow := none
  /-- Free slots of the scheduler, by agent type. -/
  free : String → Nat
  /-- Every call that has registered itself. `_executions` has the last one. -/
  runners : List Runner := []
  flags : Option Flags := none
  calls : List Call := []
  /-- Latest first. -/
  log : List Note := []

inductive Act where
  | store
  | advance
  | dispatch (nodeId : String)
  | begin (nodeId : String)
  /-- The dispatch raises before the factory is called. -/
  | reject (nodeId : String) (exc : PyError)
  | finish (nodeId : String) (result : Except PyError Value)

inductive Event where
  | start (definition : WorkflowDefinition) (inputData : Dict Value)
  | read (inputData : Option (Dict Value))
  | resume (call : Nat)
  | act (runner : Nat) (a : Act)
  /-- Other executions take and give back slots. -/
  | slots (agentType : String) (free : Nat)
  | pauseWorkflow
  | resumeWorkflow
  | killWorkflow

namespace MultiAgentOrchestrator

/-- `self._kill_flags.get(execution_id, asyncio.Event()).is_set()`. -/
def isKilled (s : MultiAgentOrchestrator) : Bool := s.flags.any (·.kill)

/-- What a call does next, if it can. -/
def act (s : MultiAgentOrchestrator) (r : Runner) : Act → Option Runner
  | .store => r.save
  | .advance => r.advance s.flags
  | .dispatch nodeId =>
    r.move (fun n =>
      match n.phase with
      | .waiting =>
        if r.nodes.countP (·.inside) < s.maxConcurrent then some (NodeRun.attempt s.isKilled r.executionId 0) else none
      | _ => none) nodeId
  | .begin nodeId =>
    r.move (fun n =>
      match n.phase with
      | .queued number => if 0 < s.free n.node.agentType then some (.running number) else none
      | _ => none) nodeId
  | .reject nodeId exc =>
    r.move (fun n =>
      match n.phase with
      | .queued number => some (n.settle s.isKilled r.executionId number (.error exc))
      | _ => none) nodeId
  | .finish nodeId result =>
    r.move (fun n =>
      match n.phase with
      | .running number => some (n.settle s.isKilled r.executionId number result)
      | _ => none) nodeId

def noteStage (runner : Nat) (r : Runner) : List Note :=
  match r.stage with
  | .wave waveIndex _ _ => [.entered runner waveIndex]
  | .ended => [.finished runner r.run.execution.status]
  | _ => []

/-- What there is to note when call `runner` does this in this stage, and is `r` then. -/
def notes (runner : Nat) (before : Stage) (r : Runner) : Act → List Note
  | .advance => noteStage runner r
  | .begin nodeId =>
    match before with
    | .wave waveIndex _ _ => [.begun runner waveIndex nodeId]
    | _ => []
  | .finish nodeId result => [.ended runner nodeId result.toBool]
  | _ => []

/-- The slots after this, which the node of this id takes or gives back. -/
def freeAfter (s : MultiAgentOrchestrator) (r : Runner) (a : Act) : String → Nat :=
  let agentType (nodeId : String) := (r.definition.nodeMap.get? nodeId).map (·.agentType)
  match a with
  | .begin nodeId => fun t => if agentType nodeId = some t then s.free t - 1 else s.free t
  | .finish nodeId _ => fun t => if agentType nodeId = some t then s.free t + 1 else s.free t
  | _ => s.free

def rowAfter (s : MultiAgentOrchestrator) (r : Runner) : Act → Option WorkflowExecutionRow
  | .store => (r.run.writes[r.saved]?).elim s.row (StoreWrite.apply s.row)
  | _ => s.row

/-- `finally` pops the flags of a call that ends. -/
def flagsAfter (s : MultiAgentOrchestrator) (r' : Runner) : Act → Option Flags
  | .advance =>
    match r'.stage with
    | .ended => none
    | _ => s.flags
  | _ => s.flags

/-- The call that was `r` is `r'` now. -/
def commit (s : MultiAgentOrchestrator) (runner : Nat) (r r' : Runner) (a : Act) : MultiAgentOrchestrator :=
  { s with
    runners := s.runners.set runner r'
    flags := s.flagsAfter r' a
    row := s.rowAfter r a
    free := s.freeAfter r a
    log := notes runner r.stage r' a ++ s.log }

/-- `self._executions[execution_id]`, with fresh flags. -/
def register (s : MultiAgentOrchestrator) (r : Runner) : MultiAgentOrchestrator :=
  { s with runners := s.runners ++ [r], flags := some {} }

/-- The part of `start_workflow` before its first await. The execution id is new. -/
def startWorkflow (s : MultiAgentOrchestrator) (d : WorkflowDefinition) (inputData : Dict Value) :
    MultiAgentOrchestrator :=
  if s.runners.isEmpty && s.row.isNone && d.validate.isEmpty then
    let run : Run := { execution := { executionId := s.executionId, workflowId := d.workflowId, status := .running } }
    s.register { resumed := false, definition := d, run := run.persist d 0, stage := .starting inputData }
  else s

/-- `resume_execution` from the row that it read to its next await. -/
def resumeExecution (s : MultiAgentOrchestrator) (call : Call) : MultiAgentOrchestrator :=
  match call.row with
  | none => s
  | some row =>
    if row.status = .running ∨ row.status = .paused then
      let d := row.dagDefinition
      let r : Runner :=
        { resumed := true, definition := d, run := resumedRun row s.executionId call.inputData, stage := .ended }
      match d.topologicalSort with
      -- This raises outside of the `try`, and leaves the flags where they are.
      | .error _ => s.register r
      | .ok waves =>
        let r := Runner.nextWave (some {}) { r with total := waves.length } row.currentWave (waves.drop row.currentWave)
        let s' := s.register r
        { s' with log := noteStage s.runners.length r ++ s.log }
    else s

def pauseWorkflow (s : MultiAgentOrchestrator) : MultiAgentOrchestrator :=
  match s.runners.getLast?, s.flags with
  | some r, some f =>
    if r.run.execution.status = .running ∨ r.run.execution.status = .pending then
      { s with flags := some { f with pause := true }, log := .paused :: s.log }
    else s
  | _, _ => s

def resumeWorkflow (s : MultiAgentOrchestrator) : MultiAgentOrchestrator :=
  match s.runners.getLast?, s.flags with
  | some r, some f =>
    if r.run.execution.status = .paused ∨ r.run.execution.status = .running then
      { s with
        runners := s.runners.set (s.runners.length - 1) { r with run := r.run.setStatus .running }
        flags := some { f with pause := false }
        log := .resumed :: s.log }
    else s
  | _, _ => s

def killWorkflow (s : MultiAgentOrchestrator) : MultiAgentOrchestrator :=
  match s.runners.getLast?, s.flags with
  | some r, some f =>
    if r.run.execution.status = .completed ∨ r.run.execution.status = .killed then s
    else { s with flags := some { f with kill := true }, log := .killed :: s.log }
  | _, _ => s

def step (s : MultiAgentOrchestrator) : Event → MultiAgentOrchestrator
  | .start definition inputData => s.startWorkflow definition inputData
  | .read inputData => { s with calls := s.calls ++ [⟨inputData, s.row⟩] }
  | .resume call =>
    match s.calls[call]? with
    | some c => { s with calls := s.calls.eraseIdx call }.resumeExecution c
    | none => s
  | .act runner a =>
    match s.runners[runner]? with
    | some r =>
      match s.act r a with
      | some r' => s.commit runner r r' a
      | none => s
    | none => s
  | .slots agentType free => { s with free := fun t => if t = agentType then free else s.free t }
  | .pauseWorkflow => s.pauseWorkflow
  | .resumeWorkflow => s.resumeWorkflow
  | .killWorkflow => s.killWorkflow

end MultiAgentOrchestrator

/-! ## Samples -/

def singleNode : WorkflowDefinition := { workflowId := "w", nodes := [{ nodeId := "a", agentType := "t" }] }

def twoWaves : WorkflowDefinition where
  workflowId := "w"
  nodes := [{ nodeId := "a", agentType := "t" }, { nodeId := "b", agentType := "t", dependsOn := ["a"] }]

/-- An orchestrator that finds this row, and has so many slots for its agent. -/
def orchestrator (row : Option WorkflowExecutionRow) (free : Nat) : MultiAgentOrchestrator where
  executionId := "e"
  maxConcurrent := 5
  free := fun _ => free
  row := row

/-- What an earlier process left of an execution that it had just started. -/
def interruptedRow (d : WorkflowDefinition) : WorkflowExecutionRow where
  executionId := "e"
  workflowId := "w"
  status := .running
  dagDefinition := d
  nodeResults := []
  currentWave := 0
  errorDetail := none

end Occp.Workflow
