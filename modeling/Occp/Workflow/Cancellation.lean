import Occp.Workflow.RunnerSteps

/-!
# Cancelled dispatches (`orchestrator/multi_agent.py`, `orchestrator/scheduler.py`)

The two wave loops, where an agent may also be cancelled. `CancelledError` is no `Exception`:
no `except Exception` catches it, and `gather` hands it over like a result.
-/

namespace Occp.Workflow.Cancellation

/-! ## One dispatch -/

/-- What an `await` comes to. -/
inductive Outcome where
  | returned (result : Value)
  | raised (exc : PyError)
  | cancelled

/-- What the coroutine of an agent comes to, within its timeout or not. -/
inductive AgentEnd where
  | returned (result : Value)
  | raised (exc : PyError)
  | cancelled
  | timedOut

/-- `Scheduler.dispatch`; the agents are registered with their timeouts. -/
def dispatch (agents : Dict Nat) (agentType taskId : String) (ending : AgentEnd) : Outcome :=
  match agents.get? agentType with
  | none => .raised (.other "AgentNotFoundError" s!"No adapter registered for agent type: {agentType}")
  | some timeoutSeconds =>
    match ending with
    | .returned result => .returned result
    | .raised exc => .raised exc
    | .cancelled => .cancelled
    | .timedOut =>
      .raised (.other "SchedulerError" s!"Agent {agentType} timed out after {timeoutSeconds}s for task {taskId}")

/-- What `gather` hands over and a wave passes on: a result, or an exception that it takes for one. -/
inductive Output where
  | value (v : Value)
  | cancelledError

/-- What the world does to the nodes of one execution. The context is the one that a node's task is made of. -/
structure World where
  agents : Dict Nat
  taskId : (nodeId : String) → String
  /-- The kill flag, as a wave and an attempt find it. -/
  killedBefore : (waveIndex : Nat) → Bool
  killed : (nodeId : String) → (attempt : Nat) → Bool
  agent : (nodeId : String) → (attempt : Nat) → (context : Dict Output) → AgentEnd

section Node

variable (executionId : String) (node : AgentNode) (killed : Nat → Bool) (dispatch : Nat → Outcome)

/-- The retry loop of `_execute_node`. -/
def attempts (retriesLeft attempt : Nat) : Outcome :=
  if killed attempt then .raised (.workflowKilled executionId)
  else
    match dispatch attempt with
    | .returned result => .returned result
    | .cancelled => .cancelled
    | .raised (.workflowKilled id) => .raised (.workflowKilled id)
    | .raised exc =>
      match retriesLeft with
      | 0 =>
        let tries := 1 + node.retryCount
        .raised (.workflow s!"Node {node.nodeId} failed after {tries} attempt(s): {exc.str}")
      | left + 1 => attempts left (attempt + 1)

/-- What the last attempt at the node comes to. -/
def lastAttempt (retriesLeft attempt : Nat) : Outcome :=
  if killed attempt then .raised (.workflowKilled executionId)
  else
    match dispatch attempt with
    | .returned result => .returned result
    | .cancelled => .cancelled
    | .raised (.workflowKilled id) => .raised (.workflowKilled id)
    | .raised exc =>
      match retriesLeft with
      | 0 => .raised exc
      | left + 1 => lastAttempt left (attempt + 1)

/-- The node raises what its last attempt raised in words of its own. -/
theorem attempts_cases (left attempt : Nat) :
    attempts executionId node killed dispatch left attempt = lastAttempt executionId killed dispatch left attempt ∨
      ∃ exc message, lastAttempt executionId killed dispatch left attempt = .raised exc ∧
        attempts executionId node killed dispatch left attempt = .raised (.workflow message) := by
  induction left generalizing attempt with
  | zero =>
    unfold attempts lastAttempt
    split
    · exact .inl rfl
    · split
      · exact .inl rfl
      · exact .inl rfl
      · exact .inl rfl
      · exact .inr ⟨_, _, rfl, rfl⟩
  | succ left ih =>
    unfold attempts lastAttempt
    split
    · exact .inl rfl
    · split
      · exact .inl rfl
      · exact .inl rfl
      · exact .inl rfl
      · exact ih (attempt + 1)

/-- Where nothing is cancelled or killed, this is the retry loop of the other model. -/
theorem attempts_eq_of_settled (reply : Nat → Except PyError Value) (left attempt : Nat)
    (hkilled : ∀ n, killed n = false)
    (hreply : ∀ n, dispatch n = match reply n with | .ok result => .returned result | .error exc => .raised exc) :
    attempts executionId node killed dispatch left attempt =
      match Workflow.attempts node reply left attempt with
      | .ok result => .returned result
      | .error exc => .raised exc := by
  induction left generalizing attempt with
  | zero =>
    unfold attempts Workflow.attempts
    rw [hkilled, hreply]
    cases reply attempt with
    | ok result => rfl
    | error exc => cases exc <;> rfl
  | succ left ih =>
    unfold attempts Workflow.attempts
    rw [hkilled, hreply]
    cases reply attempt with
    | ok result => rfl
    | error exc =>
      cases exc with
      | workflowKilled id => rfl
      | _ => exact ih (attempt + 1)

end Node

section World

variable (w : World) (executionId : String) (node : AgentNode) (context : Dict Output)

def World.dispatch (attempt : Nat) : Outcome :=
  Cancellation.dispatch w.agents node.agentType (w.taskId node.nodeId) (w.agent node.nodeId attempt context)

def executeNode : Outcome :=
  if w.killed node.nodeId 0 then .raised (.workflowKilled executionId)
  else attempts executionId node (w.killed node.nodeId) (w.dispatch node context) node.retryCount 0

/-- What the dispatch of the node comes to in the end. -/
def lastDispatch : Outcome :=
  lastAttempt executionId (w.killed node.nodeId) (w.dispatch node context) node.retryCount 0

theorem executeNode_eq : executeNode w executionId node context =
    attempts executionId node (w.killed node.nodeId) (w.dispatch node context) node.retryCount 0 := by
  unfold executeNode
  split
  · next hkilled =>
    unfold attempts
    rw [if_pos hkilled]
  · rfl

end World

/-! ## One wave -/

/-- An entry of `node_results`. -/
inductive Entry where
  | success (output : Output)
  | failure (error : String)

def Entry.ofStored : NodeResult → Entry
  | .success output => .success (.value output)
  | .failure error => .failure error

/-- A wave that has finished: the nodes it ran, the context they read and the results it left. -/
structure FinishedWave where
  nodes : List AgentNode
  context : Dict Output
  nodeResults : Dict Entry

/-- A run of `start_workflow` or `resume_execution`, without its writes to the store. -/
structure Run where
  executionId : String
  status : WorkflowStatus := .running
  nodeResults : Dict Entry := []
  accumulated : Dict Output := []
  error : Option String := none
  finished : List FinishedWave := []

def feedForward (context : Dict Output) (nodeId : String) : Entry → Dict Output
  | .success output => context.set nodeId output
  | .failure _ => context

def Run.record (s : Run) (nodeId : String) (entry : Entry) : Run :=
  { s with
    nodeResults := s.nodeResults.set nodeId entry
    accumulated := feedForward s.accumulated nodeId entry }

/-- The loop over `zip(wave, wave_results)`; it returns `wave_failed`. -/
def recordResults : List (String × Outcome) → (waveFailed : Bool) → Run → Except PyError Bool × Run
  | [], waveFailed, s => (.ok waveFailed, s)
  | (nodeId, result) :: rest, waveFailed, s =>
    match result with
    | .raised (.workflowKilled executionId) => (.error (.workflowKilled executionId), s)
    | .raised exc => recordResults rest true (s.record nodeId (.failure exc.str))
    | .returned output => recordResults rest waveFailed (s.record nodeId (.success (.value output)))
    -- not an instance of `Exception`, so the `else` branch takes it
    | .cancelled => recordResults rest waveFailed (s.record nodeId (.success .cancelledError))

section Waves

variable (w : World) (d : WorkflowDefinition)

def runWave (nodeIds : List String) (error : String) (s : Run) : WaveEnd × Run :=
  let s := { s with status := .running }
  let context := s.accumulated
  let nodes := waveNodes d nodeIds
  let waveResults := nodes.map fun n => (n.nodeId, executeNode w s.executionId n context)
  match recordResults waveResults false s with
  | (.error exc, s) => (.raised exc, s)
  | (.ok waveFailed, s) =>
    let s := { s with finished := s.finished ++ [⟨nodes, context, s.nodeResults⟩] }
    if waveFailed then (.returned, { s with status := .failed, error := some error })
    else (.next, s)

/-! ## The two loops -/

/-- The wave loop of `start_workflow`. A pause only delays a wave. -/
def startWaves : (waveIndex : Nat) → List (List String) → Run → Option PyError × Run
  | _, [], s => (none, { s with status := .completed })
  | waveIndex, wave :: rest, s =>
    if w.killedBefore waveIndex then (some (.workflowKilled s.executionId), s)
    else
      match runWave w d wave s!"One or more nodes failed in wave {waveIndex}: {reprStrings wave}" s with
      | (.next, s) => startWaves (waveIndex + 1) rest s
      | (.returned, s) => (none, s)
      | (.raised exc, s) => (some exc, s)

def Entry.isSuccess : Entry → Bool
  | .success _ => true
  | .failure _ => false

/-- The nodes of a wave that have no successful result. -/
def pendingNodes (results : Dict Entry) (wave : List String) : List String :=
  wave.filter fun nodeId => !(results.get? nodeId).any (·.isSuccess)

/-- The wave loop of `resume_execution`. -/
def resumeWaves : (waveIndex : Nat) → List (List String) → Run → Option PyError × Run
  | _, [], s => (none, { s with status := .completed })
  | waveIndex, wave :: rest, s =>
    if w.killedBefore waveIndex then (some (.workflowKilled s.executionId), s)
    else
      let pending := pendingNodes s.nodeResults wave
      if pending = [] then resumeWaves (waveIndex + 1) rest s
      else
        match runWave w d pending s!"Nodes failed in wave {waveIndex}: {reprStrings pending}" s with
        | (.next, s) => resumeWaves (waveIndex + 1) rest s
        | (.returned, s) => (none, s)
        | (.raised exc, s) => (some exc, s)

end Waves

/-- The `except` clauses. -/
def settleRun : Option PyError × Run → Except PyError Run × Run
  | (none, s) => (.ok s, s)
  | (some (.workflowKilled executionId), s) =>
    let error := s!"Workflow execution {s.executionId} was killed"
    (.error (.workflowKilled executionId), { s with status := .killed, error := some error })
  | (some exc, s) =>
    let s := { s with status := .failed, error := some exc.str }
    (.ok s, s)

/-! ## The two entry points -/

section Calls

variable (w : World)

def startWorkflow (workflows : Dict WorkflowDefinition) (workflowId executionId : String) (inputData : Dict Value) :
    Except PyError Run × Run :=
  let s : Run := { executionId }
  match workflows.get? workflowId with
  | none => (.error (.workflowNotFound workflowId), s)
  | some d =>
    if d.validate = [] then
      settleRun <|
        match d.topologicalSort with
        | .error exc => (some exc, s)
        | .ok waves => startWaves w d 0 waves { s with accumulated := [("input", .value (.dict inputData))] }
    else (.error (.workflowValidation workflowId (d.validate.map (·.text))), s)

/-- The run that `resume_execution` builds from a row. -/
def resumedRun (row : WorkflowExecutionRow) (executionId : String) (inputData : Option (Dict Value)) : Run :=
  let nodeResults := row.nodeResults.map fun e => (e.1, Entry.ofStored e.2)
  { executionId
    nodeResults
    accumulated := nodeResults.foldl (fun context e => feedForward context e.1 e.2)
      [("input", .value (resumeInput row.dagDefinition inputData))] }

def resumeExecution (stored : Option WorkflowExecutionRow) (executionId : String) (inputData : Option (Dict Value)) :
    Except PyError Run × Run :=
  match stored with
  | none => (.error (.workflowNotFound executionId), { executionId, status := .pending })
  | some row =>
    let d := row.dagDefinition
    let s := resumedRun row executionId inputData
    if row.status = .running ∨ row.status = .paused then
      match d.topologicalSort with
      | .error exc => (.error exc, s)
      | .ok waves => settleRun (resumeWaves w d row.currentWave (waves.drop row.currentWave) s)
    else (.error (.workflow s!"Cannot resume execution in status '{row.status.value}'"), s)

inductive Call where
  | start (workflows : Dict WorkflowDefinition) (workflowId executionId : String) (inputData : Dict Value)
  | resume (stored : Option WorkflowExecutionRow) (executionId : String) (inputData : Option (Dict Value))

def Call.executionId : Call → String
  | start _ _ executionId _ => executionId
  | resume _ executionId _ => executionId

def Call.run : Call → Except PyError Run × Run
  | start workflows workflowId executionId inputData => startWorkflow w workflows workflowId executionId inputData
  | resume stored executionId inputData => resumeExecution w stored executionId inputData

end Calls

/-! ## What a finished wave has recorded -/

/-- The entry that an outcome of `_execute_node` is made into. -/
def entryOf : Outcome → Entry
  | .returned output => .success (.value output)
  | .raised exc => .failure exc.str
  | .cancelled => .success .cancelledError

def entriesOf (results : List (String × Outcome)) : List (String × Entry) :=
  results.map fun e => (e.1, entryOf e.2)

theorem recordResults_ok {results : List (String × Outcome)} {waveFailed waveFailed' : Bool} {s s' : Run}
    (h : recordResults results waveFailed s = (.ok waveFailed', s')) :
    s'.nodeResults = s.nodeResults.setAll (entriesOf results) := by
  induction results generalizing waveFailed s with
  | nil =>
    unfold recordResults at h
    cases h
    rfl
  | cons e rest ih =>
    obtain ⟨nodeId, result⟩ := e
    unfold recordResults at h
    split at h
    · cases h
    · exact ih h
    · exact ih h
    · exact ih h

theorem recordResults_keeps (results : List (String × Outcome)) (waveFailed : Bool) (s : Run) :
    (recordResults results waveFailed s).2.finished = s.finished ∧
      (recordResults results waveFailed s).2.executionId = s.executionId := by
  induction results generalizing waveFailed s with
  | nil => exact ⟨rfl, rfl⟩
  | cons e rest ih =>
    obtain ⟨nodeId, result⟩ := e
    unfold recordResults
    split
    · exact ⟨rfl, rfl⟩
    · exact ih _ _
    · exact ih _ _
    · exact ih _ _

section Recorded

variable {w : World} {d : WorkflowDefinition} {executionId : String}

/-- Every node of a finished wave has the entry of what became of it. -/
structure Recorded (w : World) (executionId : String) (s : Run) : Prop where
  sameExecution : s.executionId = executionId
  entry : ∀ wave ∈ s.finished, ∀ n ∈ wave.nodes,
    wave.nodeResults.get? n.nodeId = some (entryOf (executeNode w executionId n wave.context))

theorem runWave_recorded {nodeIds : List String} (hnodup : nodeIds.Nodup) (error : String) {s : Run}
    (hs : Recorded w executionId s) : Recorded w executionId (runWave w d nodeIds error s).2 := by
  obtain ⟨rfl, hentry⟩ := hs
  unfold runWave
  dsimp only
  have hkeeps := recordResults_keeps
    ((waveNodes d nodeIds).map fun n => (n.nodeId, executeNode w s.executionId n s.accumulated)) false
    { s with status := .running }
  split
  · next hrun =>
    rw [hrun] at hkeeps
    refine ⟨hkeeps.2, fun wave hwave => ?_⟩
    rw [hkeeps.1] at hwave
    exact hentry wave hwave
  · next waveFailed s' hrun =>
    have hresults := recordResults_ok hrun
    rw [hrun] at hkeeps
    -- the entries are set one after the other, and no node has two
    have hnew : ∀ n ∈ waveNodes d nodeIds, s'.nodeResults.get? n.nodeId =
        some (entryOf (executeNode w s.executionId n s.accumulated)) := by
      intro n hn
      rw [hresults]
      apply Dict.get?_setAll_of_mem
      · unfold entriesOf
        simpa [List.map_map, Function.comp_def] using hnodup.sublist (waveNodes_sublist d nodeIds)
      · unfold entriesOf
        simp only [List.map_map, List.mem_map, Function.comp_apply]
        exact ⟨n, hn, rfl⟩
    have hrecorded : Recorded w s.executionId
        { s' with finished := s'.finished ++ [⟨waveNodes d nodeIds, s.accumulated, s'.nodeResults⟩] } := by
      refine ⟨hkeeps.2, fun wave hwave => ?_⟩
      rw [hkeeps.1, List.mem_append, List.mem_singleton] at hwave
      rcases hwave with hwave | rfl
      · exact hentry wave hwave
      · exact hnew
    split
    · exact ⟨hrecorded.sameExecution, hrecorded.entry⟩
    · exact hrecorded

theorem startWaves_recorded {waves : List (List String)} (hnodup : waves.flatten.Nodup) (waveIndex : Nat) {s : Run}
    (hs : Recorded w executionId s) : Recorded w executionId (startWaves w d waveIndex waves s).2 := by
  induction waves generalizing waveIndex s with
  | nil => exact ⟨hs.sameExecution, hs.entry⟩
  | cons wave rest ih =>
    rw [List.flatten_cons, List.nodup_append] at hnodup
    have hwave := runWave_recorded (d := d) hnodup.1
      s!"One or more nodes failed in wave {waveIndex}: {reprStrings wave}" hs
    unfold startWaves
    split
    · exact hs
    · split
      · next hrun =>
        rw [hrun] at hwave
        exact ih hnodup.2.1 _ hwave
      · next hrun =>
        rw [hrun] at hwave
        exact hwave
      · next hrun =>
        rw [hrun] at hwave
        exact hwave

theorem resumeWaves_recorded {waves : List (List String)} (hnodup : waves.flatten.Nodup) (waveIndex : Nat) {s : Run}
    (hs : Recorded w executionId s) : Recorded w executionId (resumeWaves w d waveIndex waves s).2 := by
  induction waves generalizing waveIndex s with
  | nil => exact ⟨hs.sameExecution, hs.entry⟩
  | cons wave rest ih =>
    rw [List.flatten_cons, List.nodup_append] at hnodup
    have hwave := runWave_recorded (d := d) (hnodup.1.sublist List.filter_sublist : (pendingNodes s.nodeResults wave).Nodup)
      s!"Nodes failed in wave {waveIndex}: {reprStrings (pendingNodes s.nodeResults wave)}" hs
    unfold resumeWaves
    dsimp only
    split
    · exact hs
    · split
      · exact ih hnodup.2.1 _ hs
      · split
        · next hrun =>
          rw [hrun] at hwave
          exact ih hnodup.2.1 _ hwave
        · next hrun =>
          rw [hrun] at hwave
          exact hwave
        · next hrun =>
          rw [hrun] at hwave
          exact hwave

theorem settleRun_recorded {ended : Option PyError × Run} (hs : Recorded w executionId ended.2) :
    Recorded w executionId (settleRun ended).2 := by
  obtain ⟨_ | exc, s⟩ := ended
  · exact hs
  · cases exc with
    | _ => exact ⟨hs.sameExecution, hs.entry⟩

theorem startWorkflow_recorded (workflows : Dict WorkflowDefinition) (workflowId executionId : String)
    (inputData : Dict Value) : Recorded w executionId (startWorkflow w workflows workflowId executionId inputData).2 := by
  have hnone : ∀ s : Run, s.executionId = executionId → s.finished = [] → Recorded w executionId s := by
    rintro s hid hfinished
    exact ⟨hid, by simp [hfinished]⟩
  unfold startWorkflow
  split
  · exact hnone _ rfl rfl
  · split
    · apply settleRun_recorded
      split
      · exact hnone _ rfl rfl
      · next hsort => exact startWaves_recorded (WorkflowDefinition.nodup_of_topologicalSort hsort) 0 (hnone _ rfl rfl)
    · exact hnone _ rfl rfl

theorem resumeExecution_recorded (stored : Option WorkflowExecutionRow) (executionId : String)
    (inputData : Option (Dict Value)) : Recorded w executionId (resumeExecution w stored executionId inputData).2 := by
  have hnone : ∀ s : Run, s.executionId = executionId → s.finished = [] → Recorded w executionId s := by
    rintro s hid hfinished
    exact ⟨hid, by simp [hfinished]⟩
  unfold resumeExecution
  split
  · exact hnone _ rfl rfl
  · next row =>
    dsimp only
    split
    · split
      · exact hnone _ rfl rfl
      · next waves hsort =>
        have hnodup := WorkflowDefinition.nodup_of_topologicalSort hsort
        rw [← List.take_append_drop row.currentWave waves, List.flatten_append, List.nodup_append] at hnodup
        exact settleRun_recorded (resumeWaves_recorded hnodup.2.1 _ (hnone _ rfl rfl))
    · exact hnone _ rfl rfl

theorem Call.run_recorded (call : Call) : Recorded w call.executionId (call.run w).2 := by
  cases call with
  | start workflows workflowId executionId inputData => exact startWorkflow_recorded ..
  | resume stored executionId inputData => exact resumeExecution_recorded ..

end Recorded

/-! ## Results that tell the truth -/

section Truth

variable (successful : Value → Bool) (w : World) (executionId : String)

/-- The dispatch of the node returned, and what it returned is a success. -/
def Succeeds (n : AgentNode) (context : Dict Output) : Prop :=
  ∃ result, lastDispatch w executionId n context = .returned result ∧ successful result

/-- `success` is true in the entries of the nodes that succeeded, and false in those of the others. -/
def TellsTruth (wave : FinishedWave) : Prop :=
  ∀ n ∈ wave.nodes,
    (Succeeds successful w executionId n wave.context →
      ∃ output, wave.nodeResults.get? n.nodeId = some (.success output)) ∧
    (¬Succeeds successful w executionId n wave.context →
      ∃ error, wave.nodeResults.get? n.nodeId = some (.failure error))

/-- Neither a cancelled dispatch nor a result that is a failure of its own. -/
def Outcome.Plain (outcome : Outcome) : Prop :=
  match outcome with
  | .returned result => successful result = true
  | .raised _ => True
  | .cancelled => False

end Truth

theorem entryOf_executeNode (w : World) (executionId : String) (node : AgentNode) (context : Dict Output) :
    match lastDispatch w executionId node context with
    | .returned result => entryOf (executeNode w executionId node context) = .success (.value result)
    | .raised _ => ∃ message, entryOf (executeNode w executionId node context) = .failure message
    | .cancelled => entryOf (executeNode w executionId node context) = .success .cancelledError := by
  rw [executeNode_eq]
  have hcases := attempts_cases executionId node (w.killed node.nodeId) (w.dispatch node context) node.retryCount 0
  change _ = lastDispatch w executionId node context ∨ (∃ exc message,
    lastDispatch w executionId node context = .raised exc ∧ _) at hcases
  rcases hcases with heq | ⟨exc, message, hlast, heq⟩
  · rw [heq]
    split
    · next hlast => rw [hlast, entryOf]
    · next exc hlast => exact ⟨exc.str, by rw [hlast, entryOf]⟩
    · next hlast => rw [hlast, entryOf]
  · rw [hlast, heq]
    exact ⟨_, rfl⟩

theorem node_results_true_iff (successful : Value → Bool) (w : World) (call : Call) (wave : FinishedWave)
    (h : wave ∈ (call.run w).2.finished) :
    TellsTruth successful w call.executionId wave ↔
      ∀ n ∈ wave.nodes, (lastDispatch w call.executionId n wave.context).Plain successful := by
  unfold TellsTruth
  refine forall₂_congr fun n hn => ?_
  have hentry := (call.run_recorded (w := w)).entry wave h n hn
  have hnode := entryOf_executeNode w call.executionId n wave.context
  unfold Succeeds Outcome.Plain
  cases hlast : lastDispatch w call.executionId n wave.context with
  | returned result =>
    rw [hlast] at hnode
    rw [hentry, hnode]
    simp
  | raised exc =>
    rw [hlast] at hnode
    obtain ⟨message, hmessage⟩ := hnode
    rw [hentry, hmessage]
    simp
  | cancelled =>
    rw [hlast] at hnode
    rw [hentry, hnode]
    simp

/-! A workflow of one node, whose agent is cancelled or returns. -/

def oneNode : WorkflowDefinition where
  workflowId := "w"
  nodes := [{ nodeId := "a", agentType := "demo" }]

def worldOf (ending : AgentEnd) : World where
  agents := [("demo", 60)]
  taskId _ := "t"
  killedBefore _ := false
  killed _ _ := false
  agent _ _ _ := ending

def firstWave (entry : Entry) : FinishedWave where
  nodes := oneNode.nodes
  context := [("input", .value (.dict []))]
  nodeResults := [("a", entry)]

def startOne : Call := .start [("w", oneNode)] "w" "e" []

def resumeOne : Call :=
  .resume (some { executionId := "e", workflowId := "w", status := .running, dagDefinition := oneNode,
                  nodeResults := [], currentWave := 0, errorDetail := none }) "e" none

theorem cancelled_node_recorded_success :
    ∃ wave ∈ (startOne.run (worldOf .cancelled)).2.finished, wave ∈ (resumeOne.run (worldOf .cancelled)).2.finished ∧
      wave.nodeResults.get? "a" = some (.success .cancelledError) ∧
      ¬TellsTruth (fun _ => true) (worldOf .cancelled) "e" wave := by
  refine ⟨firstWave (.success .cancelledError), List.mem_singleton_self _, List.mem_singleton_self _, rfl, fun h => ?_⟩
  obtain ⟨error, hentry⟩ := (h { nodeId := "a", agentType := "demo" } (List.mem_singleton_self _)).2 (by
    rintro ⟨result, hlast, -⟩
    cases hlast)
  cases hentry

theorem returned_node_recorded_success :
    TellsTruth (fun _ => true) (worldOf (.returned .none)) "e" (firstWave (.success (.value .none))) := by
  apply (node_results_true_iff (fun _ => true) (worldOf (.returned .none)) startOne _ (List.mem_singleton_self _)).mpr
  intro n hn
  obtain rfl := List.mem_singleton.mp hn
  rfl

end Occp.Workflow.Cancellation
