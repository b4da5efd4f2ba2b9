import Mathlib
import Occp.Orchestrator.PipelineOrder

/-!
# How a run ends

The handlers of `run` move the task by fixed transitions. Whether they can is
decided by the call that ends the run: by its stage, which fixes the status of
the task, and by the exception it raises.
-/

open Std.Do

set_option mvcgen.warning false

namespace Occp.Orchestrator

/-! ## The outcome -/

/-- The exceptions that `run` raises on purpose. -/
def isRejection : PyError → Bool
  | .gateRejected .. | .humanRejected .. | .confirmationTimeout .. => true
  | _ => false

/-- The task is over, and what `run` returns or raises says so. -/
structure Settled (result : Except PyError PipelineResult) (task : Task) : Prop where
  terminal : task.status.terminal = true
  returned : ∀ r, result = .ok r → r.status = task.status
  raised : ∀ e, result = .error e → isRejection e = true

/-- The status of the task while a stage's adapter runs. -/
def Stage.status : Stage → TaskStatus
  | .plan => .planning
  | .confirm => .awaitingConfirmation
  | .gate => .gated
  | .execute => .executing
  | .quality => .executing
  | .validate => .validating
  | .ship => .shipping

/-- The handler of `e` leaves a task with this status terminal. -/
def HandledAt (e : PyError) (s : TaskStatus) : Prop :=
  match e with
  | .gateRejected .. => .rejected ∈ s.validTransitions
  | .humanRejected .. | .confirmationTimeout .. => s.terminal = true
  | _ => s.terminal = false

/-! ## The call that ends a run -/

def shipStops (p : Pipeline) (t : Task) : Option (Stage × PyError) :=
  match p.resolveShipper t.agentType { t with status := .shipping } with
  | .error e => some (.ship, e)
  | .ok _ => none

def validateStops (p : Pipeline) (t : Task) : Option (Stage × PyError) :=
  let t := { t with status := .validating }
  match p.resolveValidator t.agentType t with
  | .error e => some (.validate, e)
  | .ok [] => shipStops p t
  | .ok (_ :: _) => none

/-- The review loop. A revision calls the executor outside the retry loop. -/
def reviewStops (p : Pipeline) (gate : QualityGate) (t : Task) :
    (left attempt n : Nat) → (output : Value) → Option (Stage × PyError)
  | left, attempt, n, output =>
    match review gate attempt t output with
    | .error e => some (.quality, e)
    | .ok (_, true) => validateStops p t
    | .ok (checks, false) =>
      match left with
      | 0 => none
      | left + 1 =>
        match gate.getRevisionInstructions attempt checks with
        | .error e => some (.quality, e)
        | .ok instructions =>
          let t := { t with
            metadata := (t.metadata.set "_revision_instructions" instructions).set
              "_revision_attempt" (.int (attempt + 1)) }
          match p.resolveExecutor t.agentType n t with
          | .error e => some (.execute, e)
          | .ok output => reviewStops p gate t left (attempt + 1) (n + 1) output

def qualityStops (p : Pipeline) (t : Task) (n : Nat) (output : Value) : Option (Stage × PyError) :=
  match p.qualityGate with
  | none => validateStops p t
  | some gate => reviewStops p gate t p.qualityMaxRevisions 0 n output

/-- What the attempts come to: the output, and the number of the next call. -/
def attempts (executor : Executor) (t : Task) : (left n : Nat) → Option (Value × Nat)
  | 0, n =>
    match executor n t with
    | .ok output => some (output, n + 1)
    | .error _ => none
  | left + 1, n =>
    match executor n t with
    | .ok output => some (output, n + 1)
    | .error (.execution ..) | .error (.budgetExceeded ..) => none
    | .error _ => attempts executor t left (n + 1)

def toolDenied (p : Pipeline) (proc : Process) (t : Task) : Bool :=
  match p.agentToolGuard with
  | none => false
  | some guard => !(guard t.agentType "execute").allowed && proc.enforceToolGuard

/-- Whatever the executor raises here, `_execute_with_retry` raises an error that `run` expects. -/
def executeStops (p : Pipeline) (proc : Process) (t : Task) : Option (Stage × PyError) :=
  let t := { t with status := .executing }
  if toolDenied p proc t then none
  else
    match attempts (p.resolveExecutor t.agentType) t p.executeRetries 0 with
    | none => none
    | some (output, n) => qualityStops p t n output

def gateStops (p : Pipeline) (proc : Process) (t : Task) : Option (Stage × PyError) :=
  let t := { t with status := .gated }
  match p.policyEngine t with
  | .error e => some (.gate, e)
  | .ok result => if result.approved then executeStops p proc t else none

def confirmStops (p : Pipeline) (proc : Process) (t : Task) : Option (Stage × PyError) :=
  match p.confirmationGate with
  | none => gateStops p proc t
  | some gate =>
    let t := { t with status := .awaitingConfirmation }
    match gate t with
    | .error e => some (.confirm, e)
    | .ok .approved | .ok .autoApproved => gateStops p proc t
    | .ok _ => none

def planStops (p : Pipeline) (proc : Process) (t : Task) : Option (Stage × PyError) :=
  let t := { t with status := .planning }
  match p.resolvePlanner t.agentType t with
  | .error e => some (.plan, e)
  | .ok plan => confirmStops p proc { t with plan := some plan }

/-- The call that ends the run by raising, if one does. The replies of the adapters decide it. -/
def stops (p : Pipeline) (proc : Process) (t : Task) : Option (Stage × PyError) :=
  if (refusal proc).isSome then none else planStops p proc t

/-- An exception that no handler of `run` expects from this stage. -/
def Stray : Stage → PyError → Prop
  | stage, .gateRejected .. => stage ≠ .confirm ∧ stage ≠ .gate
  | _, .humanRejected .. | _, .confirmationTimeout .. => True
  | _, _ => False

theorem handledAt_iff (stage : Stage) (e : PyError) : HandledAt e stage.status ↔ ¬ Stray stage e := by
  cases e <;> cases stage <;> simp [HandledAt, Stray, Stage.status, TaskStatus.validTransitions, TaskStatus.terminal]

/-! ## One spec per stage -/

def lastStage (st : Run) : Option VapStage := st.completedStages.getLast?

@[grind =]
theorem lastStage_complete (t : Task) (ev : Dict Value) (done : List VapStage) (stage : VapStage) (n : Nat)
    (calls : List Event) : lastStage ⟨t, ev, done ++ [stage], n, calls⟩ = some stage := by
  simp [lastStage]

@[grind =]
theorem lastStage_frame (t : Task) (ev : Dict Value) (st : Run) (n : Nat) (calls : List Event) :
    lastStage ⟨t, ev, st.completedStages, n, calls⟩ = lastStage st := rfl

@[grind =]
theorem transition_eq (t : Task) (new : TaskStatus) :
    t.transition new = if new ∈ t.status.validTransitions then .ok { t with status := new }
      else .error (.valueError s!"Invalid transition: {t.status.value} → {new.value}") := rfl

/-- `e` was raised as `stops` says, or on the run's own account with a status that its handler expects. -/
def Raised (stop : Option (Stage × PyError)) (e : PyError) (s : TaskStatus) : Prop :=
  (∃ stage, stop = some (stage, e) ∧ s = stage.status) ∨ (stop = none ∧ HandledAt e s)

variable {p : Pipeline} {proc : Process}

theorem assertStageOrder_spec (s : Run) (stage : VapStage) (h : lastStage s = stage.previous) :
    ⦃fun st => ⌜st = s⌝⦄ assertStageOrder stage ⦃post⟨fun _ st => ⌜st = s⌝, fun _ _ => ⌜False⌝⟩⦄ := by
  mvcgen [assertStageOrder] <;> simp_all +zetaDelta [lastStage]

theorem call_returns {α : Type} (s : Run) (stage : Stage) (reply : Except PyError α) (returned : α → Event) :
    ⦃fun st => ⌜st = s⌝⦄ call stage reply returned
    ⦃post⟨fun a st => ⌜st.task = s.task ∧ st.executions = s.executions ∧ lastStage st = lastStage s ∧ reply = .ok a⌝,
      fun e st => ⌜st.task = s.task ∧ st.executions = s.executions ∧ lastStage st = lastStage s ∧
        reply = .error e⌝⟩⦄ := by
  mvcgen [call, note] <;> grind

attribute [local spec] assertStageOrder_spec call_returns

theorem planStage_outcome (s : Run) (hs : s.task.status = .pending) (hlast : lastStage s = none) :
    ⦃fun st => ⌜st = s⌝⦄ planStage p
    ⦃post⟨fun _ st => ⌜st.task.status = .planning ∧ st.executions = s.executions ∧ lastStage st = some .plan ∧
        planStops p proc s.task = confirmStops p proc st.task⌝,
      fun e st => ⌜Raised (planStops p proc s.task) e st.task.status⌝⟩⦄ := by
  mvcgen [planStage, transition, record, setTask, complete] <;>
    grind [Raised, planStops, Stage.status, TaskStatus.validTransitions, VapStage.previous]

theorem confirmStage_outcome (s : Run) (hs : s.task.status = .planning) :
    ⦃fun st => ⌜st = s⌝⦄ confirmStage p
    ⦃post⟨fun _ st => ⌜.gated ∈ st.task.status.validTransitions ∧ st.executions = s.executions ∧
        lastStage st = lastStage s ∧ confirmStops p proc s.task = gateStops p proc st.task⌝,
      fun e st => ⌜Raised (confirmStops p proc s.task) e st.task.status⌝⟩⦄ := by
  mvcgen [confirmStage, transition, setTask, record, recordStages] <;>
    grind [Raised, confirmStops, Stage.status, TaskStatus.validTransitions, HandledAt, TaskStatus.terminal]

theorem gateStage_outcome (s : Run) (hs : .gated ∈ s.task.status.validTransitions)
    (hlast : lastStage s = some .plan) :
    ⦃fun st => ⌜st = s⌝⦄ gateStage p
    ⦃post⟨fun _ st => ⌜st.task.status = .gated ∧ st.executions = s.executions ∧ lastStage st = some .gate ∧
        gateStops p proc s.task = executeStops p proc st.task⌝,
      fun e st => ⌜Raised (gateStops p proc s.task) e st.task.status⌝⟩⦄ := by
  mvcgen [gateStage, transition, setTask, record, complete] <;>
    grind [Raised, gateStops, Stage.status, TaskStatus.validTransitions, VapStage.previous, HandledAt]

theorem callExecutor_returns (s : Run) :
    ⦃fun st => ⌜st = s⌝⦄ callExecutor p
    ⦃post⟨fun output st => ⌜st.task = s.task ∧ st.executions = s.executions + 1 ∧ lastStage st = lastStage s ∧
        p.resolveExecutor s.task.agentType s.executions s.task = .ok output⌝,
      fun e st => ⌜st.task = s.task ∧ st.executions = s.executions + 1 ∧ lastStage st = lastStage s ∧
        p.resolveExecutor s.task.agentType s.executions s.task = .error e⌝⟩⦄ := by
  mvcgen [callExecutor] <;> grind

def isExecutionError : PyError → Bool
  | .execution .. | .budgetExceeded .. => true
  | _ => false

theorem handledAt_executing (e : PyError) (h : isExecutionError e = true) : HandledAt e .executing := by
  cases e <;> simp_all [isExecutionError, HandledAt, TaskStatus.terminal, TaskStatus.validTransitions]

theorem executeAttempts_outcome (s : Run) (taskId : String) (left : Nat) :
    ⦃fun st => ⌜st = s⌝⦄ executeAttempts p taskId left
    ⦃post⟨fun output st => ⌜st.task = s.task ∧ lastStage st = lastStage s ∧
        attempts (p.resolveExecutor s.task.agentType) s.task left s.executions = some (output, st.executions)⌝,
      fun e st => ⌜st.task = s.task ∧ isExecutionError e = true ∧
        attempts (p.resolveExecutor s.task.agentType) s.task left s.executions = none⌝⟩⦄ := by
  induction left generalizing s with
  | zero =>
    unfold executeAttempts
    mvcgen [callExecutor_returns] <;> grind [attempts, isExecutionError]
  | succ left ih =>
    unfold executeAttempts
    mvcgen [callExecutor_returns, ih] <;> grind [attempts, isExecutionError]

theorem executeStage_outcome (s : Run) (hs : s.task.status = .gated) (hn : s.executions = 0)
    (hlast : lastStage s = some .gate) :
    ⦃fun st => ⌜st = s⌝⦄ executeStage p proc
    ⦃post⟨fun output st => ⌜st.task.status = .executing ∧ lastStage st = some .execute ∧
        executeStops p proc s.task = qualityStops p st.task st.executions output⌝,
      fun e st => ⌜Raised (executeStops p proc s.task) e st.task.status⌝⟩⦄ := by
  mvcgen [executeStage, executeWithRetry, transition, setTask, record, complete, executeAttempts_outcome] <;>
    grind [Raised, executeStops, toolDenied, Stage.status, TaskStatus.validTransitions, VapStage.previous, HandledAt,
      TaskStatus.terminal, handledAt_executing]

theorem qualityAttempts_outcome (gate : QualityGate) (s : Run) (hs : s.task.status = .executing)
    (left attempt : Nat) (output : Value) :
    ⦃fun st => ⌜st = s⌝⦄ qualityAttempts p gate left attempt output
    ⦃post⟨fun passed st => ⌜st.task.status = .executing ∧ lastStage st = lastStage s ∧
        reviewStops p gate s.task left attempt s.executions output = if passed then validateStops p st.task else none⌝,
      fun e st => ⌜st.task.status = .executing ∧ ∃ stage, stage.status = .executing ∧
        reviewStops p gate s.task left attempt s.executions output = some (stage, e)⌝⟩⦄ := by
  induction left generalizing s attempt output with
  | zero =>
    unfold qualityAttempts
    mvcgen [record] <;> grind [reviewStops, Stage.status]
  | succ left ih =>
    unfold qualityAttempts
    mvcgen [record, setTask, callExecutor_returns, note, ih] <;> grind [reviewStops, Stage.status]

theorem qualityStage_outcome (s : Run) (hs : s.task.status = .executing) (output : Value) :
    ⦃fun st => ⌜st = s⌝⦄ qualityStage p output
    ⦃post⟨fun _ st => ⌜st.task.status = .executing ∧ lastStage st = lastStage s ∧
        qualityStops p s.task s.executions output = validateStops p st.task⌝,
      fun e st => ⌜Raised (qualityStops p s.task s.executions output) e st.task.status⌝⟩⦄ := by
  mvcgen [qualityStage, qualityAttempts_outcome] <;>
    grind [qualityStops, Raised, HandledAt, TaskStatus.terminal, TaskStatus.validTransitions]

theorem validateStage_outcome (s : Run) (hs : s.task.status = .executing) (hlast : lastStage s = some .execute) :
    ⦃fun st => ⌜st = s⌝⦄ validateStage p
    ⦃post⟨fun _ st => ⌜st.task.status = .validating ∧ lastStage st = some .validate ∧
        validateStops p s.task = shipStops p st.task⌝,
      fun e st => ⌜Raised (validateStops p s.task) e st.task.status⌝⟩⦄ := by
  mvcgen [validateStage, transition, setTask, record, complete] <;>
    grind [Raised, validateStops, Stage.status, TaskStatus.validTransitions, VapStage.previous, HandledAt,
      TaskStatus.terminal]

theorem shipStage_outcome (s : Run) (hs : s.task.status = .validating) (hlast : lastStage s = some .validate) :
    ⦃fun st => ⌜st = s⌝⦄ shipStage p
    ⦃post⟨fun _ st => ⌜st.task.status = .completed ∧ shipStops p s.task = none⌝,
      fun e st => ⌜Raised (shipStops p s.task) e st.task.status⌝⟩⦄ := by
  mvcgen [shipStage, transition, setTask, record, complete] <;>
    grind [Raised, shipStops, Stage.status, TaskStatus.validTransitions, VapStage.previous]

/-! ## The whole run -/

theorem runStages_outcome (s : Run) (hs : s.task.status = .pending) (hn : s.executions = 0)
    (hlast : lastStage s = none) :
    ⦃fun st => ⌜st = s⌝⦄ runStages p proc
    ⦃post⟨fun r st => ⌜r.status = .completed ∧ st.task.status = .completed ∧ planStops p proc s.task = none⌝,
      fun e st => ⌜Raised (planStops p proc s.task) e st.task.status⌝⟩⦄ := by
  mvcgen [runStages, planStage_outcome, confirmStage_outcome, gateStage_outcome, executeStage_outcome,
    qualityStage_outcome, validateStage_outcome, shipStage_outcome, recordStages] <;> grind

theorem settled_ok_iff (r : PipelineResult) (t : Task) :
    Settled (.ok r) t ↔ t.status.terminal = true ∧ r.status = t.status :=
  ⟨fun h => ⟨h.terminal, h.returned r rfl⟩,
    fun h => ⟨h.1, fun _ hr => by cases hr; exact h.2, (fun _ he => nomatch he)⟩⟩

theorem settled_error_iff (e : PyError) (t : Task) :
    Settled (.error e) t ↔ t.status.terminal = true ∧ isRejection e = true :=
  ⟨fun h => ⟨h.terminal, h.raised e rfl⟩,
    fun h => ⟨h.1, (fun _ hr => nomatch hr), fun _ he => by cases he; exact h.2⟩⟩

/-- A handler settles the task exactly when it expects the exception there. -/
theorem handle_settles_iff (e : PyError) (s : Run) (hs : HandledAt e s.task.status ∨ s.task.status.terminal = false) :
    ⦃fun st => ⌜st = s⌝⦄ handle e
    ⦃post⟨fun r st => ⌜Settled (.ok r) st.task ↔ HandledAt e s.task.status⌝,
      fun e' st => ⌜Settled (.error e') st.task ↔ HandledAt e s.task.status⌝⟩⦄ := by
  mvcgen [handle, transition, tryTransition, setTask, record, recordStages, failedResult] <;>
    grind [settled_ok_iff, settled_error_iff, HandledAt, isRejection, TaskStatus.failed_mem_validTransitions,
      TaskStatus.terminal_iff]

/-- The handlers expect whatever the adapters raise. -/
def Expected (stop : Option (Stage × PyError)) : Prop := ∀ stage e, stop = some (stage, e) → ¬ Stray stage e

theorem raised_expected (stop : Option (Stage × PyError)) (e : PyError) (s : TaskStatus) (h : Raised stop e s) :
    HandledAt e s ↔ Expected stop := by
  rcases h with ⟨stage, rfl, rfl⟩ | ⟨rfl, h⟩
  · rw [handledAt_iff]
    exact ⟨fun h _ _ he => by cases he; exact h, fun h => h stage e rfl⟩
  · exact ⟨fun _ _ _ he => (nomatch he), fun _ => h⟩

theorem raised_handleable (stop : Option (Stage × PyError)) (e : PyError) (s : TaskStatus) (h : Raised stop e s) :
    HandledAt e s ∨ s.terminal = false := by
  rcases h with ⟨stage, -, rfl⟩ | ⟨-, h⟩
  · right
    cases stage <;> rfl
  · exact .inl h

theorem run_settles (p : Pipeline) (proc : Process) (s : Run) (hs : s.task.status = .pending) (hn : s.executions = 0) (hlast : lastStage s = none) :
    ⦃fun st => ⌜st = s⌝⦄ run p proc
    ⦃post⟨fun r st => ⌜Settled (.ok r) st.task ↔ Expected (stops p proc s.task)⌝,
      fun e st => ⌜Settled (.error e) st.task ↔ Expected (stops p proc s.task)⌝⟩⦄ := by
  mvcgen [run, refuse, tryTransition, setTask, record, failedResult, runStages_outcome, handle_settles_iff] <;>
    grind [stops, settled_ok_iff, raised_expected, raised_handleable, Expected, TaskStatus.terminal_iff,
      TaskStatus.validTransitions]

/-- **A run settles its task exactly when no adapter it calls raises a stray exception.** -/
theorem run_settles_iff (p : Pipeline) (proc : Process) (task : Task) (h : task.status = .pending) :
    Settled (runTask p proc task).1 (runTask p proc task).2.task ↔
      ∀ stage e, stops p proc task = some (stage, e) → ¬ Stray stage e := by
  have hrun := Lib.run_of_triple (run_settles p proc { task } h rfl rfl) rfl
  rcases hrun with ⟨r, hr, hsettled⟩ | ⟨e, he, hsettled⟩
  · have hr : (runTask p proc task).1 = .ok r := hr
    rw [hr]
    exact hsettled
  · have he : (runTask p proc task).1 = .error e := he
    rw [he]
    exact hsettled

/-! ## A stray exception -/

/-- Everything agrees, up to the validator. -/
def judgedBy (validator : Validator) : Pipeline where
  planner _ := .ok (.str "plan")
  policyEngine _ := .ok { approved := true, reason := "ok" }
  executor _ _ := .ok (.str "output")
  validator := validator
  shipper _ := .ok (.str "shipped")

def reportTask : Task := { id := "t1", name := "report", description := "", agentType := "general" }

/-- A validator that asks the policy engine again, say, raises GateRejectedError in VALIDATING. -/
def strictValidator : Validator := fun t => .error (.gateRejected t.id "output violates policy")

theorem judged_report_settles :
    Settled (runTask (judgedBy fun _ => .ok []) {} reportTask).1
      (runTask (judgedBy fun _ => .ok []) {} reportTask).2.task :=
  (run_settles_iff (judgedBy fun _ => .ok []) {} reportTask rfl).mpr fun _ _ h => nomatch h

/-- The handler's own transition is illegal there: its ValueError escapes, and the task stays in VALIDATING. -/
theorem stray_gate_rejection_escapes :
    reportTask.status = .pending ∧
      (runTask (judgedBy strictValidator) {} reportTask).1 =
        .error (.valueError "Invalid transition: validating → rejected") ∧
      (runTask (judgedBy strictValidator) {} reportTask).2.task.status = .validating ∧
      ¬ Settled (runTask (judgedBy strictValidator) {} reportTask).1
        (runTask (judgedBy strictValidator) {} reportTask).2.task :=
  ⟨rfl, rfl, rfl, fun h => by cases h.terminal⟩

end Occp.Orchestrator
