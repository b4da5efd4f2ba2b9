import Occp.Lib.Workers
import Occp.Text

/-!
# Parallel dispatch (`ParallelDispatcher` of `orchestrator/multi_agent.py`)

Every dispatch of a dispatcher gathers one coroutine for each of its tasks, and all of them
share the dispatcher's semaphore. A coroutine writes the status of its task. A cancellation,
like any exception that is no `Exception`, passes by what it catches.
-/

namespace Occp.Workflow

open Lib

inductive DispatchTaskStatus where
  | dispatched
  | running
  | completed
  | failed
  | timeout
  deriving DecidableEq

def DispatchTaskStatus.isTerminal : DispatchTaskStatus → Bool
  | completed | failed | timeout => true
  | dispatched | running => false

structure DispatchTaskResult where
  agentId : Value
  taskInput : Value
  status : DispatchTaskStatus := .dispatched
  result : Option Value := none
  error : Option String := none

/-- `ParallelDispatchState.tasks`. -/
abbrev ParallelDispatchState := List DispatchTaskResult

namespace ParallelDispatchState

def total (state : ParallelDispatchState) : Nat := state.length

def completed (state : ParallelDispatchState) : Nat := state.countP (·.status = .completed)

def failed (state : ParallelDispatchState) : Nat := state.countP fun t => t.status = .failed || t.status = .timeout

def pending (state : ParallelDispatchState) : Nat := state.countP fun t => t.status = .dispatched || t.status = .running

/-- Every task counts once. -/
theorem completed_add_failed_add_pending (state : ParallelDispatchState) :
    state.completed + state.failed + state.pending = state.total := by
  unfold completed failed pending total
  induction state with
  | nil => rfl
  | cons t state ih =>
    simp only [List.countP_cons, List.length_cons]
    cases t.status <;> simp <;> omega

theorem pending_eq_zero_iff (state : ParallelDispatchState) :
    state.pending = 0 ↔ ∀ t ∈ state, t.status.isTerminal = true := by
  rw [pending, List.countP_eq_zero]
  refine forall₂_congr fun t _ => ?_
  cases t.status <;> simp [DispatchTaskStatus.isTerminal]

end ParallelDispatchState

/-- How the call of an executor comes to its end within `wait_for`. Where `str` of the exception
raises too there is no text. -/
inductive ExecutorOutcome where
  | returned (result : Value)
  | timedOut
  | raised (text : Option String)

/-- The arguments of `_run_single`. -/
structure Single where
  taskResult : DispatchTaskResult
  timeout : Value

structure ParallelDispatcher where
  maxConcurrent : Nat := 12
  defaultTimeout : Int := 120
  /-- `str` of a value that is no string. -/
  text : Value → String

def agentOf (task : Dict Value) : Value := (task.get? "agent_id").getD (.str "unknown")

def inputOf (task : Dict Value) : Value := (task.get? "input").getD (.str "")

namespace ParallelDispatcher

def prepare (dispatcher : ParallelDispatcher) (task : Dict Value) : Single where
  taskResult := { agentId := agentOf task, taskInput := inputOf task }
  timeout := (task.get? "timeout").getD (.int dispatcher.defaultTimeout)

/-- What a turn of `_run_single` writes. -/
def runSingle (dispatcher : ParallelDispatcher) (x : Single) : Turn ExecutorOutcome → Single
  | .start => { x with taskResult := { x.taskResult with status := .running } }
  | .finish (.returned result) => { x with taskResult := { x.taskResult with status := .completed, result := some result } }
  | .finish .timedOut =>
    { x with
      taskResult :=
        { x.taskResult with
          status := .timeout
          error := some ("Timeout after " ++ Text.inserted dispatcher.text x.timeout ++ "s") } }
  | .finish (.raised text) => { x with taskResult := { x.taskResult with status := .failed, error := text } }
  | .cancel => x

/-- The dispatches with the tasks that each was called with. -/
abbrev Dispatches := Pool (List (Dict Value)) Single ExecutorOutcome

inductive Event where
  | dispatch (tasks : List (Dict Value))
  | turn (dispatch task : Nat) (t : Turn ExecutorOutcome)

variable (dispatcher : ParallelDispatcher)

def step (s : Dispatches) : Event → Dispatches
  | .dispatch tasks => s.gather tasks (tasks.map dispatcher.prepare)
  | .turn d i t => (s.turn dispatcher.runSingle d i t).getD s

def start : Dispatches where
  free := dispatcher.maxConcurrent

def stateOf (crew : Crew (List (Dict Value)) Single ExecutorOutcome) : ParallelDispatchState :=
  crew.workers.map (·.data.taskResult)

/-- One result for each task, in its place, each of them final and counted. -/
structure Accounted (crew : Crew (List (Dict Value)) Single ExecutorOutcome) : Prop where
  results : (stateOf crew).map (fun t => (t.agentId, t.taskInput)) = crew.info.map fun task => (agentOf task, inputOf task)
  terminal : ∀ t ∈ stateOf crew, t.status.isTerminal = true
  counted : (stateOf crew).completed + (stateOf crew).failed = crew.info.length
  pending : (stateOf crew).pending = 0

/-- A coroutine of the dispatch is cancelled, while it waits or in its executor. -/
def cancels (s : Dispatches) (d : Nat) : Event → Bool
  | .dispatch _ => false
  | .turn d' i t => d' = d && t.isCancel && (s.turn dispatcher.runSingle d' i t).isSome

/-! ## What a coroutine writes -/

/-- The status that a coroutine has written when it is there. -/
def statusAt : Position ExecutorOutcome → DispatchTaskStatus
  | .waiting | .cancelled false => .dispatched
  | .working | .cancelled true => .running
  | .ended (.returned _) => .completed
  | .ended .timedOut => .timeout
  | .ended (.raised _) => .failed

theorem isTerminal_statusAt {here : Position ExecutorOutcome} (hover : here.isOver = true) :
    (statusAt here).isTerminal = true ↔ here.isCancelled = false := by
  cases here with
  | waiting | working => cases hover
  | ended outcome => cases outcome <;> exact iff_of_true rfl rfl
  | cancelled started => cases started <;> exact iff_of_false (by decide) (by decide)

/-- A coroutine for each task in its place, and in each task the status that its own has written. -/
structure Faithful (crew : Crew (List (Dict Value)) Single ExecutorOutcome) : Prop where
  tasks : (stateOf crew).map (fun t => (t.agentId, t.taskInput)) = crew.info.map fun task => (agentOf task, inputOf task)
  status : ∀ w ∈ crew.workers, w.data.taskResult.status = statusAt w.position

variable {dispatcher : ParallelDispatcher} {s s' : Dispatches} {d i : Nat} {t : Turn ExecutorOutcome}
  {crew : Crew (List (Dict Value)) Single ExecutorOutcome}

theorem runSingle_names (x : Single) (t : Turn ExecutorOutcome) :
    ((dispatcher.runSingle x t).taskResult.agentId, (dispatcher.runSingle x t).taskResult.taskInput) =
      (x.taskResult.agentId, x.taskResult.taskInput) := by
  unfold runSingle
  split <;> rfl

theorem runSingle_status {x : Single} {here there : Position ExecutorOutcome} (hnext : here.next t = some there)
    (hx : x.taskResult.status = statusAt here) : (dispatcher.runSingle x t).taskResult.status = statusAt there := by
  cases here with
  | ended | cancelled => cases hnext
  | waiting =>
    cases t with
    | finish => cases hnext
    | start | cancel =>
      cases hnext
      first | rfl | exact hx
  | working =>
    cases t with
    | start => cases hnext
    | cancel =>
      cases hnext
      exact hx
    | finish outcome =>
      cases hnext
      cases outcome <;> rfl

theorem Faithful.turn {w : Worker Single ExecutorOutcome} {there : Position ExecutorOutcome} (h : Faithful crew)
    (hmoved : Moved dispatcher.runSingle s s' d i t crew w there) :
    Faithful (crew.after dispatcher.runSingle i w t there) where
  tasks := by
    refine Eq.trans ?_ h.tasks
    rw [stateOf, stateOf, List.map_map, List.map_map]
    exact map_set_of_eq hmoved.hworker (runSingle_names w.data t)
  status :=
    hmoved.forall_workers (p := fun w => w.data.taskResult.status = statusAt w.position) h.status
      (runSingle_status hmoved.hnext)

theorem faithful_gather (dispatcher : ParallelDispatcher) (tasks : List (Dict Value)) :
    Faithful { info := tasks, workers := (tasks.map dispatcher.prepare).map fun x => { data := x } } where
  tasks := by
    simp only [stateOf, List.map_map]
    rfl
  status w hw := by
    simp only [List.map_map, List.mem_map, Function.comp_apply] at hw
    obtain ⟨task, -, rfl⟩ := hw
    rfl

theorem faithful_step (h : ∀ crew ∈ s.crews, Faithful crew) (e : Event) :
    ∀ crew ∈ (dispatcher.step s e).crews, Faithful crew := by
  cases e with
  | dispatch tasks => exact Pool.forall_crews_gather h (faithful_gather dispatcher tasks)
  | turn d i t =>
    simp only [step]
    cases hturn : s.turn dispatcher.runSingle d i t with
    | none => exact h
    | some s' =>
      obtain ⟨crew, w, there, hmoved⟩ := moved_of_turn hturn
      exact hmoved.forall_crews h fun hcrew => hcrew.turn hmoved

/-! ## When every task is accounted for -/

theorem spares_step (s : Dispatches) (e : Event) :
    (dispatcher.step s e).Spares d ↔ s.Spares d ∧ dispatcher.cancels s d e = false := by
  cases e with
  | dispatch tasks => exact Pool.spares_gather.trans (and_iff_left rfl).symm
  | turn d' i t =>
    simp only [step, cancels]
    cases hturn : s.turn dispatcher.runSingle d' i t with
    | none => simp
    | some s' =>
      obtain ⟨crew, w, there, hmoved⟩ := moved_of_turn hturn
      refine hmoved.spares_iff.trans (and_congr_right fun _ => ?_)
      simp

theorem Faithful.accounted_iff_spared (h : Faithful crew) (hover : crew.isOver = true) : Accounted crew ↔ crew.Spared := by
  have hterminal : (∀ t ∈ stateOf crew, t.status.isTerminal = true) ↔ crew.Spared := by
    rw [stateOf, List.forall_mem_map, Crew.Spared]
    refine forall₂_congr fun w hw => ?_
    rw [h.status w hw]
    exact isTerminal_statusAt (List.all_eq_true.mp hover w hw)
  refine ⟨fun haccounted => hterminal.mp haccounted.terminal, fun hspared => ?_⟩
  have hpending := ((stateOf crew).pending_eq_zero_iff).mpr (hterminal.mpr hspared)
  have hlength : (stateOf crew).total = crew.info.length := by
    have hboth := congrArg List.length h.tasks
    rwa [List.length_map, List.length_map] at hboth
  have htotal := (stateOf crew).completed_add_failed_add_pending
  exact ⟨h.tasks, hterminal.mpr hspared, by omega, hpending⟩

/-- A dispatch that is over accounts for every task just when none of its coroutines was cancelled. -/
theorem accounted_iff (dispatcher : ParallelDispatcher) (events : List Event) (d : Nat)
    (crew : Crew (List (Dict Value)) Single ExecutorOutcome)
    (hcrew : (run dispatcher.step dispatcher.start events).crews[d]? = some crew) (hover : crew.isOver = true) :
    Accounted crew ↔
      Admitted dispatcher.step (fun s e => dispatcher.cancels s d e = false) dispatcher.start events := by
  have hfaithful : ∀ crew ∈ (run dispatcher.step dispatcher.start events).crews, Faithful crew :=
    run_invariant (fun s : Dispatches => ∀ crew ∈ s.crews, Faithful crew) (fun _ e h => faithful_step h e)
      (by simp [start]) events
  have hstart : dispatcher.start.Spares d := by simp [Pool.Spares, start]
  have hspares : (run dispatcher.step dispatcher.start events).Spares d ↔ crew.Spared := by simp [Pool.Spares, hcrew]
  rw [(hfaithful crew (List.mem_of_getElem? hcrew)).accounted_iff_spared hover, ← hspares,
    @run_iff_admitted _ _ _ _ (fun s : Dispatches => s.Spares d) spares_step]
  exact and_iff_right hstart

section

def mockDispatcher : ParallelDispatcher where
  maxConcurrent := 1
  text _ := ""

/-- Two tasks, the first of which fails. -/
def oneFails : List Event :=
  [.dispatch [[("agent_id", .str "eng-core")], [("agent_id", .str "wp-web")]], .turn 0 0 .start,
    .turn 0 0 (.finish (.raised (some "Agent crashed"))), .turn 0 1 .start, .turn 0 1 (.finish (.returned (.str "ok")))]

/-- The executor of the first is cancelled. -/
def oneCancelled : List Event :=
  [.dispatch [[("agent_id", .str "eng-core")], [("agent_id", .str "wp-web")]], .turn 0 0 .start, .turn 0 0 .cancel,
    .turn 0 1 .start, .turn 0 1 (.finish (.returned (.str "ok")))]

theorem accounted_iff_one_fails :
    Accounted (((run mockDispatcher.step mockDispatcher.start oneFails).crews[0]?).getD ⟨[], []⟩) ↔
      Admitted mockDispatcher.step (fun s e => mockDispatcher.cancels s 0 e = false) mockDispatcher.start oneFails :=
  accounted_iff mockDispatcher oneFails 0 _ rfl rfl

/-- The dispatch is over with a task that runs. -/
theorem cancelled_task_left_running :
    ∃ crew, (run mockDispatcher.step mockDispatcher.start oneCancelled).crews[0]? = some crew ∧ crew.isOver = true ∧
      ¬ Accounted crew ∧ (stateOf crew).pending = 1 := by
  refine ⟨_, rfl, rfl, fun h => ?_, by decide⟩
  have hpending := h.pending
  revert hpending
  decide

end

end ParallelDispatcher

end Occp.Workflow
