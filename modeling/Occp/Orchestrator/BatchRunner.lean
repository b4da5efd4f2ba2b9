import Occp.Lib.Triple
import Occp.Lib.Workers
import Occp.Orchestrator.PipelineOrder

/-!
# Batches of pipeline runs (`PipelineRunner` of `orchestrator/pipeline.py`)

`run_batch` gathers one `run_one` for each task, behind the runner's semaphore, and makes failed
results of the exceptions that the gather returns. A cancellation is returned like them, but is
no `Exception`.
-/

open Std.Do

set_option mvcgen.warning false

namespace Occp.Orchestrator

/-! ## The task of a result -/

section

variable {p : Pipeline} {id : String}

theorem id_of_transition {t t' : Task} {new : TaskStatus} (h : t.transition new = .ok t') : t'.id = t.id := by
  unfold Task.transition at h
  split at h
  · cases h
    rfl
  · cases h

theorem call_id {α : Type} (s : Stage) (reply : Except PyError α) (returned : α → Event) :
    ⦃fun st => ⌜st.task.id = id⌝⦄ call s reply returned
    ⦃post⟨fun _ st => ⌜st.task.id = id⌝, fun _ st => ⌜st.task.id = id⌝⟩⦄ := by
  mvcgen [call, note]

attribute [local spec] call_id

theorem transition_id (new : TaskStatus) :
    ⦃fun st => ⌜st.task.id = id⌝⦄ transition new
    ⦃post⟨fun _ st => ⌜st.task.id = id⌝, fun _ st => ⌜st.task.id = id⌝⟩⦄ := by
  mvcgen [transition, setTask]
  exact (id_of_transition ‹_›).trans ‹_›

theorem planStage_id :
    ⦃fun st => ⌜st.task.id = id⌝⦄ planStage p
    ⦃post⟨fun _ st => ⌜st.task.id = id⌝, fun _ st => ⌜st.task.id = id⌝⟩⦄ := by
  mvcgen [planStage, assertStageOrder, transition_id, record, setTask, complete] <;> grind

theorem confirmStage_id :
    ⦃fun st => ⌜st.task.id = id⌝⦄ confirmStage p
    ⦃post⟨fun _ st => ⌜st.task.id = id⌝, fun _ st => ⌜st.task.id = id⌝⟩⦄ := by
  mvcgen [confirmStage, transition_id, record, recordStages] <;> grind

theorem gateStage_id :
    ⦃fun st => ⌜st.task.id = id⌝⦄ gateStage p
    ⦃post⟨fun _ st => ⌜st.task.id = id⌝, fun _ st => ⌜st.task.id = id⌝⟩⦄ := by
  mvcgen [gateStage, assertStageOrder, transition_id, record, complete] <;> grind

theorem callExecutor_id :
    ⦃fun st => ⌜st.task.id = id⌝⦄ callExecutor p
    ⦃post⟨fun _ st => ⌜st.task.id = id⌝, fun _ st => ⌜st.task.id = id⌝⟩⦄ := by
  mvcgen [callExecutor]

theorem executeAttempts_id (taskId : String) (left : Nat) :
    ⦃fun st => ⌜st.task.id = id⌝⦄ executeAttempts p taskId left
    ⦃post⟨fun _ st => ⌜st.task.id = id⌝, fun _ st => ⌜st.task.id = id⌝⟩⦄ := by
  induction left with
  | zero => mvcgen [executeAttempts, callExecutor_id] <;> grind
  | succ left ih => mvcgen [executeAttempts, callExecutor_id, ih] <;> grind

theorem executeStage_id (proc : Process) :
    ⦃fun st => ⌜st.task.id = id⌝⦄ executeStage p proc
    ⦃post⟨fun _ st => ⌜st.task.id = id⌝, fun _ st => ⌜st.task.id = id⌝⟩⦄ := by
  mvcgen [executeStage, executeWithRetry, assertStageOrder, transition_id, record, complete, executeAttempts_id] <;> grind

theorem qualityAttempts_id (gate : QualityGate) (left attempt : Nat) (output : Value) :
    ⦃fun st => ⌜st.task.id = id⌝⦄ qualityAttempts p gate left attempt output
    ⦃post⟨fun _ st => ⌜st.task.id = id⌝, fun _ st => ⌜st.task.id = id⌝⟩⦄ := by
  induction left generalizing attempt output with
  | zero =>
    unfold qualityAttempts
    mvcgen [record] <;> grind
  | succ left ih =>
    unfold qualityAttempts
    mvcgen [record, note, setTask, callExecutor_id, ih] <;> grind

theorem qualityStage_id (output : Value) :
    ⦃fun st => ⌜st.task.id = id⌝⦄ qualityStage p output
    ⦃post⟨fun _ st => ⌜st.task.id = id⌝, fun _ st => ⌜st.task.id = id⌝⟩⦄ := by
  mvcgen [qualityStage, qualityAttempts_id] <;> grind

theorem validateStage_id :
    ⦃fun st => ⌜st.task.id = id⌝⦄ validateStage p
    ⦃post⟨fun _ st => ⌜st.task.id = id⌝, fun _ st => ⌜st.task.id = id⌝⟩⦄ := by
  mvcgen [validateStage, assertStageOrder, transition_id, record, complete] <;> grind

theorem shipStage_id :
    ⦃fun st => ⌜st.task.id = id⌝⦄ shipStage p
    ⦃post⟨fun _ st => ⌜st.task.id = id⌝, fun _ st => ⌜st.task.id = id⌝⟩⦄ := by
  mvcgen [shipStage, assertStageOrder, transition_id, record, complete] <;> grind

theorem runStages_id (proc : Process) :
    ⦃fun st => ⌜st.task.id = id⌝⦄ runStages p proc
    ⦃post⟨fun r st => ⌜r.taskId = id ∧ st.task.id = id⌝, fun _ st => ⌜st.task.id = id⌝⟩⦄ := by
  mvcgen [runStages, planStage_id, confirmStage_id, gateStage_id, executeStage_id, qualityStage_id, validateStage_id,
    shipStage_id, recordStages] <;> grind

theorem handle_id (e : PyError) :
    ⦃fun st => ⌜st.task.id = id⌝⦄ handle e
    ⦃post⟨fun r st => ⌜r.taskId = id ∧ st.task.id = id⌝, fun _ st => ⌜st.task.id = id⌝⟩⦄ := by
  mvcgen [handle, transition_id, tryTransition, setTask, record, recordStages, failedResult] <;> grind [id_of_transition]

theorem run_id (proc : Process) :
    ⦃fun st => ⌜st.task.id = id⌝⦄ run p proc
    ⦃post⟨fun r st => ⌜r.taskId = id ∧ st.task.id = id⌝, fun _ st => ⌜st.task.id = id⌝⟩⦄ := by
  mvcgen [run, refuse, tryTransition, setTask, record, failedResult, runStages_id, handle_id] <;> grind [id_of_transition]

theorem taskId_of_runTask {proc : Process} {task : Task} {result : PipelineResult}
    (h : (runTask p proc task).1 = .ok result) : result.taskId = task.id := by
  have hrun : ⦃fun st => ⌜st.task.id = task.id⌝⦄ run p proc
      ⦃post⟨fun r st => ⌜r.taskId = task.id ∧ st.task.id = task.id⌝, fun _ st => ⌜st.task.id = task.id⌝⟩⦄ := run_id proc
  rcases Lib.run_of_triple hrun (s := { task }) rfl with ⟨r, hr, hid, -⟩ | ⟨e, he, -⟩
  · rw [runTask, hr] at h
    cases h
    exact hid
  · rw [runTask, he] at h
    cases h

end

/-! ## The runner -/

open Lib

/-- An element of the list that `run_batch` returns. -/
inductive BatchItem where
  | result (result : PipelineResult)
  | cancelledError

/-- What came of `pipeline.run`. -/
abbrev RunOutcome := Except PyError PipelineResult

/-- A call of `run_batch`, with the list that it has returned if it has. -/
structure BatchCall where
  tasks : List Task
  returned : Option (List BatchItem) := none

abbrev Batch := Crew BatchCall Task RunOutcome

structure PipelineRunner where
  pool : Pool BatchCall Task RunOutcome
  totalRuns : Nat := 0
  totalSuccess : Nat := 0
  totalFailed : Nat := 0

/-- What `run_batch` makes of what a member came to. -/
def batchItem (w : Worker Task RunOutcome) : BatchItem :=
  match w.position with
  | .ended (.ok result) => .result result
  | .ended (.error e) =>
    .result { taskId := w.data.id, success := false, status := .failed, evidence := [], error := some e.str }
  | _ => .cancelledError

/-- The member raised an exception. -/
def hasRaised (w : Worker Task RunOutcome) : Bool :=
  match w.position with
  | .ended (.error _) => true
  | _ => false

namespace PipelineRunner

/-- A run finds the task as it stands then, with the replies that its adapters give then. -/
inductive Event where
  | runBatch (tasks : List Task)
  | start (batch member : Nat)
  | finish (batch member : Nat) (p : Pipeline) (proc : Process) (task : Task)
  | cancel (batch member : Nat)
  | gathered (batch : Nat)

def create (maxConcurrent : Nat) : PipelineRunner where
  pool := { free := maxConcurrent }

/-- A turn of `run_one`, which leaves the task itself to the pipeline. -/
def turn (s : PipelineRunner) (b i : Nat) (t : Turn RunOutcome) : Option (Pool BatchCall Task RunOutcome) :=
  s.pool.turn (fun task _ => task) b i t

def start (s : PipelineRunner) (b i : Nat) : PipelineRunner :=
  match s.turn b i .start with
  | none => s
  | some pool => { s with pool, totalRuns := s.totalRuns + 1 }

def finish (s : PipelineRunner) (b i : Nat) (outcome : RunOutcome) : PipelineRunner :=
  match s.turn b i (.finish outcome) with
  | none => s
  | some pool =>
    match outcome with
    | .ok result =>
      if result.success then { s with pool, totalSuccess := s.totalSuccess + 1 }
      else { s with pool, totalFailed := s.totalFailed + 1 }
    | .error _ => { s with pool }

/-- `run_batch` goes on once every member is over. -/
def gathered (s : PipelineRunner) (b : Nat) : PipelineRunner :=
  match s.pool.crews[b]? with
  | none => s
  | some batch =>
    if batch.isOver ∧ batch.info.returned.isNone then
      let batch' := { batch with info := { batch.info with returned := some (batch.workers.map batchItem) } }
      { s with
        pool := { s.pool with crews := s.pool.crews.set b batch' }
        totalFailed := s.totalFailed + batch.workers.countP hasRaised }
    else s

def taskOf? (s : PipelineRunner) (b i : Nat) : Option Task :=
  (s.pool.crews[b]?).bind fun batch => (batch.workers[i]?).map (·.data)

def step (s : PipelineRunner) : Event → PipelineRunner
  | .runBatch tasks => { s with pool := s.pool.gather { tasks } tasks }
  | .start b i => s.start b i
  | .finish b i p proc task =>
    if (s.taskOf? b i).map (·.id) = some task.id then s.finish b i (runTask p proc task).1 else s
  | .cancel b i => { s with pool := (s.turn b i .cancel).getD s.pool }
  | .gathered b => s.gathered b

/-- A member is cancelled, while it waits or in its run. -/
def cancels (s : PipelineRunner) : Event → Bool
  | .cancel b i => (s.turn b i .cancel).isSome
  | _ => false

/-! ## What is counted -/

/-- Every call of `run_batch` has returned a result for each of its tasks, in its place, and each
task is counted once as a run and once as a success or a failure. -/
structure Accounted (s : PipelineRunner) : Prop where
  results : ∀ batch ∈ s.pool.crews, ∃ results : List PipelineResult,
    batch.info.returned = some (results.map .result) ∧ results.map (·.taskId) = batch.info.tasks.map (·.id)
  runs : s.totalRuns = (s.pool.crews.map fun batch => batch.info.tasks.length).sum
  settled : s.totalSuccess + s.totalFailed = s.totalRuns

def started (w : Worker Task RunOutcome) : Nat :=
  match w.position with
  | .waiting | .cancelled false => 0
  | _ => 1

def succeeded (w : Worker Task RunOutcome) : Nat :=
  match w.position with
  | .ended (.ok result) => if result.success then 1 else 0
  | _ => 0

def failed (w : Worker Task RunOutcome) : Nat :=
  match w.position with
  | .ended (.ok result) => if result.success then 0 else 1
  | _ => 0

/-- The failures that `run_batch` itself has counted. -/
def converted (batch : Batch) : Nat := if batch.info.returned.isSome then batch.workers.countP hasRaised else 0

def sumOver (s : PipelineRunner) (f : Worker Task RunOutcome → Nat) : Nat :=
  (s.pool.crews.map fun batch => (batch.workers.map f).sum).sum

/-- What holds of a batch all along. -/
structure Batched (batch : Batch) : Prop where
  tasks : batch.workers.map (·.data) = batch.info.tasks
  named : ∀ w ∈ batch.workers, ∀ result, w.position = .ended (.ok result) → result.taskId = w.data.id
  returned : ∀ items, batch.info.returned = some items → batch.isOver = true ∧ items = batch.workers.map batchItem

structure Sound (s : PipelineRunner) : Prop where
  batched : ∀ batch ∈ s.pool.crews, Batched batch
  runs : s.totalRuns = s.sumOver started
  success : s.totalSuccess = s.sumOver succeeded
  failed : s.totalFailed = s.sumOver failed + (s.pool.crews.map converted).sum

variable {s : PipelineRunner} {pool : Pool BatchCall Task RunOutcome} {b i : Nat} {t : Turn RunOutcome} {batch : Batch}
  {w : Worker Task RunOutcome} {there : Position RunOutcome}

theorem not_over_of_next {here there : Position RunOutcome} (h : here.next t = some there) : here.isOver = false := by
  cases here <;> cases t <;> cases h <;> rfl

/-- A batch in which a member moves has not returned. -/
theorem Sound.returned_none (h : s.Sound) (hmoved : Moved (fun task _ => task) s.pool pool b i t batch w there) :
    batch.info.returned = none := by
  by_contra hsome
  obtain ⟨items, hitems⟩ := Option.ne_none_iff_exists'.mp hsome
  obtain ⟨hover, -⟩ := (h.batched batch (List.mem_of_getElem? hmoved.hcrew)).returned items hitems
  have hw := List.all_eq_true.mp hover w (List.mem_of_getElem? hmoved.hworker)
  rw [not_over_of_next hmoved.hnext] at hw
  cases hw

theorem Sound.batched_turn (h : s.Sound) (hmoved : Moved (fun task _ => task) s.pool pool b i t batch w there)
    (hnamed : ∀ result, there = .ended (.ok result) → result.taskId = w.data.id) :
    ∀ batch ∈ pool.crews, Batched batch := by
  have hnone := h.returned_none hmoved
  refine hmoved.forall_crews h.batched fun hbatch => ⟨?_, ?_, fun items hitems => ?_⟩
  · refine Eq.trans ?_ hbatch.tasks
    exact map_set_of_eq hmoved.hworker rfl
  · exact hmoved.forall_workers (p := fun w => ∀ result, w.position = .ended (.ok result) → result.taskId = w.data.id)
      hbatch.named fun _ => hnamed
  · exact absurd (hnone.symm.trans hitems) (by simp)

theorem Sound.converted_turn (h : s.Sound) (hmoved : Moved (fun task _ => task) s.pool pool b i t batch w there) :
    (pool.crews.map converted).sum = (s.pool.crews.map converted).sum := by
  have hnone := h.returned_none hmoved
  rw [hmoved.hcrews, map_set_of_eq hmoved.hcrew]
  simp [converted, Crew.after, hnone]

/-- A turn counts what its worker is counted for now and was not before. -/
theorem Sound.turn {s' : PipelineRunner} (h : s.Sound)
    (hmoved : Moved (fun task _ => task) s.pool s'.pool b i t batch w there)
    (hnamed : ∀ result, there = .ended (.ok result) → result.taskId = w.data.id)
    (hruns : s'.totalRuns + started w = s.totalRuns + started (w.after (fun task _ => task) t there))
    (hsuccess : s'.totalSuccess + succeeded w = s.totalSuccess + succeeded (w.after (fun task _ => task) t there))
    (hfailed : s'.totalFailed + PipelineRunner.failed w =
      s.totalFailed + PipelineRunner.failed (w.after (fun task _ => task) t there)) : s'.Sound where
  batched := h.batched_turn hmoved hnamed
  runs := by
    have hsum := hmoved.sum_workers started
    have hbefore := h.runs
    unfold sumOver at hbefore ⊢
    omega
  success := by
    have hsum := hmoved.sum_workers succeeded
    have hbefore := h.success
    unfold sumOver at hbefore ⊢
    omega
  failed := by
    have hsum := hmoved.sum_workers PipelineRunner.failed
    have hbefore := h.failed
    rw [h.converted_turn hmoved]
    unfold sumOver at hbefore ⊢
    omega

/-- Where a worker stands that starts, finishes or is cancelled. -/
theorem next_start {here there : Position RunOutcome} (h : here.next .start = some there) :
    here = .waiting ∧ there = .working := by
  cases here <;> cases h
  exact ⟨rfl, rfl⟩

theorem next_finish {here there : Position RunOutcome} {outcome : RunOutcome}
    (h : here.next (.finish outcome) = some there) : here = .working ∧ there = .ended outcome := by
  cases here <;> cases h
  exact ⟨rfl, rfl⟩

theorem next_cancel {here there : Position RunOutcome} (h : here.next .cancel = some there) :
    (here = .waiting ∧ there = .cancelled false) ∨ (here = .working ∧ there = .cancelled true) := by
  cases here <;> cases h
  · exact .inl ⟨rfl, rfl⟩
  · exact .inr ⟨rfl, rfl⟩

theorem Sound.start (h : s.Sound) (b i : Nat) : (s.start b i).Sound := by
  unfold PipelineRunner.start
  split
  · exact h
  · next pool hturn =>
    obtain ⟨batch, w, there, hmoved⟩ := moved_of_turn hturn
    obtain ⟨hhere, rfl⟩ := next_start hmoved.hnext
    refine h.turn hmoved (by simp) ?_ ?_ ?_
    · simp [started, hhere, Worker.after]
    · simp [succeeded, hhere, Worker.after]
    · simp [PipelineRunner.failed, hhere, Worker.after]

theorem Sound.cancel (h : s.Sound) (b i : Nat) : Sound { s with pool := (s.turn b i .cancel).getD s.pool } := by
  cases hturn : s.turn b i .cancel with
  | none => exact h
  | some pool =>
    obtain ⟨batch, w, there, hmoved⟩ := moved_of_turn hturn
    have hmoved' : Moved (fun task _ => task) s.pool ((some pool).getD s.pool) b i .cancel batch w there := hmoved
    obtain ⟨hhere, rfl⟩ | ⟨hhere, rfl⟩ := next_cancel hmoved.hnext
    · exact h.turn hmoved' (by simp) (by simp [started, hhere, Worker.after]) (by simp [succeeded, hhere, Worker.after])
        (by simp [PipelineRunner.failed, hhere, Worker.after])
    · exact h.turn hmoved' (by simp) (by simp [started, hhere, Worker.after]) (by simp [succeeded, hhere, Worker.after])
        (by simp [PipelineRunner.failed, hhere, Worker.after])

theorem Sound.finish (h : s.Sound) (b i : Nat) {p : Pipeline} {proc : Process} {task : Task}
    (hid : (s.taskOf? b i).map (·.id) = some task.id) : (s.finish b i (runTask p proc task).1).Sound := by
  unfold PipelineRunner.finish
  split
  · exact h
  · next pool hturn =>
    obtain ⟨batch, w, there, hmoved⟩ := moved_of_turn hturn
    obtain ⟨hhere, rfl⟩ := next_finish hmoved.hnext
    have hname : w.data.id = task.id := by
      simpa [taskOf?, hmoved.hcrew, hmoved.hworker] using hid
    have hnamed : ∀ result, Position.ended (runTask p proc task).1 = .ended (.ok result) →
        result.taskId = w.data.id := by
      intro result hresult
      rw [hname]
      exact taskId_of_runTask (Position.ended.inj hresult)
    cases houtcome : (runTask p proc task).1 with
    | error e =>
      rw [houtcome] at hmoved hnamed
      have hturn : Sound { s with pool } := h.turn hmoved hnamed (by simp [started, hhere, Worker.after])
        (by simp [succeeded, hhere, Worker.after]) (by simp [PipelineRunner.failed, hhere, Worker.after])
      exact hturn
    | ok result =>
      rw [houtcome] at hmoved hnamed
      dsimp only
      cases hsuccess : result.success with
      | true =>
        have hturn : Sound { s with pool, totalSuccess := s.totalSuccess + 1 } := h.turn hmoved hnamed
          (by simp [started, hhere, Worker.after]) (by simp [succeeded, hhere, Worker.after, hsuccess])
          (by simp [PipelineRunner.failed, hhere, Worker.after, hsuccess])
        exact hturn
      | false =>
        have hturn : Sound { s with pool, totalFailed := s.totalFailed + 1 } := h.turn hmoved hnamed
          (by simp [started, hhere, Worker.after]) (by simp [succeeded, hhere, Worker.after, hsuccess])
          (by simp [PipelineRunner.failed, hhere, Worker.after, hsuccess])
        exact hturn

theorem Sound.gathered (h : s.Sound) (b : Nat) : (s.gathered b).Sound := by
  unfold PipelineRunner.gathered
  split
  · exact h
  · next batch hbatch =>
    split
    · next hready =>
      obtain ⟨hover, hnone⟩ := hready
      have hbatched := h.batched batch (List.mem_of_getElem? hbatch)
      generalize hbatch' : ({ batch with
        info := { batch.info with returned := some (batch.workers.map batchItem) } } : Batch) = batch'
      have hworkers : batch'.workers = batch.workers := by rw [← hbatch']
      have hsum (f : Worker Task RunOutcome → Nat) :
          ((s.pool.crews.set b batch').map fun batch => (batch.workers.map f).sum).sum = s.sumOver f := by
        unfold sumOver
        rw [map_set_of_eq (x := batch) hbatch]
        rw [hworkers]
      have hconverted := sum_map_set hbatch batch' converted
      have hfirst : converted batch = 0 := by
        simp [converted, Option.isNone_iff_eq_none.mp hnone]
      have hthen : converted batch' = batch.workers.countP hasRaised := by simp [converted, ← hbatch']
      refine ⟨forall_mem_set h.batched ?_, h.runs.trans (hsum _).symm, h.success.trans (hsum _).symm, ?_⟩
      · subst hbatch'
        refine ⟨hbatched.tasks, hbatched.named, fun items hitems => ?_⟩
        exact ⟨hover, (Option.some.inj hitems).symm⟩
      · have hbefore := h.failed
        have hfailed := hsum PipelineRunner.failed
        unfold sumOver at hbefore hfailed ⊢
        dsimp only
        omega
    · exact h

theorem Sound.step (h : s.Sound) (e : Event) : (s.step e).Sound := by
  cases e with
  | runBatch tasks =>
    have hsum (f : Worker Task RunOutcome → Nat) (hf : ∀ task, f { data := task } = 0) :
        sumOver { s with pool := s.pool.gather { tasks } tasks } f = s.sumOver f := by
      simp [sumOver, Pool.gather, Function.comp_def, hf]
    refine ⟨Pool.forall_crews_gather h.batched ⟨?_, ?_, ?_⟩, ?_, ?_, ?_⟩
    · simp [Function.comp_def]
    · intro w hw result hresult
      obtain ⟨task, -, rfl⟩ := List.mem_map.mp hw
      cases hresult
    · intro items hitems
      cases hitems
    · exact h.runs.trans (hsum started fun _ => rfl).symm
    · exact h.success.trans (hsum succeeded fun _ => rfl).symm
    · have hfailed := hsum PipelineRunner.failed fun _ => rfl
      have hconverted : (({ s with pool := s.pool.gather { tasks } tasks } : PipelineRunner).pool.crews.map converted).sum =
          (s.pool.crews.map converted).sum := by
        simp [Pool.gather, converted]
      exact h.failed.trans (by rw [← hfailed, ← hconverted]; rfl)
  | start b i => exact h.start b i
  | finish b i p proc task =>
    unfold PipelineRunner.step
    dsimp only
    split
    · next hid => exact h.finish b i hid
    · exact h
  | cancel b i => exact h.cancel b i
  | gathered b => exact h.gathered b

theorem sound_create (maxConcurrent : Nat) : (create maxConcurrent).Sound where
  batched := by simp [create]
  runs := rfl
  success := rfl
  failed := rfl

/-! ## When a batch is accounted for -/

theorem spares_turn (b i : Nat) (t : Turn RunOutcome) (hturn : s.turn b i t = some pool) :
    (∀ d, pool.Spares d) ↔ (∀ d, s.pool.Spares d) ∧ t.isCancel = false := by
  obtain ⟨batch, w, there, hmoved⟩ := moved_of_turn hturn
  constructor
  · intro h
    refine ⟨fun d => (hmoved.spares_iff.mp (h d)).1, ?_⟩
    simpa using (hmoved.spares_iff.mp (h b)).2
  · rintro ⟨h, hcancel⟩ d
    exact hmoved.spares_iff.mpr ⟨h d, by simp [hcancel]⟩

/-- The batches keep their members as they are while one of them returns. -/
theorem spared_gathered (s : PipelineRunner) (b : Nat) :
    (∀ batch ∈ (s.gathered b).pool.crews, batch.Spared) ↔ ∀ batch ∈ s.pool.crews, batch.Spared := by
  unfold PipelineRunner.gathered
  split
  · exact Iff.rfl
  · next batch hbatch =>
    split
    · have hmap (crews : List Batch) : (∀ batch ∈ crews, batch.Spared) ↔
          ∀ workers ∈ crews.map (·.workers), ∀ w ∈ workers, w.position.isCancelled = false := by
        rw [List.forall_mem_map]
        rfl
      rw [hmap, hmap]
      dsimp only
      rw [map_set_of_eq (x := batch) hbatch]
      rfl
    · exact Iff.rfl

theorem spared_step (s : PipelineRunner) (e : Event) :
    (∀ batch ∈ (s.step e).pool.crews, batch.Spared) ↔
      (∀ batch ∈ s.pool.crews, batch.Spared) ∧ s.cancels e = false := by
  have hturn {b i : Nat} {t : Turn RunOutcome} {pool : Pool BatchCall Task RunOutcome} (h : s.turn b i t = some pool) :
      (∀ batch ∈ pool.crews, batch.Spared) ↔ (∀ batch ∈ s.pool.crews, batch.Spared) ∧ t.isCancel = false := by
    rw [← Pool.forall_spares_iff, ← Pool.forall_spares_iff]
    exact spares_turn b i t h
  cases e with
  | runBatch tasks =>
    rw [← Pool.forall_spares_iff, ← Pool.forall_spares_iff]
    exact (forall_congr' fun _ => Pool.spares_gather).trans (and_iff_left rfl).symm
  | start b i =>
    dsimp only [PipelineRunner.step, PipelineRunner.start]
    cases h : s.turn b i .start with
    | none => exact (and_iff_left rfl).symm
    | some pool => exact hturn h
  | finish b i p proc task =>
    dsimp only [PipelineRunner.step, PipelineRunner.finish]
    split
    · cases h : s.turn b i (.finish (runTask p proc task).1) with
      | none => exact (and_iff_left rfl).symm
      | some pool =>
        refine Iff.trans (Eq.to_iff ?_) (hturn h)
        dsimp only
        split
        · split <;> rfl
        · rfl
    · exact (and_iff_left rfl).symm
  | cancel b i =>
    dsimp only [PipelineRunner.step, cancels]
    cases h : s.turn b i .cancel with
    | none => exact (and_iff_left rfl).symm
    | some pool => exact hturn h
  | gathered b => exact (spared_gathered s b).trans (and_iff_left rfl).symm

/-- A member that is over came to an outcome, or was cancelled. -/
theorem ended_of_spared (hover : w.position.isOver = true) (hspared : w.position.isCancelled = false) :
    ∃ outcome, w.position = .ended outcome := by
  cases hposition : w.position with
  | ended outcome => exact ⟨outcome, rfl⟩
  | waiting | working =>
    rw [hposition] at hover
    cases hover
  | cancelled =>
    rw [hposition] at hspared
    cases hspared

theorem Batched.items (h : Batched batch) (hover : batch.isOver = true) (hspared : batch.Spared) :
    ∃ results : List PipelineResult, batch.workers.map batchItem = results.map .result ∧
      results.map (·.taskId) = batch.info.tasks.map (·.id) := by
  rw [← h.tasks]
  have hover := List.all_eq_true.mp hover
  have hnamed := h.named
  unfold Crew.Spared at hspared
  generalize batch.workers = workers at hover hspared hnamed
  induction workers with
  | nil => exact ⟨[], rfl, rfl⟩
  | cons w workers ih =>
    rw [List.forall_mem_cons] at hover hspared hnamed
    obtain ⟨results, hitems, hids⟩ := ih hover.2 hspared.2 hnamed.2
    obtain ⟨result | result, hposition⟩ := ended_of_spared hover.1 hspared.1
    · exact ⟨_ :: results, by simp [batchItem, hposition, hitems]; rfl, by simp [hids]⟩
    · exact ⟨result :: results, by simp [batchItem, hposition, hitems], by simp [hids, hnamed.1 result hposition]⟩

/-- Each member of a batch that is over, and of which none was cancelled, counts once. -/
theorem sums_of_spared (hover : batch.isOver = true) (hspared : batch.Spared) :
    (batch.workers.map started).sum = batch.workers.length ∧
      (batch.workers.map succeeded).sum + (batch.workers.map PipelineRunner.failed).sum + batch.workers.countP hasRaised =
        batch.workers.length := by
  have hover := List.all_eq_true.mp hover
  unfold Crew.Spared at hspared
  generalize batch.workers = workers at hover hspared
  induction workers with
  | nil => exact ⟨rfl, rfl⟩
  | cons w workers ih =>
    rw [List.forall_mem_cons] at hover hspared
    obtain ⟨hstarted, hsettled⟩ := ih hover.2 hspared.2
    obtain ⟨e | result, hposition⟩ := ended_of_spared hover.1 hspared.1
    · have hone : started w = 1 ∧ succeeded w = 0 ∧ PipelineRunner.failed w = 0 ∧ hasRaised w = true := by
        simp [started, succeeded, PipelineRunner.failed, hasRaised, hposition]
      simp only [List.map_cons, List.sum_cons, List.length_cons, List.countP_cons, hone]
      simp only [if_true]
      omega
    · have hone : started w = 1 ∧ succeeded w + PipelineRunner.failed w = 1 ∧ hasRaised w = false := by
        simp only [started, succeeded, PipelineRunner.failed, hasRaised, hposition]
        cases result.success <;> simp
      simp only [List.map_cons, List.sum_cons, List.length_cons, List.countP_cons, hone]
      simp only [Bool.false_eq_true, if_false]
      omega

/-- What `run_batch` returns are results only if no member was cancelled. -/
theorem Batched.spared (h : Batched batch) {results : List PipelineResult}
    (hreturned : batch.info.returned = some (results.map .result)) : batch.Spared := by
  intro w hw
  obtain ⟨-, hitems⟩ := h.returned _ hreturned
  have hmem : batchItem w ∈ results.map .result := hitems ▸ List.mem_map_of_mem hw
  obtain ⟨result, -, hresult⟩ := List.mem_map.mp hmem
  unfold batchItem at hresult
  split at hresult
  · next hposition => rw [hposition]; rfl
  · next hposition => rw [hposition]; rfl
  · cases hresult

theorem Sound.accounted_iff_spared (h : s.Sound) (hreturned : ∀ batch ∈ s.pool.crews, batch.info.returned.isSome = true) :
    Accounted s ↔ ∀ batch ∈ s.pool.crews, batch.Spared := by
  have hover : ∀ batch ∈ s.pool.crews, batch.isOver = true := by
    intro batch hbatch
    obtain ⟨items, hitems⟩ := Option.isSome_iff_exists.mp (hreturned batch hbatch)
    exact ((h.batched batch hbatch).returned items hitems).1
  constructor
  · intro haccounted batch hbatch
    obtain ⟨results, hresults, -⟩ := haccounted.results batch hbatch
    exact (h.batched batch hbatch).spared hresults
  · intro hspared
    have hlength : ∀ batch ∈ s.pool.crews, batch.workers.length = batch.info.tasks.length := by
      intro batch hbatch
      rw [← (h.batched batch hbatch).tasks, List.length_map]
    have hruns : s.totalRuns = (s.pool.crews.map fun batch => batch.info.tasks.length).sum := by
      rw [h.runs, sumOver]
      refine congrArg List.sum (List.map_congr_left fun batch hbatch => ?_)
      rw [(sums_of_spared (hover batch hbatch) (hspared batch hbatch)).1, hlength batch hbatch]
    refine ⟨fun batch hbatch => ?_, hruns, ?_⟩
    · obtain ⟨items, hitems⟩ := Option.isSome_iff_exists.mp (hreturned batch hbatch)
      obtain ⟨results, hresults, hids⟩ := (h.batched batch hbatch).items (hover batch hbatch) (hspared batch hbatch)
      refine ⟨results, ?_, hids⟩
      rw [hitems, ((h.batched batch hbatch).returned items hitems).2, hresults]
    · rw [h.success, h.failed, hruns, sumOver, sumOver, ← Nat.add_assoc, ← List.sum_map_add, ← List.sum_map_add]
      refine congrArg List.sum (List.map_congr_left fun batch hbatch => ?_)
      rw [converted, if_pos (hreturned batch hbatch), ← hlength batch hbatch]
      exact (sums_of_spared (hover batch hbatch) (hspared batch hbatch)).2

/-- Once every batch has returned all tasks are accounted for just when no member was cancelled. -/
theorem batches_accounted_iff (maxConcurrent : Nat) (events : List Event)
    (hreturned : ∀ batch ∈ (Lib.run step (create maxConcurrent) events).pool.crews, batch.info.returned.isSome = true) :
    Accounted (Lib.run step (create maxConcurrent) events) ↔
      Admitted step (fun s e => s.cancels e = false) (create maxConcurrent) events := by
  have hsound : (Lib.run step (create maxConcurrent) events).Sound :=
    run_invariant Sound (fun _ e h => h.step e) (sound_create maxConcurrent) events
  have hstart : ∀ batch ∈ (create maxConcurrent).pool.crews, batch.Spared := by simp [create]
  rw [hsound.accounted_iff_spared hreturned,
    @run_iff_admitted _ _ _ _ (fun s : PipelineRunner => ∀ batch ∈ s.pool.crews, batch.Spared) spared_step]
  exact and_iff_right hstart

section

/-- A planner that fails, so that every run does. -/
def brokenPipeline : Pipeline where
  planner task := .error (.valueError task.id)
  policyEngine _ := .error (.valueError "")
  executor _ _ := .ok (.str "")
  validator _ := .ok []
  shipper _ := .ok (.str "")

def firstTask : Task := { id := "t1", name := "report", description := "", agentType := "general" }

def secondTask : Task := { id := "t2", name := "report", description := "", agentType := "general" }

def bothRun : List Event :=
  [.runBatch [firstTask, secondTask], .start 0 0, .start 0 1, .finish 0 1 brokenPipeline {} secondTask,
    .finish 0 0 brokenPipeline {} firstTask, .gathered 0]

def oneCancelled : List Event :=
  [.runBatch [firstTask, secondTask], .start 0 0, .start 0 1, .finish 0 1 brokenPipeline {} secondTask,
    .cancel 0 0, .gathered 0]

theorem batches_accounted_iff_both_run :
    Accounted (Lib.run step (create 2) bothRun) ↔ Admitted step (fun s e => s.cancels e = false) (create 2) bothRun :=
  batches_accounted_iff 2 bothRun (by decide +kernel)

/-- The batch returns with a `CancelledError` in it, and the run of it counts as neither. -/
theorem cancelled_member_unaccounted :
    (∀ batch ∈ (Lib.run step (create 2) oneCancelled).pool.crews, batch.info.returned.isSome = true) ∧
      ¬ Accounted (Lib.run step (create 2) oneCancelled) ∧ (Lib.run step (create 2) oneCancelled).totalRuns = 2 ∧
        (Lib.run step (create 2) oneCancelled).totalSuccess + (Lib.run step (create 2) oneCancelled).totalFailed = 1 := by
  refine ⟨by decide +kernel, fun h => ?_, by decide +kernel, by decide +kernel⟩
  have hsettled := h.settled
  revert hsettled
  decide +kernel

end

end PipelineRunner

end Occp.Orchestrator
