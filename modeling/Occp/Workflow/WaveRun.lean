import Occp.Workflow.MultiAgent

/-!
# What one wave does to a run

The results before the first kill are recorded; the rest of a wave only decides
how it ends.
-/

namespace Occp.Workflow

/-! ## Results -/

/-- The entry of `node_results` for what a node came back with, or the kill that it raises. -/
def entryOf : Except PyError Value → Except PyError NodeResult
  | .ok output => .ok (.success output)
  | .error (.workflowKilled executionId) => .error (.workflowKilled executionId)
  | .error exc => .ok (.failure exc.str)

/-- The entries that the loop gets to. -/
def settledResults : List (String × Except PyError Value) → List (String × NodeResult)
  | [] => []
  | (nodeId, result) :: rest =>
    match entryOf result with
    | .ok r => (nodeId, r) :: settledResults rest
    | .error _ => []

/-- `wave_failed`, or the kill that the loop raises. -/
def verdict : (waveFailed : Bool) → List (String × Except PyError Value) → Except PyError Bool
  | waveFailed, [] => .ok waveFailed
  | waveFailed, (_, result) :: rest =>
    match entryOf result with
    | .ok (.success _) => verdict waveFailed rest
    | .ok (.failure _) => verdict true rest
    | .error exc => .error exc

namespace Run

def recordAll (s : Run) (results : List (String × NodeResult)) : Run :=
  results.foldl (fun s e => s.record e.1 e.2) s

theorem recordResults_eq (results : List (String × Except PyError Value)) (waveFailed : Bool) (s : Run) :
    recordResults results waveFailed s = (verdict waveFailed results, s.recordAll (settledResults results)) := by
  induction results generalizing waveFailed s with
  | nil => rfl
  | cons e rest ih =>
    obtain ⟨nodeId, result⟩ := e
    cases result with
    | ok output => exact ih waveFailed (s.record nodeId (.success output))
    | error exc =>
      cases exc with
      | workflowKilled executionId => rfl
      | _ => exact ih true (s.record nodeId (.failure _))

@[simp] theorem recordAll_writes (s : Run) (results : List (String × NodeResult)) :
    (s.recordAll results).writes = s.writes ++ results.map fun e => .updateWorkflowNodeResult e.1 e.2 := by
  induction results generalizing s with
  | nil => simp [recordAll]
  | cons e rest ih =>
    change ((s.record e.1 e.2).recordAll rest).writes = _
    rw [ih]
    simp [record]

@[simp] theorem recordAll_nodeResults (s : Run) (results : List (String × NodeResult)) :
    (s.recordAll results).execution.nodeResults = s.execution.nodeResults.setAll results := by
  induction results generalizing s with
  | nil => rfl
  | cons e rest ih => exact ih (s.record e.1 e.2)

@[simp] theorem recordAll_status (s : Run) (results : List (String × NodeResult)) :
    (s.recordAll results).execution.status = s.execution.status := by
  induction results generalizing s with
  | nil => rfl
  | cons e rest ih => exact ih (s.record e.1 e.2)

@[simp] theorem recordAll_executionId (s : Run) (results : List (String × NodeResult)) :
    (s.recordAll results).execution.executionId = s.execution.executionId := by
  induction results generalizing s with
  | nil => rfl
  | cons e rest ih => exact ih (s.record e.1 e.2)

@[simp] theorem recordAll_handed (s : Run) (results : List (String × NodeResult)) :
    (s.recordAll results).handed = s.handed := by
  induction results generalizing s with
  | nil => rfl
  | cons e rest ih => exact ih (s.record e.1 e.2)

end Run

/-! ## The whole wave -/

section Wave

variable (d : WorkflowDefinition) (dispatch : Dispatch)

def waveResults (nodeIds : List String) (s : Run) : List (String × Except PyError Value) :=
  (waveNodes d nodeIds).map fun n => (n.nodeId, executeNode dispatch n s.accumulated s.execution.executionId)

def waveTasks (nodeIds : List String) (s : Run) : List (String × NodeTask) :=
  (waveNodes d nodeIds).map fun n => (n.nodeId, nodeTask n s.accumulated s.execution.executionId)

/-- The run when the results of a wave are in. -/
def afterResults (nodeIds : List String) (s : Run) : Run :=
  { s.setStatus .running with handed := s.handed ++ waveTasks d nodeIds s }.recordAll
    (settledResults (waveResults d dispatch nodeIds s))

variable {d dispatch}

theorem runWave_eq (waveIndex : Nat) (nodeIds : List String) (error : String) (s : Run) :
    runWave d dispatch waveIndex nodeIds error s =
      match verdict false (waveResults d dispatch nodeIds s) with
      | .error exc => (.raised exc, afterResults d dispatch nodeIds s)
      | .ok true =>
        (.returned, ((((afterResults d dispatch nodeIds s).persist d (waveIndex + 1)).setStatus .failed).setError
          error).persist d (waveIndex + 1))
      | .ok false => (.next, (afterResults d dispatch nodeIds s).persist d (waveIndex + 1)) := by
  unfold runWave afterResults waveTasks waveResults
  dsimp only [Run.setStatus]
  rw [Run.recordResults_eq]
  generalize verdict false _ = v
  cases v with
  | error exc => rfl
  | ok waveFailed => cases waveFailed <;> rfl

@[simp] theorem afterResults_writes (nodeIds : List String) (s : Run) :
    (afterResults d dispatch nodeIds s).writes = s.writes ++
      (settledResults (waveResults d dispatch nodeIds s)).map fun e => .updateWorkflowNodeResult e.1 e.2 := by
  rw [afterResults, Run.recordAll_writes]
  rfl

@[simp] theorem afterResults_nodeResults (nodeIds : List String) (s : Run) :
    (afterResults d dispatch nodeIds s).execution.nodeResults =
      s.execution.nodeResults.setAll (settledResults (waveResults d dispatch nodeIds s)) := by
  rw [afterResults, Run.recordAll_nodeResults]
  rfl

@[simp] theorem afterResults_status (nodeIds : List String) (s : Run) :
    (afterResults d dispatch nodeIds s).execution.status = .running := by
  rw [afterResults, Run.recordAll_status]
  rfl

@[simp] theorem afterResults_executionId (nodeIds : List String) (s : Run) :
    (afterResults d dispatch nodeIds s).execution.executionId = s.execution.executionId := by
  rw [afterResults, Run.recordAll_executionId]
  rfl

@[simp] theorem afterResults_handed (nodeIds : List String) (s : Run) :
    (afterResults d dispatch nodeIds s).handed = s.handed ++ waveTasks d nodeIds s := by
  rw [afterResults, Run.recordAll_handed]

/-! ## Which nodes have a result afterwards -/

theorem settledResults_keys_isPrefix (results : List (String × Except PyError Value)) :
    (settledResults results).map (·.1) <+: results.map (·.1) := by
  induction results with
  | nil => exact List.prefix_refl _
  | cons e rest ih =>
    obtain ⟨nodeId, result⟩ := e
    rw [settledResults]
    split
    · exact (List.prefix_cons_inj nodeId).mpr ih
    · exact List.nil_prefix

/-- Without a kill every node gets its result, and the flag says whether one failed. -/
theorem settled_of_verdict (results : List (String × Except PyError Value)) (waveFailed b : Bool)
    (h : verdict waveFailed results = .ok b) :
    (settledResults results).map (·.1) = results.map (·.1) ∧
      (b = true ↔ waveFailed = true ∨ ∃ e ∈ settledResults results, ∃ error, e.2 = .failure error) := by
  induction results generalizing waveFailed with
  | nil =>
    obtain rfl : waveFailed = b := by simpa [verdict] using h
    simp [settledResults]
  | cons e rest ih =>
    obtain ⟨nodeId, result⟩ := e
    rw [verdict] at h
    rw [settledResults]
    split at h
    · next output hentry =>
      obtain ⟨hkeys, hflag⟩ := ih waveFailed h
      rw [hentry]
      refine ⟨congrArg (nodeId :: ·) hkeys, hflag.trans (or_congr_right ⟨?_, ?_⟩)⟩
      · rintro ⟨e, he, herror⟩
        exact ⟨e, List.mem_cons_of_mem _ he, herror⟩
      · rintro ⟨e, he, error, herror⟩
        rcases List.mem_cons.mp he with rfl | he
        · simp at herror
        · exact ⟨e, he, error, herror⟩
    · next error hentry =>
      obtain ⟨hkeys, hflag⟩ := ih true h
      rw [hentry]
      exact ⟨congrArg (nodeId :: ·) hkeys, fun _ => .inr ⟨_, List.mem_cons_self, _, rfl⟩,
        fun _ => hflag.mpr (.inl rfl)⟩
    · simp at h

theorem map_nodeId_waveNodes (nodeIds : List String) (h : ∀ id ∈ nodeIds, id ∈ d.nodeIds) :
    (waveNodes d nodeIds).map (·.nodeId) = nodeIds := by
  induction nodeIds with
  | nil => rfl
  | cons id rest ih =>
    obtain ⟨n, hn⟩ := d.nodeMap_isSome id (h id List.mem_cons_self)
    have hrest := ih fun x hx => h x (List.mem_cons_of_mem _ hx)
    obtain ⟨-, hid⟩ := d.nodeMap_get id n hn
    unfold waveNodes at hrest ⊢
    rw [List.filterMap_cons_some hn, List.map_cons, hrest, hid]

theorem waveResults_keys (nodeIds : List String) (s : Run) (h : ∀ id ∈ nodeIds, id ∈ d.nodeIds) :
    (waveResults d dispatch nodeIds s).map (·.1) = nodeIds := by
  rw [waveResults, List.map_map]
  exact map_nodeId_waveNodes nodeIds h

/-- A wave without a failure leaves each of its nodes with an output. -/
theorem afterResults_succeeded (nodeIds : List String) (s : Run) (hknown : ∀ id ∈ nodeIds, id ∈ d.nodeIds)
    (hnodup : nodeIds.Nodup) (hverdict : verdict false (waveResults d dispatch nodeIds s) = .ok false) :
    ∀ id ∈ nodeIds, (outputOf (afterResults d dispatch nodeIds s).execution.nodeResults id).isSome := by
  intro id hid
  obtain ⟨hkeys, hflag⟩ := settled_of_verdict _ _ _ hverdict
  rw [waveResults_keys nodeIds s hknown] at hkeys
  rw [← hkeys] at hid hnodup
  obtain ⟨e, he, rfl⟩ := List.mem_map.mp hid
  rw [afterResults_nodeResults, outputOf, Dict.get?_setAll_of_mem _ _ e.1 e.2 hnodup he]
  cases hr : e.2 with
  | success output => rfl
  | failure error =>
    have := hflag.mpr (.inr ⟨e, he, error, hr⟩)
    exact absurd this Bool.false_ne_true

/-- The results of a wave touch its own nodes alone. -/
theorem afterResults_frame (nodeIds : List String) (s : Run) (hknown : ∀ id ∈ nodeIds, id ∈ d.nodeIds) (id : String)
    (hid : id ∉ nodeIds) :
    (afterResults d dispatch nodeIds s).execution.nodeResults.get? id = s.execution.nodeResults.get? id := by
  rw [afterResults_nodeResults]
  refine Dict.get?_setAll_of_notMem _ _ _ fun hmem => hid ?_
  rw [← @waveResults_keys d dispatch nodeIds s hknown]
  exact (settledResults_keys_isPrefix _).subset hmem

theorem waveTasks_keys (nodeIds : List String) (s : Run) (h : ∀ id ∈ nodeIds, id ∈ d.nodeIds) :
    (waveTasks d nodeIds s).map (·.1) = nodeIds := by
  rw [waveTasks, List.map_map]
  exact map_nodeId_waveNodes nodeIds h

end Wave

end Occp.Workflow
