import Occp.Workflow.Checkpoints

/-!
# What a resumed run skips

A resumed run starts at `current_wave` and never looks at the waves before it.
That is right for every row that a run leaves behind but one.
-/

namespace Occp.Workflow

open WorkflowDefinition (Waves topologicalSort_waves)

variable {d : WorkflowDefinition} {dispatch : Dispatch}

/-! ## The resume loop -/

theorem resumeWaves_cons (total i : Nat) (wave : List String) (rest : List (List String)) (s : Run) :
    resumeWaves d dispatch total i (wave :: rest) s =
      let pending := pendingNodes s.execution.nodeResults wave
      if pending = [] then resumeWaves d dispatch total (i + 1) rest s
      else
        match verdict false (waveResults d dispatch pending s) with
        | .error exc => (some exc, afterResults d dispatch pending s)
        | .ok true =>
          (none, ((((afterResults d dispatch pending s).persist d (i + 1)).setStatus .failed).setError
            s!"Nodes failed in wave {i}: {reprStrings pending}").persist d (i + 1))
        | .ok false => resumeWaves d dispatch total (i + 1) rest ((afterResults d dispatch pending s).persist d (i + 1)) := by
  rw [resumeWaves]
  dsimp only
  split
  · rfl
  · rw [runWave_eq]
    cases verdict false (waveResults d dispatch (pendingNodes s.execution.nodeResults wave) s) with
    | error exc => rfl
    | ok waveFailed => cases waveFailed <;> rfl

theorem mem_pendingNodes {results : Dict NodeResult} {wave : List String} {id : String} :
    id ∈ pendingNodes results wave ↔ id ∈ wave ∧ outputOf results id = none := by
  rw [pendingNodes, List.mem_filter, Option.isNone_iff_eq_none]

/-- Neither a node of an earlier wave nor one that has succeeded is touched. -/
theorem resumeWaves_frame (total i : Nat) (rest : List (List String)) (s : Run)
    (hknown : ∀ id ∈ rest.flatten, id ∈ d.nodeIds) (id : String)
    (hid : id ∉ rest.flatten ∨ (outputOf s.execution.nodeResults id).isSome) :
    (resumeWaves d dispatch total i rest s).2.execution.nodeResults.get? id = s.execution.nodeResults.get? id := by
  induction rest generalizing i s with
  | nil => rfl
  | cons wave rest ih =>
    rw [List.flatten_cons] at hid hknown
    have hrest : ∀ id ∈ rest.flatten, id ∈ d.nodeIds := fun x hx => hknown x (List.mem_append_right _ hx)
    have hnotRest : id ∉ rest.flatten ∨ (outputOf s.execution.nodeResults id).isSome :=
      hid.imp_left fun h hmem => h (List.mem_append_right _ hmem)
    have hnot : id ∉ pendingNodes s.execution.nodeResults wave := by
      rw [mem_pendingNodes]
      rintro ⟨hmem, hnone⟩
      rcases hid with h | h
      · exact h (List.mem_append_left _ hmem)
      · rw [hnone] at h
        exact absurd h (by simp)
    have hafter := @afterResults_frame d dispatch (pendingNodes s.execution.nodeResults wave) s
      (fun x hx => hknown x (List.mem_append_left _ (mem_pendingNodes.mp hx).1)) id hnot
    rw [resumeWaves_cons]
    dsimp only
    split
    · exact ih (i + 1) s hrest hnotRest
    · split
      · exact hafter
      · exact hafter
      · refine (ih (i + 1) _ hrest (hnotRest.imp_right fun h => ?_)).trans hafter
        unfold outputOf at h ⊢
        change (((afterResults d dispatch _ s).execution.nodeResults.get? id).bind _).isSome
        rwa [hafter]

/-- A loop that runs through leaves every node of its waves with a successful result. -/
theorem resumeWaves_completed (total i : Nat) (rest : List (List String)) (s : Run)
    (hknown : ∀ id ∈ rest.flatten, id ∈ d.nodeIds) (hnodup : ∀ wave ∈ rest, wave.Nodup)
    (hend : (resumeWaves d dispatch total i rest s).1 = none)
    (hstatus : (resumeWaves d dispatch total i rest s).2.execution.status = .completed) :
    ∀ id ∈ rest.flatten, (outputOf (resumeWaves d dispatch total i rest s).2.execution.nodeResults id).isSome := by
  induction rest generalizing i s with
  | nil => exact fun id hid => absurd hid List.not_mem_nil
  | cons wave rest ih =>
    rw [List.flatten_cons] at hknown ⊢
    have hrest : ∀ id ∈ rest.flatten, id ∈ d.nodeIds := fun x hx => hknown x (List.mem_append_right _ hx)
    have hwave : ∀ id ∈ wave, id ∈ d.nodeIds := fun x hx => hknown x (List.mem_append_left _ hx)
    have hrestNodup : ∀ w ∈ rest, w.Nodup := fun w hw => hnodup w (List.mem_cons_of_mem _ hw)
    -- Once the nodes of this wave have their outputs, the rest of the loop keeps them.
    have hkeep (s' : Run) (hs' : ∀ id ∈ wave, (outputOf s'.execution.nodeResults id).isSome)
        (hend' : (resumeWaves d dispatch total (i + 1) rest s').1 = none)
        (hstatus' : (resumeWaves d dispatch total (i + 1) rest s').2.execution.status = .completed) (id : String)
        (hid : id ∈ wave ++ rest.flatten) :
        (outputOf (resumeWaves d dispatch total (i + 1) rest s').2.execution.nodeResults id).isSome := by
      rcases List.mem_append.mp hid with hid | hid
      · have hs := hs' id hid
        unfold outputOf at hs ⊢
        rw [resumeWaves_frame total (i + 1) rest s' hrest id (.inr (hs' id hid))]
        exact hs
      · exact ih (i + 1) s' hrest hrestNodup hend' hstatus' id hid
    have hpending (id : String) (hid : id ∈ wave) (hnot : id ∉ pendingNodes s.execution.nodeResults wave) :
        (outputOf s.execution.nodeResults id).isSome := by
      rw [mem_pendingNodes, not_and] at hnot
      exact Option.isSome_iff_ne_none.mpr (hnot hid)
    rw [resumeWaves_cons] at hend hstatus ⊢
    dsimp only at hend hstatus ⊢
    split at hend
    · next hnone =>
      rw [if_pos hnone] at hstatus ⊢
      exact hkeep s (fun id hid => hpending id hid (by rw [hnone]; exact List.not_mem_nil)) hend hstatus
    · next hsome =>
      rw [if_neg hsome] at hstatus ⊢
      have hknown' : ∀ id ∈ pendingNodes s.execution.nodeResults wave, id ∈ d.nodeIds :=
        fun id hid => hwave id (mem_pendingNodes.mp hid).1
      have hnodup' : (pendingNodes s.execution.nodeResults wave).Nodup := (hnodup wave List.mem_cons_self).filter _
      cases hverdict : verdict false (waveResults d dispatch (pendingNodes s.execution.nodeResults wave) s) with
      | error exc =>
        rw [hverdict] at hend
        exact absurd hend (by simp)
      | ok waveFailed =>
        rw [hverdict] at hend hstatus
        cases waveFailed with
        | true => exact absurd hstatus (by simp [Run.persist, Run.setError, Run.setStatus])
        | false =>
          refine hkeep _ (fun id hid => ?_) hend hstatus
          by_cases hmem : id ∈ pendingNodes s.execution.nodeResults wave
          · exact afterResults_succeeded _ s hknown' hnodup' hverdict id hmem
          · have hs := hpending id hid hmem
            unfold outputOf at hs ⊢
            change (((afterResults d dispatch _ s).execution.nodeResults.get? id).bind _).isSome
            rwa [afterResults_frame _ s hknown' id hmem]

/-- With agents that never fail, the loop runs through. -/
theorem resumeWaves_agents_succeed (total i : Nat) (rest : List (List String)) (s : Run)
    (hdispatch : ∀ id n t, ∃ output, dispatch id n t = .ok output) :
    (resumeWaves d dispatch total i rest s).1 = none ∧
      (resumeWaves d dispatch total i rest s).2.execution.status = .completed := by
  have hverdict (nodeIds : List String) (s : Run) : verdict false (waveResults d dispatch nodeIds s) = .ok false := by
    unfold waveResults
    induction waveNodes d nodeIds with
    | nil => rfl
    | cons n nodes ih =>
      have hnode : ∃ output, executeNode dispatch n s.accumulated s.execution.executionId = .ok output := by
        obtain ⟨output, houtput⟩ :=
          hdispatch n.nodeId 0 (nodeTask n s.accumulated s.execution.executionId)
        refine ⟨output, ?_⟩
        unfold executeNode attempts
        rw [houtput]
      obtain ⟨output, houtput⟩ := hnode
      rw [List.map_cons, houtput]
      exact ih
  induction rest generalizing i s with
  | nil => exact ⟨rfl, rfl⟩
  | cons wave rest ih =>
    rw [resumeWaves_cons]
    dsimp only
    split
    · exact ih (i + 1) s
    · rw [hverdict]
      exact ih (i + 1) _

/-! ## The whole call -/

theorem resumeExecution_running {row : WorkflowExecutionRow} {waves : List (List String)} (executionId : String)
    (inputData : Option (Dict Value)) (hstatus : row.status = .running) (hdef : row.dagDefinition = d)
    (hsort : d.topologicalSort = .ok waves) :
    resumeExecution (some row) dispatch executionId inputData =
      settleRun d (resumeWaves d dispatch waves.length row.currentWave (waves.drop row.currentWave)
        (resumedRun row executionId inputData)) := by
  subst hdef
  unfold resumeExecution
  dsimp only
  rw [if_pos (.inl hstatus), hsort]

theorem settleRun_completed {r : Option PyError × Run} {execution : WorkflowExecution} {run : Run}
    (h : settleRun d r = (.ok execution, run)) (hstatus : execution.status = .completed) :
    r.1 = none ∧ execution = r.2.execution := by
  obtain ⟨exc, s⟩ := r
  cases exc with
  | none =>
    obtain ⟨rfl, -⟩ : s.execution = execution ∧ s = run := by simpa [settleRun] using h
    exact ⟨rfl, rfl⟩
  | some exc =>
    -- Whatever was raised, the execution is killed or failed.
    exfalso
    cases exc <;> simp [settleRun] at h <;> simp [← h.1, Run.persist, Run.setError, Run.setStatus] at hstatus

theorem exists_success {results : Dict NodeResult} {id : String} (h : (outputOf results id).isSome) :
    ∃ output, results.get? id = some (.success output) := by
  unfold outputOf at h
  cases hget : results.get? id with
  | none => simp [hget] at h
  | some r =>
    cases r with
    | success output => exact ⟨output, rfl⟩
    | failure error => simp [hget, NodeResult.output?] at h

/-- The waves from an index on, as the resume loop gets them. -/
theorem remaining_waves {waves : List (List String)} (h : Waves d waves) (i : Nat) :
    (∀ id ∈ (waves.drop i).flatten, id ∈ d.nodeIds) ∧ (∀ wave ∈ waves.drop i, wave.Nodup) ∧
      ∀ id ∈ (waves.take i).flatten, id ∉ (waves.drop i).flatten := by
  have hnodup := h.nodup
  refine ⟨fun id hid => ?_, fun wave hwave => ?_, ?_⟩
  · obtain ⟨wave, hwave, hid⟩ := List.mem_flatten.mp hid
    exact h.perm.mem_iff.mp (List.mem_flatten.mpr ⟨wave, List.mem_of_mem_drop hwave, hid⟩)
  · exact (List.nodup_flatten.mp hnodup).1 wave (List.mem_of_mem_drop hwave)
  · rw [← List.take_append_drop i waves, List.flatten_append, List.nodup_append] at hnodup
    intro id htake hdrop
    exact hnodup.2.2 id htake id hdrop rfl

/-! ## The row that is resumed wrongly -/

/-- The row says running and points past a wave in which a node has failed. -/
def PastFailedWave (d : WorkflowDefinition) (row : WorkflowExecutionRow) : Prop :=
  row.status = .running ∧ ∃ waves, d.topologicalSort = .ok waves ∧
    ∃ id ∈ (waves.take row.currentWave).flatten, ∃ error, row.nodeResults.get? id = some (.failure error)

/-- **A resumed run that completes has every node's output exactly when the row does not
point past a failed wave.** -/
theorem resume_skips_no_node_iff (workflows : Dict WorkflowDefinition) (d : WorkflowDefinition) (dispatch : Dispatch)
    (workflowId executionId : String) (inputData : Dict Value) (k : Nat) (row : WorkflowExecutionRow)
    (hd : workflows.get? workflowId = some d) (hvalid : d.validate = [])
    (hk : k < (startWorkflow workflows dispatch workflowId executionId inputData).2.writes.length)
    (hrow : storedRow ((startWorkflow workflows dispatch workflowId executionId inputData).2.writes.take k) =
      some row) :
    (∀ dispatch' input' execution run,
      resumeExecution (some row) dispatch' executionId input' = (.ok execution, run) →
      execution.status = .completed →
      ∀ n ∈ d.nodes, ∃ output, execution.nodeResults.get? n.nodeId = some (.success output)) ↔
      ¬ PastFailedWave d row := by
  obtain ⟨waves, hsort, hwaves, hstart⟩ := Launch.startWorkflow_eq_full dispatch executionId inputData hd hvalid
  rw [hstart] at hk hrow
  have hpos : 0 < k := by
    rcases Nat.eq_zero_or_pos k with rfl | hpos
    · exact absurd hrow (by simp [storedRow])
    · exact hpos
  have hstopped := Launch.stopped_row hwaves hpos hk hrow
  obtain ⟨hstatus, hdef, hentries⟩ := hstopped.holds hwaves
  obtain ⟨hknown, hnodup, hdisjoint⟩ := remaining_waves hwaves row.currentWave
  have hnode (n : AgentNode) (hn : n ∈ d.nodes) :
      n.nodeId ∈ (waves.take row.currentWave).flatten ∨ n.nodeId ∈ (waves.drop row.currentWave).flatten := by
    rw [← List.mem_append, ← List.flatten_append, List.take_append_drop, hwaves.perm.mem_iff,
      WorkflowDefinition.nodeIds, List.mem_dedup]
    exact List.mem_map_of_mem hn
  constructor
  · rintro hclaim ⟨-, waves', hsort', id, hid, error, hfailure⟩
    obtain rfl : waves = waves' := by
      rw [hsort] at hsort'
      exact Except.ok.inj hsort'
    -- Agents that never fail run through, past the failed node.
    let succeed : Dispatch := fun _ _ _ => .ok .none
    obtain ⟨hend, hcompleted⟩ := @resumeWaves_agents_succeed d succeed waves.length row.currentWave
      (waves.drop row.currentWave) (resumedRun row executionId none) fun _ _ _ => ⟨.none, rfl⟩
    have hresume := @resumeExecution_running d succeed row waves executionId none hstatus hdef hsort
    have hframe := @resumeWaves_frame d succeed waves.length row.currentWave (waves.drop row.currentWave)
      (resumedRun row executionId none) hknown id (.inl (hdisjoint id hid))
    generalize resumeWaves d succeed waves.length row.currentWave (waves.drop row.currentWave)
      (resumedRun row executionId none) = r at hend hcompleted hresume hframe
    obtain ⟨exc, s⟩ := r
    obtain rfl : exc = none := hend
    have hmem : id ∈ d.nodes.map (·.nodeId) := by
      rw [← List.mem_dedup]
      exact hwaves.perm.mem_iff.mp (List.mem_flatten.mpr (by
        obtain ⟨wave, hwave, hid⟩ := List.mem_flatten.mp hid
        exact ⟨wave, List.mem_of_mem_take hwave, hid⟩))
    obtain ⟨n, hn, rfl⟩ := List.mem_map.mp hmem
    obtain ⟨output, hsuccess⟩ := hclaim succeed none s.execution s hresume hcompleted n hn
    have hfailed : s.execution.nodeResults.get? n.nodeId = some (.failure error) := hframe.trans hfailure
    rw [hsuccess] at hfailed
    simp at hfailed
  · intro hpast dispatch' input' execution run hresume hcompleted n hn
    rw [resumeExecution_running executionId input' hstatus hdef hsort] at hresume
    obtain ⟨hend, rfl⟩ := settleRun_completed hresume hcompleted
    rcases hnode n hn with hbefore | hafter
    · obtain ⟨r, hr⟩ := Option.isSome_iff_exists.mp (hentries n.nodeId hbefore)
      cases r with
      | success output =>
        refine ⟨output, ?_⟩
        rw [resumeWaves_frame _ _ _ _ hknown n.nodeId (.inl (hdisjoint n.nodeId hbefore))]
        exact hr
      | failure error => exact absurd ⟨hstatus, waves, hsort, n.nodeId, hbefore, error, hr⟩ hpast
    · exact exists_success (resumeWaves_completed _ _ _ _ hknown hnodup hend hcompleted n.nodeId hafter)

/-! ## One node that fails -/

def oneNode : WorkflowDefinition := { workflowId := "w", nodes := [{ nodeId := "a", agentType := "t" }] }

def brokenAgents : Dispatch := fun _ _ _ => .error (.other "E" "x")

def mendedAgents : Dispatch := fun _ _ _ => .ok (.int 1)

/-- What the store holds when the failing run stops after so many writes. -/
def oneNodeRow (k : Nat) : Option WorkflowExecutionRow :=
  storedRow ((startWorkflow [("w", oneNode)] brokenAgents "w" "e" []).2.writes.take k)

/-- Stopped right after the first write, the run is resumed without a gap. -/
theorem oneNode_resumes_from_its_first_row : ∃ row, oneNodeRow 1 = some row ∧
    ∀ dispatch' input' execution run, resumeExecution (some row) dispatch' "e" input' = (.ok execution, run) →
      execution.status = .completed →
      ∀ n ∈ oneNode.nodes, ∃ output, execution.nodeResults.get? n.nodeId = some (.success output) := by
  refine ⟨_, rfl, (resume_skips_no_node_iff [("w", oneNode)] oneNode brokenAgents "w" "e" [] 1 _ rfl (by decide)
    (by decide) rfl).mpr ?_⟩
  rintro ⟨-, waves, -, id, hid, -⟩
  exact absurd hid List.not_mem_nil

/-- Stopped between the checkpoint of the failed wave and the write that fails the execution,
the run is resumed past its only node and completes. -/
theorem oneNode_completes_without_its_node : ∃ row execution run,
    3 < (startWorkflow [("w", oneNode)] brokenAgents "w" "e" []).2.writes.length ∧
    oneNodeRow 3 = some row ∧ oneNode.validate = [] ∧
    resumeExecution (some row) mendedAgents "e" none = (.ok execution, run) ∧ execution.status = .completed ∧
    outputOf execution.nodeResults "a" = none :=
  ⟨_, _, _, by decide, rfl, by decide, rfl, rfl, rfl⟩

end Occp.Workflow
