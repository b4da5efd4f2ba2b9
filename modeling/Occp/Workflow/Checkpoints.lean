import Occp.Workflow.WaveRun

/-!
# The rows that a run leaves behind

Whatever write `start_workflow` stops after, the row belongs to one wave: it
holds the results of the earlier waves and some of that wave's own.
-/

namespace Occp.Workflow

open WorkflowDefinition (Waves)

/-! ## Results and contexts -/

/-- What a context with this input holds, by the results so far. -/
def contextOf (input : Value) (results : Dict NodeResult) (key : String) : Option Value :=
  (outputOf results key).or (if key = "input" then some input else none)

def Follows (input : Value) (s : Run) : Prop :=
  ∀ key, s.accumulated.get? key = contextOf input s.execution.nodeResults key

theorem outputOf_set (results : Dict NodeResult) (nodeId key : String) (r : NodeResult) :
    outputOf (results.set nodeId r) key = if key = nodeId then r.output? else outputOf results key := by
  unfold outputOf
  rw [Dict.get?_set]
  split <;> rfl

/-- A failure must not hide an earlier success: only nodes without one are run. -/
theorem Follows.record {input : Value} {s : Run} (h : Follows input s) (nodeId : String) (r : NodeResult)
    (hnew : outputOf s.execution.nodeResults nodeId = none) : Follows input (s.record nodeId r) := by
  intro key
  have hkey := h key
  unfold contextOf at hkey ⊢
  cases r with
  | success output =>
    change (s.accumulated.set nodeId output).get? key = (outputOf (s.execution.nodeResults.set nodeId _) key).or _
    rw [Dict.get?_set, outputOf_set, hkey]
    split <;> rfl
  | failure error =>
    change s.accumulated.get? key = (outputOf (s.execution.nodeResults.set nodeId _) key).or _
    rw [outputOf_set, hkey]
    by_cases hk : key = nodeId
    · rw [if_pos hk, hk, hnew]
      rfl
    · rw [if_neg hk]

theorem Follows.recordAll {input : Value} {s : Run} (h : Follows input s) (results : List (String × NodeResult))
    (hnodup : (results.map (·.1)).Nodup)
    (hnew : ∀ id ∈ results.map (·.1), outputOf s.execution.nodeResults id = none) :
    Follows input (s.recordAll results) := by
  induction results generalizing s with
  | nil => exact h
  | cons e rest ih =>
    rw [List.map_cons, List.nodup_cons] at hnodup
    have hs := h.record e.1 e.2 (hnew e.1 (by simp))
    refine ih hs hnodup.2 fun id hid => ?_
    have hne : id ≠ e.1 := fun heq => hnodup.1 (heq ▸ hid)
    change outputOf (s.execution.nodeResults.set e.1 e.2) id = none
    rw [outputOf_set, if_neg hne]
    exact hnew id (by simp [hid])

theorem outputOf_setAll_of_notMem (results : Dict NodeResult) (entries : List (String × NodeResult)) (id : String)
    (h : id ∉ entries.map (·.1)) : outputOf (results.setAll entries) id = outputOf results id := by
  unfold outputOf
  rw [Dict.get?_setAll_of_notMem _ _ _ h]

/-! ## One wave among the others -/

variable {d : WorkflowDefinition} {waves : List (List String)}

/-- What the order of the waves says about the one at an index. -/
structure WaveAt (d : WorkflowDefinition) (waves : List (List String)) (i : Nat) (wave : List String)
    (rest : List (List String)) : Prop where
  take_succ : (waves.take (i + 1)).flatten = (waves.take i).flatten ++ wave
  drop_succ : waves.drop (i + 1) = rest
  lt_length : i < waves.length
  ne_nil : wave ≠ []
  nodup : wave.Nodup
  known : ∀ id ∈ wave, id ∈ d.nodeIds
  not_before : ∀ id ∈ wave, id ∉ (waves.take i).flatten
  not_after : ∀ id ∈ wave, id ∉ rest.flatten
  deps_before : ∀ id ∈ wave, ∀ dep ∈ d.adj id, dep ∈ (waves.take i).flatten

theorem waveAt_of_drop (h : Waves d waves) {i : Nat} {wave : List String} {rest : List (List String)}
    (hdrop : waves.drop i = wave :: rest) : WaveAt d waves i wave rest := by
  have hsplit : waves = waves.take i ++ wave :: rest := by
    rw [← hdrop, List.take_append_drop]
  have hlt : i < waves.length := by
    by_contra hge
    rw [List.drop_eq_nil_of_le (by omega)] at hdrop
    simp at hdrop
  have hget : waves[i]? = some wave := by
    have hhead := @List.getElem?_drop _ waves i 0
    rw [hdrop] at hhead
    simpa using hhead.symm
  have hnodup := h.nodup
  rw [hsplit, List.flatten_append, List.flatten_cons, List.nodup_append, List.nodup_append] at hnodup
  obtain ⟨-, ⟨hwave, -, hafter⟩, hbefore⟩ := hnodup
  have hmem : wave ∈ waves := by
    rw [hsplit]
    simp
  refine ⟨?_, ?_, hlt, h.nonempty wave hmem, hwave, fun id hid => ?_, fun id hid hin => ?_, fun id hid hin => ?_,
    fun id hid dep hdep => ?_⟩
  · rw [List.take_add_one, hget]
    simp
  · rw [← List.drop_drop, hdrop]
    rfl
  · exact h.perm.mem_iff.mp (List.mem_flatten.mpr ⟨wave, hmem, hid⟩)
  · exact hbefore id hin id (List.mem_append_left _ hid) rfl
  · exact hafter id hid id hin rfl
  · have hlayered := h.layered
    rw [hsplit] at hlayered
    simpa using hlayered.deps_before id hid dep hdep

/-! ## The start loop -/

theorem startWaves_cons (dispatch : Dispatch) (total i : Nat) (s : Run) (wave : List String)
    (rest : List (List String)) :
    startWaves d dispatch total i (wave :: rest) s =
      match verdict false (waveResults d dispatch wave s) with
      | .error exc => (some exc, afterResults d dispatch wave s)
      | .ok true =>
        (none, ((((afterResults d dispatch wave s).persist d (i + 1)).setStatus .failed).setError
          s!"One or more nodes failed in wave {i}: {reprStrings wave}").persist d (i + 1))
      | .ok false => startWaves d dispatch total (i + 1) rest ((afterResults d dispatch wave s).persist d (i + 1)) := by
  rw [startWaves, runWave_eq]
  cases verdict false (waveResults d dispatch wave s) with
  | error exc => rfl
  | ok waveFailed => cases waveFailed <;> rfl

theorem Follows.afterResults {input : Value} {s : Run} (h : Follows input s) (dispatch : Dispatch)
    (nodeIds : List String) (hknown : ∀ id ∈ nodeIds, id ∈ d.nodeIds) (hnodup : nodeIds.Nodup)
    (hnew : ∀ id ∈ nodeIds, outputOf s.execution.nodeResults id = none) :
    Follows input (afterResults d dispatch nodeIds s) := by
  have hpre := settledResults_keys_isPrefix (waveResults d dispatch nodeIds s)
  rw [waveResults_keys nodeIds s hknown] at hpre
  have hstart : Follows input { s.setStatus .running with handed := s.handed ++ waveTasks d nodeIds s } := h
  exact hstart.recordAll _ (hpre.sublist.nodup hnodup) fun id hid => hnew id (hpre.subset hid)

/-! ## What the store holds -/

theorem storedRow_append (before after : List StoreWrite) :
    storedRow (before ++ after) = after.foldl StoreWrite.apply (storedRow before) := List.foldl_append

theorem foldl_updates (results : List (String × NodeResult)) (row : WorkflowExecutionRow) :
    (results.map fun e => StoreWrite.updateWorkflowNodeResult e.1 e.2).foldl StoreWrite.apply (some row) =
      some { row with nodeResults := row.nodeResults.setAll results } := by
  induction results generalizing row with
  | nil => rfl
  | cons e rest ih => exact ih { row with nodeResults := row.nodeResults.set e.1 e.2 }

theorem storedRow_persist (s : Run) (d : WorkflowDefinition) (currentWave : Nat) :
    storedRow (s.persist d currentWave).writes = some (s.execution.row d currentWave) := by
  change storedRow (s.writes ++ [_]) = _
  rw [storedRow_append]
  rfl

/-! ## A launched run -/

/-- A call of `start_workflow` on a definition that is sorted into these waves. -/
structure Launch where
  definition : WorkflowDefinition
  waves : List (List String)
  dispatch : Dispatch
  executionId : String
  workflowId : String
  inputData : Dict Value

namespace Launch

variable (l : Launch)

def begun : Run :=
  { (Run.persist { execution := { executionId := l.executionId, workflowId := l.workflowId, status := .running } }
      l.definition 0) with
    accumulated := [("input", .dict l.inputData)] }

/-- The run to its end. -/
def full : Except PyError WorkflowExecution × Run :=
  settleRun l.definition (startWaves l.definition l.dispatch l.waves.length 0 l.waves l.begun)

/-- The row of a running execution. -/
structure Holds (currentWave : Nat) (results : Dict NodeResult) (row : WorkflowExecutionRow) : Prop where
  status : row.status = .running
  definition : row.dagDefinition = l.definition
  currentWave : row.currentWave = currentWave
  nodeResults : row.nodeResults = results

/-- The run is about to start the wave at this index. -/
structure AtWave (i : Nat) (s : Run) : Prop where
  ends : settleRun l.definition (startWaves l.definition l.dispatch l.waves.length i (l.waves.drop i) s) = l.full
  executionId : s.execution.executionId = l.executionId
  keys_nodup : s.execution.nodeResults.keys.Nodup
  recorded : ∀ id ∈ s.execution.nodeResults.keys, id ∈ (l.waves.take i).flatten
  succeeded : ∀ id ∈ (l.waves.take i).flatten, (outputOf s.execution.nodeResults id).isSome
  follows : Follows (.dict l.inputData) s
  handed : ∀ e ∈ s.handed, e.1 ∈ (l.waves.take i).flatten
  stored : ∃ row, storedRow s.writes = some row ∧ l.Holds i s.execution.nodeResults row

/-- The results of a wave that is started now. -/
def settled (wave : List String) (s : Run) : List (String × NodeResult) :=
  settledResults (waveResults l.definition l.dispatch wave s)

/-- The rows that a run can leave before its last write. -/
inductive Stopped (row : WorkflowExecutionRow) : Prop
  | midWave (i : Nat) (s : Run) (j : Nat) (hat : l.AtWave i s)
      (hrow : l.Holds i (s.execution.nodeResults.setAll ((l.settled ((l.waves.drop i).headD []) s).take j)) row)
  | failedCheckpoint (i : Nat) (s : Run) (wave : List String) (rest : List (List String)) (hat : l.AtWave i s)
      (hdrop : l.waves.drop i = wave :: rest)
      (hverdict : verdict false (waveResults l.definition l.dispatch wave s) = .ok true)
      (hrow : l.Holds (i + 1) (s.execution.nodeResults.setAll (l.settled wave s)) row)

variable {l}

theorem atWave_begun : l.AtWave 0 l.begun where
  ends := rfl
  executionId := rfl
  keys_nodup := List.nodup_nil
  recorded := fun _ h => absurd h List.not_mem_nil
  succeeded := by simp
  follows := by
    intro key
    change Dict.get? [("input", _)] key = _
    unfold Dict.get? contextOf
    by_cases hk : key = "input" <;> simp [hk, eq_comm, outputOf, begun, Run.persist]
  handed := fun _ h => absurd h List.not_mem_nil
  stored := ⟨_, rfl, rfl, rfl, rfl, rfl⟩

/-- A node of a wave that starts has no result yet. -/
theorem AtWave.fresh {i : Nat} {s : Run} (h : l.AtWave i s) {id : String} (hid : id ∉ (l.waves.take i).flatten) :
    s.execution.nodeResults.get? id = none :=
  (Dict.get?_eq_none_iff _ _).mpr fun hmem => hid (h.recorded id hmem)

theorem AtWave.settled_keys_nodup (hw : Waves l.definition l.waves) {i : Nat} {wave : List String}
    {rest : List (List String)} (hdrop : l.waves.drop i = wave :: rest) (s : Run) :
    ((l.settled wave s).map (·.1)).Nodup ∧ ∀ id ∈ (l.settled wave s).map (·.1), id ∈ wave := by
  have hpos := waveAt_of_drop hw hdrop
  have hpre := settledResults_keys_isPrefix (waveResults l.definition l.dispatch wave s)
  rw [waveResults_keys wave s hpos.known] at hpre
  exact ⟨hpre.sublist.nodup hpos.nodup, fun id hid => hpre.subset hid⟩

theorem AtWave.no_output {i : Nat} {s : Run} (h : l.AtWave i s) {id : String} (hid : id ∉ (l.waves.take i).flatten) :
    outputOf s.execution.nodeResults id = none := by
  unfold outputOf
  rw [h.fresh hid]
  rfl

/-- A wave in which every node succeeds leads to the next one. -/
theorem AtWave.next (hw : Waves l.definition l.waves) {i : Nat} {s : Run} {wave : List String}
    {rest : List (List String)} (h : l.AtWave i s) (hdrop : l.waves.drop i = wave :: rest)
    (hverdict : verdict false (waveResults l.definition l.dispatch wave s) = .ok false) :
    l.AtWave (i + 1) ((afterResults l.definition l.dispatch wave s).persist l.definition (i + 1)) := by
  have hpos := waveAt_of_drop hw hdrop
  obtain ⟨hnodup, hsub⟩ := settled_keys_nodup hw hdrop s
  have hresults : ((afterResults l.definition l.dispatch wave s).persist l.definition (i + 1)).execution.nodeResults =
      s.execution.nodeResults.setAll (l.settled wave s) := afterResults_nodeResults wave s
  have hends := h.ends
  rw [hdrop, startWaves_cons, hverdict] at hends
  refine ⟨?_, ?_, ?_, fun id hid => ?_, fun id hid => ?_, ?_, fun e he => ?_, ?_⟩
  · rw [hpos.drop_succ]
    exact hends
  · exact (afterResults_executionId wave s).trans h.executionId
  · rw [hresults]
    exact Dict.nodup_keys_setAll _ _ h.keys_nodup
  · rw [hpos.take_succ, List.mem_append]
    by_contra hnot
    rw [not_or] at hnot
    have hkey : id ∉ (l.settled wave s).map (·.1) := fun hmem => hnot.2 (hsub id hmem)
    have hnone := h.fresh hnot.1
    rw [← Dict.get?_setAll_of_notMem _ (l.settled wave s) id hkey, ← hresults, Dict.get?_eq_none_iff] at hnone
    exact hnone hid
  · rw [hpos.take_succ, List.mem_append] at hid
    rw [hresults]
    by_cases hwave : id ∈ wave
    · rw [← hresults]
      exact afterResults_succeeded wave s hpos.known hpos.nodup hverdict id hwave
    · rw [outputOf_setAll_of_notMem _ _ _ fun hmem => hwave (hsub id hmem)]
      exact h.succeeded id (hid.resolve_right hwave)
  · exact h.follows.afterResults l.dispatch wave hpos.known hpos.nodup fun id hid =>
      h.no_output (hpos.not_before id hid)
  · rw [hpos.take_succ, List.mem_append]
    change e ∈ (afterResults l.definition l.dispatch wave s).handed at he
    rw [afterResults_handed, List.mem_append] at he
    refine he.imp (h.handed e) fun he => ?_
    rw [← waveTasks_keys wave s hpos.known]
    exact List.mem_map_of_mem he
  · exact ⟨_, storedRow_persist _ _ _, afterResults_status wave s, rfl, rfl, rfl⟩

/-! ## Every write before the last -/

/-- The row after so many writes is one that a running execution can leave. -/
def StoppedAfter (l : Launch) (writes : List StoreWrite) (k : Nat) : Prop :=
  ∃ row, storedRow (writes.take k) = some row ∧ l.Stopped row

/-- While the results of a wave come in. -/
theorem AtWave.stopped_updates {i : Nat} {s : Run} (h : l.AtWave i s)
    (hpast : ∀ k, 0 < k → k ≤ s.writes.length → l.StoppedAfter s.writes k) (k : Nat) (hk : 0 < k) :
    l.StoppedAfter (s.writes ++ (l.settled ((l.waves.drop i).headD []) s).map
      fun e => .updateWorkflowNodeResult e.1 e.2) k := by
  by_cases hle : k ≤ s.writes.length
  · unfold StoppedAfter
    rw [List.take_append_of_le_length hle]
    exact hpast k hk hle
  · obtain ⟨row, hrow, hholds⟩ := h.stored
    unfold StoppedAfter
    rw [List.take_append, List.take_of_length_le (by omega), ← List.map_take, storedRow_append, hrow, foldl_updates]
    exact ⟨_, rfl, .midWave i s (k - s.writes.length) h
      ⟨hholds.status, hholds.definition, hholds.currentWave, by rw [hholds.nodeResults]⟩⟩

theorem StoppedAfter.append {writes : List StoreWrite} {k : Nat} (h : l.StoppedAfter writes k)
    (hk : k ≤ writes.length) (more : List StoreWrite) : l.StoppedAfter (writes ++ more) k := by
  unfold StoppedAfter
  rw [List.take_append_of_le_length hk]
  exact h

/-- One more write: only the row it leaves is new. -/
theorem StoppedAfter.snoc {writes : List StoreWrite} {w : StoreWrite}
    (hpast : ∀ k, 0 < k → k ≤ writes.length → l.StoppedAfter writes k)
    (hlast : ∃ row, storedRow (writes ++ [w]) = some row ∧ l.Stopped row) (k : Nat) (hk : 0 < k)
    (hle : k ≤ (writes ++ [w]).length) : l.StoppedAfter (writes ++ [w]) k := by
  rw [List.length_append, List.length_singleton] at hle
  rcases Nat.lt_or_ge writes.length k with hlt | hge
  · unfold StoppedAfter
    rw [List.take_of_length_le (by rw [List.length_append, List.length_singleton]; omega)]
    exact hlast
  · exact (hpast k hk hge).append hge _

theorem settleRun_writes (d : WorkflowDefinition) (exc : PyError) (s : Run) :
    ∃ w, (settleRun d (some exc, s)).2.writes = s.writes ++ [w] := by
  cases exc <;> exact ⟨_, rfl⟩

theorem AtWave.stopped (hw : Waves l.definition l.waves) {i : Nat} {s : Run} (h : l.AtWave i s)
    (hpast : ∀ k, 0 < k → k ≤ s.writes.length → l.StoppedAfter s.writes k) (k : Nat) (hk : 0 < k)
    (hlt : k < l.full.2.writes.length) : l.StoppedAfter l.full.2.writes k := by
  generalize hrest : l.waves.drop i = rest
  have hends := h.ends
  rw [hrest] at hends
  induction rest generalizing i s with
  | nil =>
    obtain ⟨w, hfull⟩ : ∃ w, l.full.2.writes = s.writes ++ [w] := by
      rw [← hends]
      exact ⟨_, rfl⟩
    rw [hfull, List.length_append, List.length_singleton] at hlt
    rw [hfull]
    exact (hpast k hk (by omega)).append (by omega) _
  | cons wave rest ih =>
    have hpos := waveAt_of_drop hw hrest
    have hupdates := h.stopped_updates hpast
    rw [hrest, List.headD_cons] at hupdates
    have hafter : (afterResults l.definition l.dispatch wave s).writes = s.writes ++
        (l.settled wave s).map fun e => .updateWorkflowNodeResult e.1 e.2 := afterResults_writes wave s
    rw [← hafter] at hupdates
    rw [startWaves_cons] at hends
    cases hverdict : verdict false (waveResults l.definition l.dispatch wave s) with
    | error exc =>
      rw [hverdict] at hends
      obtain ⟨w, hfull⟩ : ∃ w, l.full.2.writes = (afterResults l.definition l.dispatch wave s).writes ++ [w] := by
        rw [← hends]
        exact settleRun_writes l.definition exc _
      rw [hfull, List.length_append, List.length_singleton] at hlt
      rw [hfull]
      exact (hupdates k hk).append (by omega) _
    | ok waveFailed =>
      rw [hverdict] at hends
      have hcheckpoint := storedRow_persist (afterResults l.definition l.dispatch wave s) l.definition (i + 1)
      cases waveFailed with
      | true =>
        obtain ⟨w, hfull⟩ : ∃ w, l.full.2.writes =
            ((afterResults l.definition l.dispatch wave s).persist l.definition (i + 1)).writes ++ [w] := by
          rw [← hends]
          exact ⟨_, rfl⟩
        rw [hfull, List.length_append, List.length_singleton] at hlt
        have hle : k ≤ ((afterResults l.definition l.dispatch wave s).persist l.definition (i + 1)).writes.length := by
          omega
        rw [hfull]
        refine (StoppedAfter.snoc (fun k hk _ => hupdates k hk) ⟨_, hcheckpoint, ?_⟩ k hk hle).append hle _
        exact .failedCheckpoint i s wave rest h hrest hverdict
          ⟨afterResults_status wave s, rfl, rfl, afterResults_nodeResults wave s⟩
      | false =>
        have hnext := h.next hw hrest hverdict
        refine ih hnext (StoppedAfter.snoc (fun k hk _ => hupdates k hk) ?_) hpos.drop_succ hends
        obtain ⟨row, hrow, hholds⟩ := hnext.stored
        refine ⟨row, hrow, .midWave (i + 1) _ 0 hnext ?_⟩
        rw [List.take_zero, Dict.setAll_nil]
        exact hholds

/-- **Stopped after any write but the last, a run leaves a row of one of the two kinds.** -/
theorem stopped_row (hw : Waves l.definition l.waves) {k : Nat} (hk : 0 < k) (hlt : k < l.full.2.writes.length)
    {row : WorkflowExecutionRow} (hrow : storedRow (l.full.2.writes.take k) = some row) : l.Stopped row := by
  have hfirst : l.StoppedAfter l.begun.writes 1 :=
    ⟨_, rfl, .midWave 0 l.begun 0 atWave_begun ⟨rfl, rfl, rfl, rfl⟩⟩
  obtain ⟨row', hrow', hstopped⟩ := atWave_begun.stopped hw (fun k hk hle => by
    obtain rfl : k = 1 := by
      change k ≤ 1 at hle
      omega
    exact hfirst) k hk hlt
  obtain rfl : row = row' := by
    rw [hrow] at hrow'
    exact Option.some.inj hrow'
  exact hstopped

theorem AtWave.has_result {i : Nat} {s : Run} (h : l.AtWave i s) {id : String} (hid : id ∈ (l.waves.take i).flatten) :
    (s.execution.nodeResults.get? id).isSome := by
  have hs := h.succeeded id hid
  unfold outputOf at hs
  cases hget : s.execution.nodeResults.get? id with
  | none => simp [hget] at hs
  | some r => rfl

/-- Every node before `current_wave` has a result in the row. -/
theorem Stopped.holds (hw : Waves l.definition l.waves) {row : WorkflowExecutionRow} (h : l.Stopped row) :
    row.status = .running ∧ row.dagDefinition = l.definition ∧
      ∀ id ∈ (l.waves.take row.currentWave).flatten, (row.nodeResults.get? id).isSome := by
  cases h with
  | midWave i s j hat hrow =>
    refine ⟨hrow.status, hrow.definition, fun id hid => ?_⟩
    rw [hrow.currentWave] at hid
    rw [hrow.nodeResults, Dict.isSome_get?_setAll]
    exact .inl (hat.has_result hid)
  | failedCheckpoint i s wave rest hat hdrop hverdict hrow =>
    have hpos := waveAt_of_drop hw hdrop
    refine ⟨hrow.status, hrow.definition, fun id hid => ?_⟩
    rw [hrow.currentWave, hpos.take_succ, List.mem_append] at hid
    rw [hrow.nodeResults, Dict.isSome_get?_setAll, settled, (settled_of_verdict _ _ _ hverdict).1,
      waveResults_keys wave s hpos.known]
    exact hid.imp_left hat.has_result

/-- What `start_workflow` does with a valid definition. -/
theorem startWorkflow_eq_full {workflows : Dict WorkflowDefinition} {workflowId : String} {d : WorkflowDefinition}
    (dispatch : Dispatch) (executionId : String) (inputData : Dict Value) (hd : workflows.get? workflowId = some d)
    (hvalid : d.validate = []) :
    ∃ waves, d.topologicalSort = .ok waves ∧ Waves d waves ∧
      startWorkflow workflows dispatch workflowId executionId inputData =
        full ⟨d, waves, dispatch, executionId, workflowId, inputData⟩ := by
  obtain ⟨waves, hsort, hwaves⟩ := WorkflowDefinition.topologicalSort_waves hvalid
  refine ⟨waves, hsort, hwaves, ?_⟩
  rw [startWorkflow, hd]
  dsimp only
  rw [if_pos hvalid, hsort]
  rfl

end Launch

end Occp.Workflow
