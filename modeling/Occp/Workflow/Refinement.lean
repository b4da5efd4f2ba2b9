import Occp.Workflow.Recovery

/-!
# A resumed run against the uninterrupted one

With the same agents, the wave that was interrupted is finished as it would have
been, and every later one repeated, as long as its nodes see the same context.
-/

namespace Occp.Workflow

open WorkflowDefinition (Waves)

variable {d : WorkflowDefinition} {dispatch : Dispatch}

/-! ## The rest of an interrupted wave -/

theorem filter_eq_of_fresh {results : Dict NodeResult} {entries : List (String × Except PyError Value)}
    (hfresh : ∀ e ∈ entries, results.get? e.1 = none) :
    entries.filter (fun e => (outputOf results e.1).isNone) = entries := by
  rw [List.filter_eq_self]
  intro e he
  unfold outputOf
  rw [hfresh e he]
  rfl

/-- The nodes without an output are run again: the wave ends as it would have, with the
results it would have had. -/
theorem interrupted_results (entries : List (String × Except PyError Value)) (hnodup : (entries.map (·.1)).Nodup)
    (before : Dict NodeResult) (hfresh : ∀ e ∈ entries, before.get? e.1 = none) (j : Nat)
    (results : Dict NodeResult) (hresults : results = before.setAll ((settledResults entries).take j))
    (rerun : List (String × Except PyError Value))
    (hrerun : rerun = entries.filter fun e => (outputOf results e.1).isNone) :
    (∀ waveFailed, verdict waveFailed rerun = verdict waveFailed entries) ∧
      ∀ key, (results.setAll (settledResults rerun)).get? key = (before.setAll (settledResults entries)).get? key := by
  induction entries generalizing before j rerun with
  | nil =>
    subst hrerun hresults
    simp [settledResults]
  | cons e rest ih =>
    obtain ⟨id, result⟩ := e
    rw [List.map_cons, List.nodup_cons] at hnodup
    have hrest : ∀ e ∈ rest, e.1 ≠ id := fun e he heq =>
      hnodup.1 (heq ▸ List.mem_map.mpr ⟨e, he, rfl⟩)
    by_cases hnothing : results = before
    · -- With nothing recorded, everything is run again.
      subst hnothing
      rw [hrerun, filter_eq_of_fresh hfresh]
      exact ⟨fun _ => rfl, fun _ => rfl⟩
    · cases hentry : entryOf result with
      | error exc =>
        rw [settledResults, hentry, List.take_nil] at hresults
        exact absurd hresults hnothing
      | ok r =>
        cases j with
        | zero => exact absurd hresults hnothing
        | succ j =>
          rw [settledResults, hentry] at hresults
          change results = (before.set id r).setAll ((settledResults rest).take j) at hresults
          obtain ⟨hverdict, hkeys⟩ := ih hnodup.2 (before.set id r) (fun e he => by
            rw [Dict.get?_set_of_ne _ _ _ _ (hrest e he)]
            exact hfresh e (List.mem_cons_of_mem _ he)) j hresults _ rfl
          have hid : results.get? id = some r := by
            rw [hresults, Dict.get?_setAll_of_notMem, Dict.get?_set_self]
            rw [List.map_take]
            exact fun hmem => hnodup.1 ((settledResults_keys_isPrefix rest).subset (List.mem_of_mem_take hmem))
          have hrerun' : rerun = if r.output?.isNone then
              (id, result) :: rest.filter (fun e => (outputOf results e.1).isNone)
            else rest.filter (fun e => (outputOf results e.1).isNone) := by
            rw [hrerun, List.filter_cons, outputOf, hid]
            rfl
          cases r with
          | success output =>
            rw [hrerun']
            refine ⟨fun waveFailed => ?_, fun key => ?_⟩
            · rw [verdict, hentry]
              exact hverdict waveFailed
            · rw [settledResults.eq_def ((id, result) :: rest)]
              simp only [hentry]
              exact hkeys key
          | failure error =>
            rw [hrerun']
            refine ⟨fun waveFailed => ?_, fun key => ?_⟩
            · simp only [NodeResult.output?, Option.isNone_none, if_true, verdict, hentry]
              exact hverdict true
            · -- Recording the same failure again changes nothing.
              have hagain (key : String) : (results.set id (.failure error)).get? key = results.get? key := by
                rw [Dict.get?_set]
                split
                · next heq => rw [heq, hid]
                · rfl
              simp only [NodeResult.output?, Option.isNone_none, if_true, settledResults, hentry, Dict.setAll_cons]
              rw [Dict.get?_setAll_congr hagain]
              exact hkeys key

/-! ## What a node is handed -/

/-- A node reads its dependencies and the input out of the context, nothing else. -/
theorem nodeTask_congr (n : AgentNode) (context context' : Dict Value) (executionId : String)
    (hdeps : ∀ dep ∈ n.dependsOn, context.get? dep = context'.get? dep)
    (hinput : context.get? "input" = context'.get? "input") :
    nodeTask n context executionId = nodeTask n context' executionId := by
  have hupstream : n.dependsOn.foldl (fun (u : Dict Value) dep => u.set dep ((context.get? dep).getD .none)) [] =
      n.dependsOn.foldl (fun (u : Dict Value) dep => u.set dep ((context'.get? dep).getD .none)) [] := by
    refine List.foldl_ext _ _ _ fun u dep hdep => ?_
    rw [hdeps dep hdep]
  unfold nodeTask
  rw [hupstream, hinput]

theorem nodeTask_input (n : AgentNode) (context : Dict Value) (executionId : String) :
    (nodeTask n context executionId).metadata.get? "_workflow_input" =
      some ((context.get? "input").getD (.dict [])) := Dict.get?_set_self _ _ _

theorem mem_waveNodes {nodeIds : List String} {n : AgentNode} (h : n ∈ waveNodes d nodeIds) :
    n.nodeId ∈ nodeIds ∧ n.dependsOn = d.adj n.nodeId := by
  obtain ⟨id, hid, hget⟩ := List.mem_filterMap.mp h
  obtain ⟨-, rfl⟩ := d.nodeMap_get id n hget
  refine ⟨hid, ?_⟩
  rw [WorkflowDefinition.adj, hget]

theorem waveNodes_filter (nodeIds : List String) (p : String → Bool) :
    waveNodes d (nodeIds.filter p) = (waveNodes d nodeIds).filter fun n => p n.nodeId := by
  unfold waveNodes
  induction nodeIds with
  | nil => rfl
  | cons id rest ih =>
    cases hget : d.nodeMap.get? id with
    | none =>
      rw [List.filterMap_cons_none hget, ← ih, List.filter_cons]
      split
      · rw [List.filterMap_cons_none hget]
      · rfl
    | some n =>
      obtain ⟨-, hid⟩ := d.nodeMap_get id n hget
      rw [List.filterMap_cons_some hget, List.filter_cons, List.filter_cons, hid]
      split
      · rw [List.filterMap_cons_some hget, ih]
      · exact ih

/-- Two runs whose contexts agree on what the nodes of a wave read. -/
structure SameView (d : WorkflowDefinition) (wave : List String) (s r : Run) : Prop where
  executionId : r.execution.executionId = s.execution.executionId
  deps : ∀ id ∈ wave, ∀ dep ∈ d.adj id, r.accumulated.get? dep = s.accumulated.get? dep
  input : r.accumulated.get? "input" = s.accumulated.get? "input"

theorem SameView.nodeTask {wave : List String} {s r : Run} (h : SameView d wave s r) {n : AgentNode}
    (hn : n ∈ waveNodes d wave) :
    nodeTask n r.accumulated r.execution.executionId = nodeTask n s.accumulated s.execution.executionId := by
  obtain ⟨hmem, hdeps⟩ := mem_waveNodes hn
  rw [h.executionId]
  exact nodeTask_congr n _ _ _ (fun dep hdep => h.deps n.nodeId hmem dep (hdeps ▸ hdep)) h.input

theorem SameView.waveResults {wave : List String} {s r : Run} (h : SameView d wave s r) (p : String → Bool) :
    waveResults d dispatch (wave.filter p) r = (waveResults d dispatch wave s).filter fun e => p e.1 := by
  unfold Workflow.waveResults
  rw [waveNodes_filter, List.filter_map]
  refine List.map_congr_left fun n hn => ?_
  unfold executeNode
  rw [h.nodeTask (List.mem_of_mem_filter hn)]

theorem SameView.waveTasks {wave : List String} {s r : Run} (h : SameView d wave s r) (p : String → Bool) :
    ∀ e ∈ waveTasks d (wave.filter p) r, e ∈ waveTasks d wave s := by
  intro e he
  unfold Workflow.waveTasks at he ⊢
  rw [waveNodes_filter] at he
  obtain ⟨n, hn, rfl⟩ := List.mem_map.mp he
  have hmem := List.mem_of_mem_filter hn
  exact List.mem_map.mpr ⟨n, hmem, by rw [h.nodeTask hmem]⟩

/-! ## One wave of both runs -/

/-- What is run again of a wave is what was not recorded as a success. -/
def Reruns (d : WorkflowDefinition) (dispatch : Dispatch) (wave : List String) (s r : Run) : Prop :=
  waveResults d dispatch (pendingNodes r.execution.nodeResults wave) r =
    (waveResults d dispatch wave s).filter fun e => (outputOf r.execution.nodeResults e.1).isNone

theorem reruns_of_nothing_pending {wave : List String} (s r : Run)
    (h : pendingNodes r.execution.nodeResults wave = []) : Reruns d dispatch wave s r := by
  have hnil : waveResults d dispatch [] r = [] := rfl
  unfold Reruns
  rw [h, hnil, eq_comm, List.filter_eq_nil_iff]
  intro e he hnone
  obtain ⟨n, hn, rfl⟩ := List.mem_map.mp he
  have hmem : n.nodeId ∈ pendingNodes r.execution.nodeResults wave :=
    mem_pendingNodes.mpr ⟨(mem_waveNodes hn).1, Option.isNone_iff_eq_none.mp hnone⟩
  rw [h] at hmem
  exact absurd hmem List.not_mem_nil

/-- The run `r` has some results of the wave that `s` is about to start. -/
structure Interrupted (d : WorkflowDefinition) (dispatch : Dispatch) (wave : List String) (s r : Run) : Prop where
  fresh : ∀ id ∈ wave, s.execution.nodeResults.get? id = none
  recorded : ∃ j, ∀ key, r.execution.nodeResults.get? key =
    (s.execution.nodeResults.setAll ((settledResults (waveResults d dispatch wave s)).take j)).get? key
  view : pendingNodes r.execution.nodeResults wave ≠ [] → SameView d wave s r

theorem Interrupted.reruns {wave : List String} {s r : Run} (h : Interrupted d dispatch wave s r) :
    Reruns d dispatch wave s r := by
  by_cases hpending : pendingNodes r.execution.nodeResults wave = []
  · exact reruns_of_nothing_pending s r hpending
  · exact (h.view hpending).waveResults fun id => (outputOf r.execution.nodeResults id).isNone

theorem Interrupted.ends {wave : List String} {s r : Run} (h : Interrupted d dispatch wave s r)
    (hnodup : wave.Nodup) (hknown : ∀ id ∈ wave, id ∈ d.nodeIds) :
    verdict false (waveResults d dispatch (pendingNodes r.execution.nodeResults wave) r) =
        verdict false (waveResults d dispatch wave s) ∧
      ∀ key, (afterResults d dispatch (pendingNodes r.execution.nodeResults wave) r).execution.nodeResults.get? key =
        (afterResults d dispatch wave s).execution.nodeResults.get? key := by
  obtain ⟨j, hj⟩ := h.recorded
  have houtput (id : String) : outputOf r.execution.nodeResults id = outputOf
      (s.execution.nodeResults.setAll ((settledResults (waveResults d dispatch wave s)).take j)) id := by
    unfold outputOf
    rw [hj id]
  have hreruns := h.reruns
  unfold Reruns at hreruns
  simp only [houtput] at hreruns
  have hkeys := @waveResults_keys d dispatch wave s hknown
  have hfresh : ∀ e ∈ waveResults d dispatch wave s, s.execution.nodeResults.get? e.1 = none := by
    intro e he
    have hmem : e.1 ∈ (waveResults d dispatch wave s).map (·.1) := List.mem_map_of_mem he
    rw [hkeys] at hmem
    exact h.fresh e.1 hmem
  obtain ⟨hverdict, hresults⟩ := interrupted_results (waveResults d dispatch wave s) (by rwa [hkeys])
    s.execution.nodeResults hfresh j _ rfl _ rfl
  rw [afterResults_nodeResults, afterResults_nodeResults, hreruns]
  refine ⟨hverdict false, fun key => ?_⟩
  rw [Dict.get?_setAll_congr hj]
  exact hresults key

/-! ## Both runs to their ends -/

/-- Between two waves, an uninterrupted and a resumed run, each with the input it was given. -/
structure Alike (input input' : Value) (s r : Run) : Prop where
  executionId : r.execution.executionId = s.execution.executionId
  results : ∀ key, r.execution.nodeResults.get? key = s.execution.nodeResults.get? key
  follows : Follows input s
  follows' : Follows input' r
  handed : ∀ e ∈ r.handed, e ∈ s.handed

/-- Two loops that end alike. -/
structure SameEnd (p q : Option PyError × Run) : Prop where
  raised : q.1 = p.1
  status : p.1 = none → q.2.execution.status = p.2.execution.status
  results : ∀ key, q.2.execution.nodeResults.get? key = p.2.execution.nodeResults.get? key
  handed : ∀ e ∈ q.2.handed, e ∈ p.2.handed

/-- The context is the same when the results are, and the input matters only while no node
of that name has replaced it. -/
theorem contextOf_congr {input input' : Value} {results results' : Dict NodeResult}
    (h : ∀ key, results'.get? key = results.get? key)
    (hinput : outputOf results "input" = none → input' = input) (key : String) :
    contextOf input' results' key = contextOf input results key := by
  have houtput : outputOf results' key = outputOf results key := by
    unfold outputOf
    rw [h key]
  unfold contextOf
  rw [houtput]
  by_cases hk : key = "input"
  · subst hk
    cases hout : outputOf results "input" with
    | some output => rfl
    | none => rw [hinput hout]
  · rw [if_neg hk, if_neg hk]

theorem Alike.sameView {input input' : Value} {s r : Run} (h : Alike input input' s r)
    (hinput : outputOf s.execution.nodeResults "input" = none → input' = input) (wave : List String) :
    SameView d wave s r := by
  have hcontext (key : String) : r.accumulated.get? key = s.accumulated.get? key := by
    rw [h.follows key, h.follows' key]
    exact contextOf_congr h.results hinput key
  exact ⟨h.executionId, fun _ _ dep _ => hcontext dep, hcontext "input"⟩

/-- A wave that one run starts and the other one finishes. -/
theorem sameEnd_of_interrupted {waves : List (List String)} {i total : Nat} {wave : List String}
    {rest : List (List String)} (hpos : WaveAt d waves i wave rest) {input input' : Value} {s r : Run}
    (h : Interrupted d dispatch wave s r) (hfollows : Follows input s) (hfollows' : Follows input' r)
    (hid : r.execution.executionId = s.execution.executionId) (hhanded : ∀ e ∈ r.handed, e ∈ s.handed)
    (hrest : verdict false (waveResults d dispatch wave s) = .ok false → ∀ r',
      Alike input input' ((afterResults d dispatch wave s).persist d (i + 1)) r' →
      SameEnd (startWaves d dispatch total (i + 1) rest ((afterResults d dispatch wave s).persist d (i + 1)))
        (resumeWaves d dispatch total (i + 1) rest r')) :
    SameEnd (startWaves d dispatch total i (wave :: rest) s) (resumeWaves d dispatch total i (wave :: rest) r) := by
  obtain ⟨hverdict, hresults⟩ := h.ends hpos.nodup hpos.known
  have hfollowsAfter : Follows input (afterResults d dispatch wave s) :=
    hfollows.afterResults dispatch wave hpos.known hpos.nodup fun id hid => by
      unfold outputOf
      rw [h.fresh id hid]
      rfl
  rw [startWaves_cons, resumeWaves_cons]
  dsimp only
  by_cases hpending : pendingNodes r.execution.nodeResults wave = []
  · rw [if_pos hpending]
    have hdone : verdict false (waveResults d dispatch wave s) = .ok false := by
      rw [← hverdict, hpending]
      rfl
    rw [hdone]
    refine hrest hdone r ⟨hid.trans (afterResults_executionId wave s).symm, fun key => ?_, hfollowsAfter, hfollows',
      fun e he => ?_⟩
    · rw [hpending] at hresults
      exact hresults key
    · change e ∈ (afterResults d dispatch wave s).handed
      rw [afterResults_handed]
      exact List.mem_append_left _ (hhanded e he)
  · rw [if_neg hpending, hverdict]
    have hhandedAfter : ∀ e ∈ (afterResults d dispatch (pendingNodes r.execution.nodeResults wave) r).handed,
        e ∈ (afterResults d dispatch wave s).handed := by
      intro e he
      rw [afterResults_handed, List.mem_append] at he ⊢
      exact he.imp (hhanded e) ((h.view hpending).waveTasks _ e)
    cases hv : verdict false (waveResults d dispatch wave s) with
    | error exc => exact ⟨rfl, fun hnone => absurd hnone (by simp), hresults, hhandedAfter⟩
    | ok waveFailed =>
      cases waveFailed with
      | true => exact ⟨rfl, fun _ => rfl, hresults, hhandedAfter⟩
      | false =>
        refine hrest hv _ ⟨?_, hresults, hfollowsAfter, ?_, hhandedAfter⟩
        · change (afterResults d dispatch _ r).execution.executionId = (afterResults d dispatch wave s).execution.executionId
          rw [afterResults_executionId, afterResults_executionId, hid]
        · exact hfollows'.afterResults dispatch _ (fun id hid => hpos.known id (mem_pendingNodes.mp hid).1)
            (hpos.nodup.filter _) fun id hid => (mem_pendingNodes.mp hid).2

/-- An output that a wave does not produce was not there before it. -/
theorem no_output_before {waves : List (List String)} {i : Nat} {wave : List String} {rest : List (List String)}
    (hpos : WaveAt d waves i wave rest) {s : Run} {id : String}
    (hverdict : verdict false (waveResults d dispatch wave s) = .ok false)
    (h : outputOf (afterResults d dispatch wave s).execution.nodeResults id = none) :
    id ∉ wave ∧ outputOf s.execution.nodeResults id = none := by
  have hnot : id ∉ wave := by
    intro hmem
    have hs := afterResults_succeeded wave s hpos.known hpos.nodup hverdict id hmem
    rw [h] at hs
    exact absurd hs (by simp)
  refine ⟨hnot, ?_⟩
  unfold outputOf at h ⊢
  rwa [afterResults_frame wave s hpos.known id hnot] at h

/-- **From the start of a wave on, a run with the same results and the same input repeats the other one.** -/
theorem sameEnd_of_alike {waves : List (List String)} (hw : Waves d waves) (total : Nat) (rest : List (List String))
    (i : Nat) (hdrop : waves.drop i = rest) {input input' : Value} (s r : Run) (h : Alike input input' s r)
    (hfresh : ∀ id ∈ rest.flatten, s.execution.nodeResults.get? id = none)
    (hinput : rest ≠ [] → outputOf s.execution.nodeResults "input" = none → input' = input) :
    SameEnd (startWaves d dispatch total i rest s) (resumeWaves d dispatch total i rest r) := by
  induction rest generalizing i s r with
  | nil => exact ⟨rfl, fun _ => rfl, h.results, h.handed⟩
  | cons wave rest ih =>
    have hpos := waveAt_of_drop hw hdrop
    have hinput := hinput (by simp)
    have hstart : Interrupted d dispatch wave s r :=
      ⟨fun id hid => hfresh id (by simp [hid]), ⟨0, fun key => by simpa using h.results key⟩,
        fun _ => h.sameView hinput wave⟩
    refine sameEnd_of_interrupted hpos hstart h.follows h.follows' h.executionId h.handed fun hverdict r' halike => ?_
    refine ih (i + 1) hpos.drop_succ _ r' halike (fun id hid => ?_) fun _ hnone => ?_
    · have hnot : id ∉ wave := fun hmem => hpos.not_after id hmem hid
      exact (afterResults_frame wave s hpos.known id hnot).trans (hfresh id (by simp [hid]))
    · exact hinput (no_output_before hpos hverdict hnone).2

/-! ## What the two runs hand out -/

theorem settleRun_handed (p : Option PyError × Run) : (settleRun d p).2.handed = p.2.handed := by
  obtain ⟨exc, s⟩ := p
  cases exc with
  | none => rfl
  | some exc => cases exc <;> rfl

theorem settleRun_nodeResults (p : Option PyError × Run) :
    (settleRun d p).2.execution.nodeResults = p.2.execution.nodeResults := by
  obtain ⟨exc, s⟩ := p
  cases exc with
  | none => rfl
  | some exc => cases exc <;> rfl

/-- Each node is handed its task in its own wave. -/
theorem startWaves_handed (total : Nat) (rest : List (List String)) (i : Nat) (s : Run)
    (hknown : ∀ id ∈ rest.flatten, id ∈ d.nodeIds) :
    ∀ e ∈ (startWaves d dispatch total i rest s).2.handed, e ∈ s.handed ∨ e.1 ∈ rest.flatten := by
  induction rest generalizing i s with
  | nil => exact fun e he => .inl he
  | cons wave rest ih =>
    rw [List.flatten_cons] at hknown ⊢
    have hwave : ∀ e ∈ (afterResults d dispatch wave s).handed, e ∈ s.handed ∨ e.1 ∈ wave ++ rest.flatten := by
      intro e he
      rw [afterResults_handed, List.mem_append] at he
      refine he.imp_right fun he => List.mem_append_left _ ?_
      rw [← waveTasks_keys wave s fun id hid => hknown id (List.mem_append_left _ hid)]
      exact List.mem_map_of_mem he
    rw [startWaves_cons]
    split
    · exact hwave
    · exact hwave
    · intro e he
      rcases ih (i + 1) _ (fun id hid => hknown id (List.mem_append_right _ hid)) e he with he | he
      · exact hwave e he
      · exact .inr (List.mem_append_right _ he)

theorem startWaves_cons_handed (total i : Nat) (wave : List String) (rest : List (List String)) (s : Run)
    (hknown : ∀ id ∈ rest.flatten, id ∈ d.nodeIds) :
    ∀ e ∈ (startWaves d dispatch total i (wave :: rest) s).2.handed,
      e ∈ s.handed ∨ e ∈ waveTasks d wave s ∨ e.1 ∈ rest.flatten := by
  have hwave : ∀ e ∈ (afterResults d dispatch wave s).handed,
      e ∈ s.handed ∨ e ∈ waveTasks d wave s ∨ e.1 ∈ rest.flatten := by
    intro e he
    rw [afterResults_handed, List.mem_append] at he
    exact he.imp_right .inl
  rw [startWaves_cons]
  split
  · exact hwave
  · exact hwave
  · intro e he
    rcases startWaves_handed total rest (i + 1) _ hknown e he with he | he
    · exact hwave e he
    · exact .inr (.inr he)

theorem resumeWaves_handed (total : Nat) (rest : List (List String)) (i : Nat) (s : Run) :
    ∀ e ∈ s.handed, e ∈ (resumeWaves d dispatch total i rest s).2.handed := by
  induction rest generalizing i s with
  | nil => exact fun e he => he
  | cons wave rest ih =>
    intro e he
    have hafter : e ∈ (afterResults d dispatch (pendingNodes s.execution.nodeResults wave) s).handed := by
      rw [afterResults_handed]
      exact List.mem_append_left _ he
    rw [resumeWaves_cons]
    dsimp only
    split
    · exact ih (i + 1) s e he
    · split
      · exact hafter
      · exact hafter
      · exact ih (i + 1) _ e hafter

/-- The first wave with something to do is handed out. -/
theorem resumeWaves_hands_pending (total i : Nat) (wave : List String) (rest : List (List String)) (s : Run)
    (hpending : pendingNodes s.execution.nodeResults wave ≠ []) :
    ∀ e ∈ waveTasks d (pendingNodes s.execution.nodeResults wave) s,
      e ∈ (resumeWaves d dispatch total i (wave :: rest) s).2.handed := by
  intro e he
  have hafter : e ∈ (afterResults d dispatch (pendingNodes s.execution.nodeResults wave) s).handed := by
    rw [afterResults_handed]
    exact List.mem_append_right _ he
  rw [resumeWaves_cons]
  dsimp only
  rw [if_neg hpending]
  split
  · exact hafter
  · exact hafter
  · exact resumeWaves_handed total rest (i + 1) _ e hafter

/-! ## The refinement -/

/-- The resumed run ends as the uninterrupted one did, and hands out nothing that one did not. -/
structure Refines (full resumed : Except PyError WorkflowExecution × Run) : Prop where
  status : resumed.2.execution.status = full.2.execution.status
  results : ∀ id, resumed.2.execution.nodeResults.get? id = full.2.execution.nodeResults.get? id
  handed : ∀ e ∈ resumed.2.handed, e ∈ full.2.handed

theorem SameEnd.refines {p q : Option PyError × Run} (h : SameEnd p q) : Refines (settleRun d p) (settleRun d q) := by
  refine ⟨?_, fun id => ?_, fun e he => ?_⟩
  · obtain ⟨exc, s⟩ := p
    obtain ⟨exc', r⟩ := q
    obtain rfl : exc' = exc := h.raised
    cases exc' with
    | none => exact h.status rfl
    | some exc => cases exc <;> rfl
  · rw [settleRun_nodeResults, settleRun_nodeResults]
    exact h.results id
  · rw [settleRun_handed] at he ⊢
    exact h.handed e he

theorem contextOf_input (input : Value) (results : Dict NodeResult) :
    contextOf input results "input" = some ((outputOf results "input").getD input) := by
  unfold contextOf
  cases outputOf results "input" <;> rfl

theorem rebuildContext_follows (input : Value) (results : Dict NodeResult) (hnodup : results.keys.Nodup) (key : String) :
    (rebuildContext input results).get? key = contextOf input results key := by
  have hfold (context : Dict Value) : (results.foldl (fun context e => feedForward context e.1 e.2) context).get? key =
      (outputOf results key).or (context.get? key) := by
    induction results generalizing context with
    | nil => rfl
    | cons e rest ih =>
      obtain ⟨id, r⟩ := e
      simp only [Dict.keys, List.map_cons, List.nodup_cons] at hnodup
      rw [List.foldl_cons, ih hnodup.2]
      by_cases hkey : key = id
      · subst hkey
        have hrest : outputOf rest key = none := by
          unfold outputOf
          rw [(Dict.get?_eq_none_iff rest key).mpr hnodup.1]
          rfl
        rw [hrest]
        cases r <;> simp [outputOf, Dict.get?, NodeResult.output?, feedForward]
      · have hcons : outputOf ((id, r) :: rest) key = outputOf rest key := by
          have hne : id ≠ key := fun heq => hkey heq.symm
          simp [outputOf, Dict.get?, hne]
        rw [hcons]
        cases r with
        | success output => rw [feedForward, Dict.get?_set_of_ne _ _ _ _ hkey]
        | failure error => rfl
  unfold rebuildContext
  rw [hfold]
  unfold contextOf Dict.get? Dict.get?
  by_cases hkey : key = "input"
  · rw [if_pos hkey, if_pos hkey.symm]
  · rw [if_neg hkey, if_neg fun heq => hkey heq.symm]

namespace Launch

variable {l : Launch}

/-- A resumed run at the wave that was interrupted. -/
structure ResumedAt (l : Launch) (i : Nat) (s : Run) (input' : Value) (r : Run) : Prop where
  atWave : l.AtWave i s
  executionId : r.execution.executionId = l.executionId
  handed : r.handed = []
  follows : Follows input' r
  recorded : ∃ j, ∀ key, r.execution.nodeResults.get? key =
    (s.execution.nodeResults.setAll ((l.settled ((l.waves.drop i).headD []) s).take j)).get? key

/-- The results of an interrupted wave leave the earlier ones alone. -/
theorem recorded_before (hw : Waves l.definition l.waves) {i : Nat} {wave : List String} {rest : List (List String)}
    (hdrop : l.waves.drop i = wave :: rest) (s : Run) (j : Nat) {id : String} (hid : id ∉ wave) :
    (s.execution.nodeResults.setAll ((l.settled wave s).take j)).get? id = s.execution.nodeResults.get? id := by
  refine Dict.get?_setAll_of_notMem _ _ _ fun hmem => hid ?_
  rw [List.map_take] at hmem
  exact (AtWave.settled_keys_nodup hw hdrop s).2 id (List.mem_of_mem_take hmem)

theorem ResumedAt.interrupted (hw : Waves l.definition l.waves) {i : Nat} {s r : Run} {input' : Value}
    (h : l.ResumedAt i s input' r) {wave : List String} {rest : List (List String)}
    (hdrop : l.waves.drop i = wave :: rest)
    (hinput : contextOf input' r.execution.nodeResults "input" =
      contextOf (.dict l.inputData) s.execution.nodeResults "input") :
    Interrupted l.definition l.dispatch wave s r := by
  have hpos := waveAt_of_drop hw hdrop
  obtain ⟨j, hj⟩ := h.recorded
  rw [hdrop, List.headD_cons] at hj
  refine ⟨fun id hid => h.atWave.fresh (hpos.not_before id hid), ⟨j, hj⟩, fun _ => ⟨?_, fun id hid dep hdep => ?_, ?_⟩⟩
  · rw [h.executionId, h.atWave.executionId]
  · -- A dependency is in an earlier wave, so both runs hold its output.
    have hbefore := hpos.deps_before id hid dep hdep
    have hnot : dep ∉ wave := fun hmem => hpos.not_before dep hmem hbefore
    have hsome := h.atWave.succeeded dep hbefore
    have hsame : outputOf r.execution.nodeResults dep = outputOf s.execution.nodeResults dep := by
      unfold outputOf
      rw [hj dep, recorded_before hw hdrop s j hnot]
    rw [h.follows dep, h.atWave.follows dep, contextOf, contextOf, hsame]
    obtain ⟨output, houtput⟩ := Option.isSome_iff_exists.mp hsome
    rw [houtput]
    rfl
  · rw [h.follows "input", h.atWave.follows "input", hinput]

/-- The resumed run refines the uninterrupted one exactly when the nodes it starts with are
given the same input. -/
theorem ResumedAt.refines_iff_input (hw : Waves l.definition l.waves) {i : Nat} {s r : Run} {input' : Value}
    (h : l.ResumedAt i s input' r)
    (hpending : ∀ wave rest, l.waves.drop i = wave :: rest → pendingNodes r.execution.nodeResults wave ≠ []) :
    Refines l.full (settleRun l.definition
      (resumeWaves l.definition l.dispatch l.waves.length i (l.waves.drop i) r)) ↔
    (l.waves.drop i ≠ [] → contextOf input' r.execution.nodeResults "input" =
      contextOf (.dict l.inputData) s.execution.nodeResults "input") := by
  rw [← h.atWave.ends]
  generalize hdrop : l.waves.drop i = remaining
  cases remaining with
  | nil =>
    obtain ⟨j, hj⟩ := h.recorded
    rw [hdrop] at hj
    refine ⟨fun _ hne => absurd rfl hne, fun _ => SameEnd.refines ⟨rfl, fun _ => rfl, fun key => ?_, ?_⟩⟩
    · have hnone : l.settled [] s = [] := rfl
      rw [List.headD_nil, hnone, List.take_nil] at hj
      exact hj key
    · change ∀ e ∈ r.handed, _
      rw [h.handed]
      exact fun e he => absurd he List.not_mem_nil
  | cons wave rest =>
    have hpos := waveAt_of_drop hw hdrop
    obtain ⟨hknown, -, hdisjoint⟩ := remaining_waves hw (i + 1)
    rw [hpos.drop_succ] at hknown hdisjoint
    obtain ⟨j, hj⟩ := h.recorded
    rw [hdrop, List.headD_cons] at hj
    constructor
    · intro hrefines _
      -- A node that is run again tells the two inputs apart.
      obtain ⟨id, hid⟩ := List.exists_mem_of_ne_nil _ (hpending wave rest hdrop)
      have hwave := (mem_pendingNodes.mp hid).1
      obtain ⟨n, hn⟩ := l.definition.nodeMap_isSome id (hpos.known id hwave)
      obtain ⟨-, rfl⟩ := l.definition.nodeMap_get id n hn
      have htask : (n.nodeId, nodeTask n r.accumulated r.execution.executionId) ∈
          waveTasks l.definition (pendingNodes r.execution.nodeResults wave) r :=
        List.mem_map.mpr ⟨n, List.mem_filterMap.mpr ⟨n.nodeId, hid, hn⟩, rfl⟩
      have hhanded := hrefines.handed _ (by
        rw [settleRun_handed]
        exact resumeWaves_hands_pending _ _ _ _ _ (hpending wave rest hdrop) _ htask)
      rw [settleRun_handed] at hhanded
      rcases startWaves_cons_handed _ _ _ _ _ hknown _ hhanded with hmem | hmem | hmem
      · exact absurd (h.atWave.handed _ hmem) (hpos.not_before n.nodeId hwave)
      · obtain ⟨n', -, heq⟩ := List.mem_map.mp hmem
        have hinput := congrArg (fun e => e.2.metadata.get? "_workflow_input") heq
        simp only [nodeTask_input, h.follows "input", h.atWave.follows "input", contextOf_input,
          Option.getD_some, Option.some.injEq] at hinput
        rw [contextOf_input, contextOf_input, hinput]
      · exact absurd hmem (hpos.not_after n.nodeId hwave)
    · intro hinput
      have hinput := hinput (by simp)
      refine SameEnd.refines (sameEnd_of_interrupted hpos (h.interrupted hw hdrop hinput) h.atWave.follows h.follows
        (h.executionId.trans h.atWave.executionId.symm) (fun e he => ?_) fun hverdict r' halike =>
          sameEnd_of_alike hw _ rest (i + 1) hpos.drop_succ _ r' halike (fun id hid => ?_) fun _ hnone => ?_)
      · rw [h.handed] at he
        exact absurd he List.not_mem_nil
      · exact (h.atWave.next hw hdrop hverdict).fresh fun hbefore => hdisjoint id hbefore hid
      · obtain ⟨hnot, hs⟩ := no_output_before hpos hverdict hnone
        have hr : outputOf r.execution.nodeResults "input" = none := by
          unfold outputOf at hs ⊢
          rw [hj "input", recorded_before hw hdrop s j hnot]
          exact hs
        rw [contextOf_input, contextOf_input, hs, hr] at hinput
        exact Option.some.inj hinput

end Launch

/-! ## The condition on the row -/

/-- The nodes of the waves before the first one that still has something to do. -/
def doneBefore (results : Dict NodeResult) : (before : List String) → List (List String) → Option (List String)
  | _, [] => none
  | before, wave :: rest =>
    if pendingNodes results wave = [] then doneBefore results (before ++ wave) rest else some before

/-- If a node is left to do, the first ones are given what the first run was started with:
the stored input, unless a node of that name has put its output in the place of both. -/
def SeesSameInput (d : WorkflowDefinition) (row : WorkflowExecutionRow) (inputData : Dict Value) : Prop :=
  ∀ waves before, d.topologicalSort = .ok waves →
    doneBefore row.nodeResults (waves.take row.currentWave).flatten (waves.drop row.currentWave) = some before →
    "input" ∈ before ∨ (outputOf row.nodeResults "input").getD (resumeInput d none) = .dict inputData

namespace Launch

variable {l : Launch}

theorem ResumedAt.get?_before (hw : Waves l.definition l.waves) {i : Nat} {s r : Run} {input' : Value}
    (h : l.ResumedAt i s input' r) {id : String} (hid : id ∈ (l.waves.take i).flatten) :
    r.execution.nodeResults.get? id = s.execution.nodeResults.get? id := by
  obtain ⟨j, hj⟩ := h.recorded
  rw [hj id]
  generalize hdrop : l.waves.drop i = remaining
  cases remaining with
  | nil =>
    have hnone : l.settled [] s = [] := rfl
    rw [List.headD_nil, hnone, List.take_nil]
    rfl
  | cons wave rest =>
    exact recorded_before hw hdrop s j fun hmem => (waveAt_of_drop hw hdrop).not_before id hmem hid

/-- The condition on the row, once the wave with something to do is found. -/
theorem ResumedAt.input_iff (hw : Waves l.definition l.waves) {i : Nat} {s r : Run} {input' : Value}
    (h : l.ResumedAt i s input' r)
    (hpending : ∀ wave rest, l.waves.drop i = wave :: rest → pendingNodes r.execution.nodeResults wave ≠ []) :
    (∀ before, doneBefore r.execution.nodeResults (l.waves.take i).flatten (l.waves.drop i) = some before →
      "input" ∈ before ∨ (outputOf r.execution.nodeResults "input").getD input' = .dict l.inputData) ↔
    (l.waves.drop i ≠ [] → contextOf input' r.execution.nodeResults "input" =
      contextOf (.dict l.inputData) s.execution.nodeResults "input") := by
  rw [contextOf_input, contextOf_input, Option.some.injEq]
  have hdone : l.waves.drop i ≠ [] →
      doneBefore r.execution.nodeResults (l.waves.take i).flatten (l.waves.drop i) = some (l.waves.take i).flatten := by
    intro hne
    cases hdrop : l.waves.drop i with
    | nil => exact absurd hdrop hne
    | cons wave rest =>
      unfold doneBefore
      rw [if_neg (hpending wave rest hdrop)]
  by_cases hinput : "input" ∈ (l.waves.take i).flatten
  · have hsame := h.get?_before hw hinput
    have hsome := h.atWave.succeeded "input" hinput
    have houtput : outputOf r.execution.nodeResults "input" = outputOf s.execution.nodeResults "input" := by
      unfold outputOf
      rw [hsame]
    obtain ⟨output, hs⟩ := Option.isSome_iff_exists.mp hsome
    refine ⟨fun _ _ => by rw [houtput, hs]; rfl, fun _ before hbefore => .inl ?_⟩
    have hne : l.waves.drop i ≠ [] := by
      intro hnil
      rw [hnil] at hbefore
      exact absurd hbefore (by simp [doneBefore])
    rw [hdone hne] at hbefore
    exact Option.some.inj hbefore ▸ hinput
  · rw [h.atWave.no_output hinput, Option.getD_none]
    constructor
    · intro hcond hne
      exact (hcond _ (hdone hne)).resolve_left hinput
    · intro hcond before hbefore
      refine .inr (hcond fun hnil => ?_)
      rw [hnil] at hbefore
      exact absurd hbefore (by simp [doneBefore])

/-- A wave with nothing to do is passed over. -/
theorem ResumedAt.next (hw : Waves l.definition l.waves) {i : Nat} {s r : Run} {input' : Value}
    (h : l.ResumedAt i s input' r) {wave : List String} {rest : List (List String)}
    (hdrop : l.waves.drop i = wave :: rest) (hnone : pendingNodes r.execution.nodeResults wave = []) :
    l.ResumedAt (i + 1) ((afterResults l.definition l.dispatch wave s).persist l.definition (i + 1)) input' r ∧
      ∀ wave' rest', l.waves.drop (i + 1) = wave' :: rest' → pendingNodes r.execution.nodeResults wave' ≠ [] := by
  have hpos := waveAt_of_drop hw hdrop
  obtain ⟨j, hj⟩ := h.recorded
  rw [hdrop, List.headD_cons] at hj
  have hinterrupted : Interrupted l.definition l.dispatch wave s r :=
    ⟨fun id hid => h.atWave.fresh (hpos.not_before id hid), ⟨j, hj⟩, fun hsome => absurd hnone hsome⟩
  obtain ⟨hverdict, hresults⟩ := hinterrupted.ends hpos.nodup hpos.known
  rw [hnone] at hverdict hresults
  have hnext := h.atWave.next hw hdrop hverdict.symm
  refine ⟨⟨hnext, h.executionId, h.handed, h.follows, 0, hresults⟩, fun wave' rest' hdrop' hnil => ?_⟩
  -- The next wave has not been started, so all of it is pending.
  have hpos' := waveAt_of_drop hw hdrop'
  obtain ⟨id, hid⟩ := List.exists_mem_of_ne_nil _ hpos'.ne_nil
  have hmem : id ∈ pendingNodes r.execution.nodeResults wave' := by
    refine mem_pendingNodes.mpr ⟨hid, ?_⟩
    unfold outputOf
    have hr : r.execution.nodeResults.get? id = (afterResults l.definition l.dispatch wave s).execution.nodeResults.get? id :=
      hresults id
    rw [hr]
    change outputOf ((afterResults l.definition l.dispatch wave s).persist l.definition (i + 1)).execution.nodeResults id = none
    exact hnext.no_output (hpos'.not_before id hid)
  rw [hnil] at hmem
  exact absurd hmem List.not_mem_nil

theorem ResumedAt.refines_iff (hw : Waves l.definition l.waves) {i : Nat} {s r : Run} {input' : Value}
    (h : l.ResumedAt i s input' r) :
    Refines l.full (settleRun l.definition
      (resumeWaves l.definition l.dispatch l.waves.length i (l.waves.drop i) r)) ↔
    ∀ before, doneBefore r.execution.nodeResults (l.waves.take i).flatten (l.waves.drop i) = some before →
      "input" ∈ before ∨ (outputOf r.execution.nodeResults "input").getD input' = .dict l.inputData := by
  by_cases hpending : ∀ wave rest, l.waves.drop i = wave :: rest → pendingNodes r.execution.nodeResults wave ≠ []
  · rw [h.refines_iff_input hw hpending, h.input_iff hw hpending]
  · simp only [not_forall, not_not] at hpending
    obtain ⟨wave, rest, hdrop, hnone⟩ := hpending
    obtain ⟨hnext, hpending'⟩ := h.next hw hdrop hnone
    have hpos := waveAt_of_drop hw hdrop
    have hloop : resumeWaves l.definition l.dispatch l.waves.length i (wave :: rest) r =
        resumeWaves l.definition l.dispatch l.waves.length (i + 1) rest r := by
      rw [resumeWaves_cons]
      exact if_pos hnone
    have hdone : doneBefore r.execution.nodeResults (l.waves.take i).flatten (wave :: rest) =
        doneBefore r.execution.nodeResults (l.waves.take (i + 1)).flatten rest := by
      rw [hpos.take_succ, doneBefore, if_pos hnone]
    rw [hdrop, hloop, hdone, ← hpos.drop_succ, hnext.refines_iff_input hw hpending', hnext.input_iff hw hpending']

/-- Past a failed wave, a resumed run either completes or goes on where the other one ended. -/
theorem not_refines_of_failedCheckpoint (hw : Waves l.definition l.waves) {i : Nat} {s r : Run} {wave : List String}
    {rest : List (List String)} (hat : l.AtWave i s) (hdrop : l.waves.drop i = wave :: rest)
    (hverdict : verdict false (waveResults l.definition l.dispatch wave s) = .ok true)
    (hresults : r.execution.nodeResults = s.execution.nodeResults.setAll (l.settled wave s)) :
    ¬ Refines l.full (settleRun l.definition (resumeWaves l.definition l.dispatch l.waves.length (i + 1) rest r)) := by
  have hpos := waveAt_of_drop hw hdrop
  have hends := hat.ends
  rw [hdrop, startWaves_cons, hverdict] at hends
  rw [← hends]
  intro hrefines
  cases hrest : rest with
  | nil =>
    rw [hrest] at hrefines
    have hstatus : WorkflowStatus.completed = .failed := hrefines.status
    exact absurd hstatus (by decide)
  | cons wave' rest' =>
    have hpos' := waveAt_of_drop hw (hpos.drop_succ.trans hrest)
    have hpending : pendingNodes r.execution.nodeResults wave' = wave' := by
      rw [pendingNodes, List.filter_eq_self]
      intro id hid
      have hbefore := hpos'.not_before id hid
      rw [hpos.take_succ, List.mem_append, not_or] at hbefore
      rw [hresults, outputOf_setAll_of_notMem _ _ _ fun hmem =>
        hbefore.2 ((AtWave.settled_keys_nodup hw hdrop s).2 id hmem), hat.no_output hbefore.1]
      rfl
    obtain ⟨id, hid⟩ := List.exists_mem_of_ne_nil _ hpos'.ne_nil
    obtain ⟨n, hn⟩ := l.definition.nodeMap_isSome id (hpos'.known id hid)
    obtain ⟨-, rfl⟩ := l.definition.nodeMap_get id n hn
    have htask : (n.nodeId, nodeTask n r.accumulated r.execution.executionId) ∈
        waveTasks l.definition (pendingNodes r.execution.nodeResults wave') r :=
      List.mem_map.mpr ⟨n, List.mem_filterMap.mpr ⟨n.nodeId, by rwa [hpending], hn⟩, rfl⟩
    have hhanded := hrefines.handed _ (by
      rw [settleRun_handed, hrest]
      exact resumeWaves_hands_pending _ _ _ _ _ (by rw [hpending]; exact hpos'.ne_nil) _ htask)
    change _ ∈ (afterResults l.definition l.dispatch wave s).handed at hhanded
    rw [afterResults_handed, List.mem_append] at hhanded
    have hbefore := hpos'.not_before n.nodeId hid
    rw [hpos.take_succ, List.mem_append, not_or] at hbefore
    rcases hhanded with hmem | hmem
    · exact hbefore.1 (hat.handed _ hmem)
    · refine hbefore.2 ?_
      rw [← waveTasks_keys wave s hpos.known]
      exact List.mem_map_of_mem hmem

/-- The resumed run that the row of an interrupted wave leads to. -/
theorem resumedAt_of_midWave {i : Nat} {s : Run} {j : Nat} {row : WorkflowExecutionRow} (hat : l.AtWave i s)
    (hrow : l.Holds i (s.execution.nodeResults.setAll ((l.settled ((l.waves.drop i).headD []) s).take j)) row) :
    l.ResumedAt i s (resumeInput l.definition none) (resumedRun row l.executionId none) where
  atWave := hat
  executionId := rfl
  handed := rfl
  follows := by
    intro key
    have hnodup : row.nodeResults.keys.Nodup := by
      rw [hrow.nodeResults]
      exact Dict.nodup_keys_setAll _ _ hat.keys_nodup
    change (rebuildContext (resumeInput row.dagDefinition none) row.nodeResults).get? key = _
    rw [hrow.definition, rebuildContext_follows _ _ hnodup]
    rfl
  recorded := ⟨j, fun key => congrArg (Dict.get? · key) hrow.nodeResults⟩

end Launch

def goodAgent : (nodeId : String) → NodeTask → Except PyError Value := fun _ _ => .ok (.int 1)

/-- The run of the one-node workflow on an input. -/
def goodRun (inputData : Dict Value) : Except PyError WorkflowExecution × Run :=
  startWorkflow [("w", oneNode)] (fun id _ => goodAgent id) "w" "e" inputData

end Occp.Workflow
