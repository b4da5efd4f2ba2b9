import Occp.Lib.Places
import Occp.Workflow.Interleaving

/-!
# What one step of a call can do

Every step of `Interleaving`, said once: what it needs, and what it leaves.
-/

namespace Occp.Workflow

/-! ## Waves -/

namespace WorkflowDefinition

theorem kahn_nodup {adj : String → List String} {rounds : Nat} {remaining : List String} {waves : List (List String)}
    (h : kahn adj rounds remaining = .ok waves) (hnodup : remaining.Nodup) :
    waves.flatten.Nodup ∧ waves.flatten ⊆ remaining := by
  induction rounds generalizing remaining waves with
  | zero =>
    cases remaining with
    | nil =>
      obtain rfl : waves = [] := by simpa [kahn] using h.symm
      simp
    | cons a rest => simp [kahn] at h
  | succ rounds ih =>
    cases remaining with
    | nil =>
      obtain rfl : waves = [] := by simpa [kahn] using h.symm
      simp
    | cons a rest =>
      generalize hr : a :: rest = remaining at h hnodup ⊢
      rw [← hr, kahn, hr] at h
      · split at h
        · simp at h
        · generalize hready : remaining.filter (fun nodeId => (adj nodeId).all (· ∉ remaining)) = ready at h
          cases hrest : kahn adj rounds (remaining.filter (· ∉ ready)) with
          | error exc =>
            rw [hrest] at h
            cases h
          | ok later =>
            rw [hrest] at h
            obtain rfl : ready.insertionSort (· ≤ ·) :: later = waves := Except.ok.inj h
            obtain ⟨hlater, hsub⟩ := ih hrest (hnodup.filter _)
            have hsorted := List.perm_insertionSort (· ≤ ·) ready
            have hreadyNodup : ready.Nodup := hready ▸ hnodup.filter _
            have hreadySub : ready ⊆ remaining := hready ▸ List.filter_subset_self ..
            rw [List.flatten_cons]
            refine ⟨List.nodup_append.mpr ⟨hsorted.nodup_iff.mpr hreadyNodup, hlater, ?_⟩, ?_⟩
            · rintro x hx y hy rfl
              have hnot := (List.mem_filter.mp (hsub hy)).2
              exact absurd (hsorted.mem_iff.mp hx) (by simpa using hnot)
            · refine List.append_subset.mpr ⟨fun x hx => hreadySub (hsorted.mem_iff.mp hx), fun x hx => ?_⟩
              exact List.mem_of_mem_filter (hsub hx)
      · simp

/-- Even a definition that was never validated is sorted into waves without a node twice. -/
theorem nodup_of_topologicalSort {d : WorkflowDefinition} {waves : List (List String)}
    (h : d.topologicalSort = .ok waves) : waves.flatten.Nodup := by
  unfold topologicalSort at h
  split at h
  · cases h
  · cases hk : kahn d.adj d.nodeIds.length d.nodeIds with
    | error exc => simp [hk, Except.mapError] at h
    | ok waves' =>
      obtain rfl : waves' = waves := by simpa [hk, Except.mapError] using h
      exact (kahn_nodup hk (List.nodup_dedup _)).1

end WorkflowDefinition

theorem waveNodes_sublist (d : WorkflowDefinition) (nodeIds : List String) :
    ((waveNodes d nodeIds).map (·.nodeId)).Sublist nodeIds := by
  induction nodeIds with
  | nil => exact List.Sublist.refl _
  | cons id rest ih =>
    cases hn : d.nodeMap.get? id with
    | none =>
      rw [waveNodes, List.filterMap_cons_none hn]
      exact ih.cons id
    | some n =>
      obtain ⟨-, rfl⟩ := d.nodeMap_get id n hn
      rw [waveNodes, List.filterMap_cons_some hn, List.map_cons]
      exact ih.cons_cons _

/-! ## One node moves -/

theorem moveFirst_eq_some {move : NodeRun → Option Phase} {nodeId : String} {nodes nodes' : List NodeRun}
    (h : moveFirst move nodeId nodes = some nodes') : ∃ before n after phase, nodes = before ++ n :: after ∧
      n.node.nodeId = nodeId ∧ move n = some phase ∧ nodes' = before ++ { n with phase } :: after := by
  induction nodes generalizing nodes' with
  | nil => simp [moveFirst] at h
  | cons m nodes ih =>
    rw [moveFirst] at h
    split at h
    · next hid =>
      obtain ⟨phase, hphase, rfl⟩ := Option.map_eq_some_iff.mp h
      exact ⟨[], m, nodes, phase, rfl, hid, hphase, rfl⟩
    · obtain ⟨moved, hmoved, rfl⟩ := Option.map_eq_some_iff.mp h
      obtain ⟨before, n, after, phase, rfl, hid, hphase, rfl⟩ := ih hmoved
      exact ⟨m :: before, n, after, phase, rfl, hid, hphase, rfl⟩

/-- The phases that an act takes the task of a node through. -/
inductive NodeRun.Moves (killed : Bool) (executionId : String) (n : NodeRun) : Act → Phase → Prop
  | dispatch (hphase : n.phase = .waiting) :
    n.Moves killed executionId (.dispatch n.node.nodeId) (attempt killed executionId 0)
  | begin (number : Nat) (hphase : n.phase = .queued number) :
    n.Moves killed executionId (.begin n.node.nodeId) (.running number)
  | reject (number : Nat) (exc : PyError) (hphase : n.phase = .queued number) :
    n.Moves killed executionId (.reject n.node.nodeId exc) (n.settle killed executionId number (.error exc))
  | finish (number : Nat) (result : Except PyError Value) (hphase : n.phase = .running number) :
    n.Moves killed executionId (.finish n.node.nodeId result) (n.settle killed executionId number result)

/-! ## The wave loop -/

namespace Runner

/-- The waves that the call has yet to start. -/
def later (r : Runner) : List (List String) :=
  match r.stage with
  | .starting _ =>
    match r.definition.topologicalSort with
    | .ok waves => waves
    | .error _ => []
  | .paused _ wave rest => wave :: rest
  | .wave _ _ rest => rest
  | .results _ _ _ _ rest => rest
  | .checkpointed _ _ _ rest => rest
  | .ending => []
  | .ended => []

/-- What the head of the wave loop leads to, before these waves. -/
inductive Turn (flags : Option Flags) (r : Runner) (waves : List (List String)) : Runner → Prop
  | complete (h : waves = [] ∨ r.resumed = true ∧ ∃ f, flags = some f ∧ f.kill = false) :
    Turn flags r waves r.complete
  | fail (h : flags = none) : Turn flags r waves (r.fail r.keyError)
  | stop (f : Flags) (h : flags = some f) (hkill : f.kill = true) : Turn flags r waves r.stop
  | pause (f : Flags) (waveIndex : Nat) (wave : List String) (rest : List (List String)) (h : flags = some f)
    (hkill : f.kill = false) (hstarted : r.resumed = false) (hpause : f.pause = true) (hwaves : waves = wave :: rest) :
    Turn flags r waves (r.pauseAt waveIndex wave rest)
  | enter (f : Flags) (waveIndex : Nat) (nodeIds wave : List String) (skipped rest : List (List String))
    (h : flags = some f) (hkill : f.kill = false) (hwaves : waves = skipped ++ wave :: rest)
    (hnodeIds : nodeIds.Sublist wave) (hstarted : r.resumed = false → f.pause = false)
    (hresumed : r.resumed = true → nodeIds = pendingNodes r.run.execution.nodeResults wave ∧ nodeIds ≠ []) :
    Turn flags r waves (r.enter waveIndex nodeIds rest)

theorem turn_nextWave (flags : Option Flags) (r : Runner) (waveIndex : Nat) (waves : List (List String)) :
    r.Turn flags waves (nextWave flags r waveIndex waves) := by
  induction waves generalizing waveIndex with
  | nil => exact .complete (.inl rfl)
  | cons wave rest ih =>
    unfold nextWave
    split
    · exact .fail rfl
    · next f =>
      split
      · next hkill => exact .stop f rfl hkill
      · next hkill =>
        have hnot : f.kill = false := by simpa using hkill
        split
        · next hresumed =>
          dsimp only
          split
          · next hnone =>
            have hturn := ih (waveIndex + 1)
            generalize nextWave (some f) r (waveIndex + 1) rest = r' at hturn ⊢
            cases hturn with
            | complete h => exact .complete (.inr ⟨hresumed, f, rfl, hnot⟩)
            | fail h => cases h
            | stop f' h hkill' => exact .stop f' h hkill'
            | pause f' i wave' rest' h hkill' hstarted => exact absurd (hresumed.symm.trans hstarted) (by simp)
            | enter f' i nodeIds wave' skipped rest' h hkill' hwaves hnodeIds hstarted hpending =>
              exact .enter f' i nodeIds wave' (wave :: skipped) rest' h hkill' (by rw [hwaves, List.cons_append])
                hnodeIds hstarted hpending
          · next hsome =>
            exact .enter f waveIndex _ wave [] rest rfl hnot rfl List.filter_sublist
              (fun h => absurd (hresumed.symm.trans h) (by simp)) fun _ => ⟨rfl, hsome⟩
        · next hstarted =>
          split
          · next hpause => exact .pause f waveIndex wave rest rfl hnot (by simpa using hstarted) hpause rfl
          · next hpause =>
            exact .enter f waveIndex wave wave [] rest rfl hnot rfl (List.Sublist.refl _)
              (fun _ => by simpa using hpause) fun h => absurd h hstarted

/-! ## From one await to the next -/

/-- Where a call gets to from the await at which it is. -/
inductive Advances (flags : Option Flags) (r : Runner) : Runner → Prop
  | startFails (inputData : Dict Value) (exc : PyError) (hstage : r.stage = .starting inputData)
    (hsort : r.definition.topologicalSort = .error exc) : Advances flags r (r.fail exc)
  | start (inputData : Dict Value) (waves : List (List String)) (r' : Runner) (hstage : r.stage = .starting inputData)
    (hsort : r.definition.topologicalSort = .ok waves)
    (hturn : Turn flags
      { r with total := waves.length, run := { r.run with accumulated := [("input", .dict inputData)] } } waves r') :
    Advances flags r r'
  | wakeFails (waveIndex : Nat) (wave : List String) (rest : List (List String))
    (hstage : r.stage = .paused waveIndex wave rest) (h : flags = none) : Advances flags r (r.fail r.keyError)
  | wakeStops (f : Flags) (waveIndex : Nat) (wave : List String) (rest : List (List String))
    (hstage : r.stage = .paused waveIndex wave rest) (h : flags = some f) (hkill : f.kill = true) :
    Advances flags r r.stop
  | sleep (f : Flags) (waveIndex : Nat) (wave : List String) (rest : List (List String))
    (hstage : r.stage = .paused waveIndex wave rest) (h : flags = some f) (hkill : f.kill = false) :
    Advances flags r (r.pauseAt waveIndex wave rest)
  | wake (f : Flags) (waveIndex : Nat) (wave : List String) (rest : List (List String))
    (hstage : r.stage = .paused waveIndex wave rest) (h : flags = some f) (hkill : f.kill = false)
    (hpause : f.pause = false) : Advances flags r (r.enter waveIndex wave rest)
  | gathered (waveIndex : Nat) (nodes : List NodeRun) (rest : List (List String))
    (results : List (String × Except PyError Value)) (hstage : r.stage = .wave waveIndex nodes rest)
    (hresults : nodes.mapM NodeRun.result? = some results) :
    Advances flags r (r.nextResult waveIndex (nodes.map (·.node.nodeId)) false rest results)
  | recorded (waveIndex : Nat) (wave : List String) (left : List (String × Except PyError Value)) (waveFailed : Bool)
    (rest : List (List String)) (hstage : r.stage = .results waveIndex wave left waveFailed rest) :
    Advances flags r (r.nextResult waveIndex wave waveFailed rest left)
  | giveUp (waveIndex : Nat) (wave : List String) (rest : List (List String))
    (hstage : r.stage = .checkpointed waveIndex wave true rest) : Advances flags r (r.giveUp waveIndex wave)
  | next (waveIndex : Nat) (wave : List String) (rest : List (List String)) (r' : Runner)
    (hstage : r.stage = .checkpointed waveIndex wave false rest) (hturn : Turn flags r rest r') : Advances flags r r'
  | finish (hstage : r.stage = .ending) : Advances flags r { r with stage := .ended }

theorem advance_cases {flags : Option Flags} {r r' : Runner} (h : r.advance flags = some r') :
    r.run.writes.length ≤ r.saved ∧ r.Advances flags r' := by
  unfold advance at h
  split at h
  · cases h
  · next hsaved =>
    refine ⟨by omega, ?_⟩
    split at h
    · next inputData hstage =>
      split at h
      · next exc hsort =>
        obtain rfl := Option.some.inj h
        exact .startFails inputData exc hstage hsort
      · next waves hsort =>
        obtain rfl := Option.some.inj h
        exact .start inputData waves _ hstage hsort (turn_nextWave _ _ _ _)
    · next waveIndex wave rest hstage =>
      split at h
      · obtain rfl := Option.some.inj h
        exact .wakeFails waveIndex wave rest hstage rfl
      · next f =>
        split at h
        · next hkill =>
          obtain rfl := Option.some.inj h
          exact .wakeStops f waveIndex wave rest hstage rfl hkill
        · next hkill =>
          have hnot : f.kill = false := by simpa using hkill
          split at h
          · obtain rfl := Option.some.inj h
            exact .sleep f waveIndex wave rest hstage rfl hnot
          · next hpause =>
            obtain rfl := Option.some.inj h
            exact .wake f waveIndex wave rest hstage rfl hnot (by simpa using hpause)
    · next waveIndex nodes rest hstage =>
      obtain ⟨results, hresults, rfl⟩ := Option.map_eq_some_iff.mp h
      exact .gathered waveIndex nodes rest results hstage hresults
    · next waveIndex wave left waveFailed rest hstage =>
      obtain rfl := Option.some.inj h
      exact .recorded waveIndex wave left waveFailed rest hstage
    · next waveIndex wave waveFailed rest hstage =>
      split at h
      · next hfailed =>
        obtain rfl := Option.some.inj h
        exact .giveUp waveIndex wave rest (hfailed ▸ hstage)
      · next hfailed =>
        obtain rfl := Option.some.inj h
        have hnot : waveFailed = false := by simpa using hfailed
        exact .next waveIndex wave rest _ (hnot ▸ hstage) (turn_nextWave _ _ _ _)
    · next hstage =>
      obtain rfl := Option.some.inj h
      exact .finish hstage
    · cases h

theorem move_eq_some {r r' : Runner} {move : NodeRun → Option Phase} {nodeId : String}
    (h : r.move move nodeId = some r') : ∃ waveIndex before n after rest phase,
      r.stage = .wave waveIndex (before ++ n :: after) rest ∧ n.node.nodeId = nodeId ∧ move n = some phase ∧
      r' = { r with stage := .wave waveIndex (before ++ { n with phase } :: after) rest } := by
  unfold Runner.move at h
  split at h
  · next waveIndex nodes rest hstage =>
    obtain ⟨nodes', hmoved, rfl⟩ := Option.map_eq_some_iff.mp h
    obtain ⟨before, n, after, phase, rfl, hid, hphase, rfl⟩ := moveFirst_eq_some hmoved
    exact ⟨waveIndex, before, n, after, rest, phase, hstage, hid, hphase, rfl⟩
  · cases h

end Runner

/-! ## One step of the orchestrator -/

namespace MultiAgentOrchestrator

/-- Nothing has happened yet, but an earlier process may have left a row. -/
structure Initial (s : MultiAgentOrchestrator) : Prop where
  runners : s.runners = []
  flags : s.flags = none
  log : s.log = []

/-- Everything that a call can do next. -/
inductive Acts (s : MultiAgentOrchestrator) (r : Runner) : Act → Runner → Prop
  | store (h : r.saved < r.run.writes.length) : s.Acts r .store { r with saved := r.saved + 1 }
  | advance (r' : Runner) (hsaved : r.run.writes.length ≤ r.saved) (h : r.Advances s.flags r') : s.Acts r .advance r'
  | move (a : Act) (waveIndex : Nat) (before : List NodeRun) (n : NodeRun) (after : List NodeRun)
    (rest : List (List String)) (phase : Phase) (hstage : r.stage = .wave waveIndex (before ++ n :: after) rest)
    (hmoves : n.Moves s.isKilled r.executionId a phase) :
    s.Acts r a { r with stage := .wave waveIndex (before ++ { n with phase } :: after) rest }

theorem act_cases {s : MultiAgentOrchestrator} {r r' : Runner} {a : Act} (h : s.act r a = some r') : s.Acts r a r' := by
  unfold act at h
  split at h
  · unfold Runner.save at h
    split at h
    · next hsaved =>
      obtain rfl := Option.some.inj h
      exact .store hsaved
    · cases h
  · obtain ⟨hsaved, hadvances⟩ := Runner.advance_cases h
    exact .advance r' hsaved hadvances
  · obtain ⟨waveIndex, before, n, after, rest, phase, hstage, rfl, hphase, rfl⟩ := Runner.move_eq_some h
    split at hphase
    · next hwaiting =>
      split at hphase
      · obtain rfl := Option.some.inj hphase
        exact .move _ waveIndex before n after rest _ hstage (.dispatch hwaiting)
      · cases hphase
    · cases hphase
  · obtain ⟨waveIndex, before, n, after, rest, phase, hstage, rfl, hphase, rfl⟩ := Runner.move_eq_some h
    split at hphase
    · next number hqueued =>
      split at hphase
      · obtain rfl := Option.some.inj hphase
        exact .move _ waveIndex before n after rest _ hstage (.begin number hqueued)
      · cases hphase
    · cases hphase
  · next nodeId exc =>
    obtain ⟨waveIndex, before, n, after, rest, phase, hstage, rfl, hphase, rfl⟩ := Runner.move_eq_some h
    split at hphase
    · next number hqueued =>
      obtain rfl := Option.some.inj hphase
      exact .move _ waveIndex before n after rest _ hstage (.reject number exc hqueued)
    · cases hphase
  · next nodeId result =>
    obtain ⟨waveIndex, before, n, after, rest, phase, hstage, rfl, hphase, rfl⟩ := Runner.move_eq_some h
    split at hphase
    · next number hrunning =>
      obtain rfl := Option.some.inj hphase
      exact .move _ waveIndex before n after rest _ hstage (.finish number result hrunning)
    · cases hphase

/-- The call finds the row resumable, and registers itself. -/
def TakesOver (s : MultiAgentOrchestrator) : Event → Prop
  | .resume call => ∃ c row, s.calls[call]? = some c ∧ c.row = some row ∧
      (row.status = .running ∨ row.status = .paused)
  | _ => False

/-- Everything that a step can do. -/
inductive Steps (s : MultiAgentOrchestrator) : Event → MultiAgentOrchestrator → Prop
  /-- The call raises, or there is nothing to do. -/
  | stay (e : Event) : s.Steps e s
  | start (d : WorkflowDefinition) (inputData : Dict Value) (r : Runner) (hrunners : s.runners = [])
    (hvalid : d.validate = []) (hresumed : r.resumed = false) (hdefinition : r.definition = d)
    (hstage : r.stage = .starting inputData) (hsaved : r.saved ≤ r.run.writes.length) :
    s.Steps (.start d inputData) (s.register r)
  | read (inputData : Option (Dict Value)) :
    s.Steps (.read inputData) { s with calls := s.calls ++ [⟨inputData, s.row⟩] }
  | refuse (call : Nat) : s.Steps (.resume call) { s with calls := s.calls.eraseIdx call }
  | strand (call : Nat) (r : Runner) (h : s.TakesOver (.resume call)) (hstage : r.stage = .ended)
    (hwrites : r.run.writes = []) :
    s.Steps (.resume call) ({ s with calls := s.calls.eraseIdx call }.register r)
  | resume (call : Nat) (row : WorkflowExecutionRow) (waves : List (List String)) (r r' : Runner)
    (h : s.TakesOver (.resume call)) (hsort : row.dagDefinition.topologicalSort = .ok waves) (hresumed : r.resumed = true)
    (hsaved : r.saved = 0) (hwrites : r.run.writes = [])
    (hturn : r.Turn (some {}) (waves.drop row.currentWave) r') :
    s.Steps (.resume call)
      { { s with calls := s.calls.eraseIdx call }.register r' with log := noteStage s.runners.length r' ++ s.log }
  | act (runner : Nat) (a : Act) (r r' : Runner) (hr : s.runners[runner]? = some r) (h : s.Acts r a r') :
    s.Steps (.act runner a) (s.commit runner r r' a)
  | slots (agentType : String) (free : Nat) :
    s.Steps (.slots agentType free) { s with free := fun t => if t = agentType then free else s.free t }
  | pause (r : Runner) (f : Flags) (hr : s.runners.getLast? = some r) (hf : s.flags = some f)
    (hstatus : r.run.execution.status = .running ∨ r.run.execution.status = .pending) :
    s.Steps .pauseWorkflow { s with flags := some { f with pause := true }, log := .paused :: s.log }
  | unpause (r : Runner) (f : Flags) (hr : s.runners.getLast? = some r) (hf : s.flags = some f)
    (hstatus : r.run.execution.status = .paused ∨ r.run.execution.status = .running) :
    s.Steps .resumeWorkflow { s with
      runners := s.runners.set (s.runners.length - 1) { r with run := r.run.setStatus .running }
      flags := some { f with pause := false }
      log := .resumed :: s.log }
  | kill (r : Runner) (f : Flags) (hr : s.runners.getLast? = some r) (hf : s.flags = some f)
    (hstatus : r.run.execution.status ≠ .completed ∧ r.run.execution.status ≠ .killed) :
    s.Steps .killWorkflow { s with flags := some { f with kill := true }, log := .killed :: s.log }

theorem step_cases (s : MultiAgentOrchestrator) (e : Event) : s.Steps e (s.step e) := by
  cases e with
  | start d inputData =>
    change s.Steps _ (s.startWorkflow d inputData)
    unfold startWorkflow
    split
    · next h =>
      rw [Bool.and_eq_true, Bool.and_eq_true, List.isEmpty_iff, List.isEmpty_iff] at h
      exact .start d inputData _ h.1.1 h.2 rfl rfl rfl (by simp [Run.persist])
    · exact .stay _
  | read inputData => exact .read inputData
  | resume call =>
    rw [step]
    split
    · next c hcall =>
      unfold resumeExecution
      split
      · exact .refuse call
      · next row hrow =>
        split
        · next hstatus =>
          dsimp only
          split
          · exact .strand call _ ⟨c, row, hcall, hrow, hstatus⟩ rfl rfl
          · next waves hsort =>
            exact .resume call row waves _ _ ⟨c, row, hcall, hrow, hstatus⟩ hsort rfl rfl rfl (Runner.turn_nextWave _ _ _ _)
        · exact .refuse call
    · exact .stay _
  | act runner a =>
    rw [step]
    split
    · next r hr =>
      split
      · next r' hact => exact .act runner a r r' hr (act_cases hact)
      · exact .stay _
    · exact .stay _
  | slots agentType free => exact .slots agentType free
  | pauseWorkflow =>
    change s.Steps _ s.pauseWorkflow
    unfold pauseWorkflow
    split
    · next r f hr hf =>
      split
      · next hstatus => exact .pause r f hr hf hstatus
      · exact .stay _
    · exact .stay _
  | resumeWorkflow =>
    change s.Steps _ s.resumeWorkflow
    unfold resumeWorkflow
    split
    · next r f hr hf =>
      split
      · next hstatus => exact .unpause r f hr hf hstatus
      · exact .stay _
    · exact .stay _
  | killWorkflow =>
    change s.Steps _ s.killWorkflow
    unfold killWorkflow
    split
    · next r f hr hf =>
      split
      · exact .stay _
      · next hstatus => exact .kill r f hr hf (not_or.mp hstatus)
    · exact .stay _

end MultiAgentOrchestrator

end Occp.Workflow
