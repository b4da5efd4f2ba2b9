import Mathlib.Data.List.Flatten
import Occp.Workflow.RunnerSteps

/-!
# No node runs twice

A call hands out each of its nodes once, and only calls that overlap hand out the same
node: `resume_execution` takes over any row that says running, whoever is at work on it.
-/

namespace Occp.Workflow

open Lib (getElem?_set_cases getElem?_concat_cases)

/-! ## What is noted about nodes -/

def Note.nodeId? : Note → Option String
  | .begun _ _ nodeId => some nodeId
  | .ended _ nodeId _ => some nodeId
  | _ => none

/-- An invocation of the node succeeded. -/
def Succeeded (log : List Note) (nodeId : String) : Prop := ∃ runner, .ended runner nodeId true ∈ log

/-- No invocation follows one that succeeded. -/
def NeverAgain : List Note → Prop
  | [] => True
  | note :: earlier => NeverAgain earlier ∧
    ∀ runner waveIndex nodeId, note = .begun runner waveIndex nodeId → ¬ Succeeded earlier nodeId

def NodeRun.isRunning (n : NodeRun) : Bool :=
  match n.phase with
  | .running _ => true
  | _ => false

/-- How many invocations of the node are in progress. -/
def MultiAgentOrchestrator.inProgress (s : MultiAgentOrchestrator) (nodeId : String) : Nat :=
  (s.runners.flatMap (·.nodes)).countP fun n => n.isRunning && n.node.nodeId == nodeId

/-- No call is at work on the execution, and its row still says that it was interrupted. -/
def MultiAgentOrchestrator.Unattended (s : MultiAgentOrchestrator) : Prop :=
  (∀ r ∈ s.runners, r.stage = .ended) ∧ ∃ row, s.row = some row ∧ (row.status = .running ∨ row.status = .paused)

/-- The notes leave the node out. -/
def Untouched (log : List Note) (nodeId : String) : Prop := ∀ note ∈ log, note.nodeId? ≠ some nodeId

theorem Untouched.not_succeeded {log : List Note} {nodeId : String} (h : Untouched log nodeId) :
    ¬ Succeeded log nodeId := by
  rintro ⟨runner, hmem⟩
  exact h _ hmem rfl

/-- Notes about anything else than nodes change nothing. -/
theorem neverAgain_append {notes log : List Note} (h : ∀ note ∈ notes, note.nodeId? = none) (hlog : NeverAgain log) :
    NeverAgain (notes ++ log) := by
  induction notes with
  | nil => exact hlog
  | cons note notes ih =>
    rw [List.forall_mem_cons] at h
    refine ⟨ih h.2, fun runner waveIndex nodeId hnote => ?_⟩
    rw [hnote] at h
    cases h.1

theorem untouched_append {notes log : List Note} {nodeId : String} (h : ∀ note ∈ notes, note.nodeId? = none)
    (hlog : Untouched log nodeId) : Untouched (notes ++ log) nodeId := by
  intro note hmem
  rcases List.mem_append.mp hmem with hmem | hmem
  · simp [h note hmem]
  · exact hlog note hmem

theorem succeeded_append {notes log : List Note} {nodeId : String} (h : ∀ note ∈ notes, note.nodeId? = none) :
    Succeeded (notes ++ log) nodeId ↔ Succeeded log nodeId := by
  refine ⟨fun ⟨runner, hmem⟩ => ⟨runner, (List.mem_append.mp hmem).resolve_left fun hnote => ?_⟩,
    fun ⟨runner, hmem⟩ => ⟨runner, List.mem_append_right _ hmem⟩⟩
  cases h _ hnote

theorem noteStage_nodeId (runner : Nat) (r : Runner) :
    ∀ note ∈ MultiAgentOrchestrator.noteStage runner r, note.nodeId? = none := by
  unfold MultiAgentOrchestrator.noteStage
  split
  · simp [Note.nodeId?]
  · simp [Note.nodeId?]
  · simp

/-! ## One call -/

namespace Runner

/-- What the notes say of the nodes that the call has not finished. -/
structure Once (log : List Note) (r : Runner) : Prop where
  nodup : (r.nodes.map (·.node.nodeId) ++ r.later.flatten).Nodup
  later : ∀ nodeId ∈ r.later.flatten, Untouched log nodeId
  waiting : ∀ n ∈ r.nodes, n.phase = .waiting → Untouched log n.node.nodeId
  inside : ∀ n ∈ r.nodes, n.inside = true → ¬ Succeeded log n.node.nodeId

variable {log : List Note} {r r' : Runner}

theorem Once.append (h : r.Once log) {notes : List Note} (hnotes : ∀ note ∈ notes, note.nodeId? = none) :
    r.Once (notes ++ log) where
  nodup := h.nodup
  later nodeId hmem := untouched_append hnotes (h.later nodeId hmem)
  waiting n hn hphase := untouched_append hnotes (h.waiting n hn hphase)
  inside n hn hinside hsucceeded := h.inside n hn hinside ((succeeded_append hnotes).mp hsucceeded)

theorem Once.of_no_nodes (hnodes : r.nodes = []) (hnodup : r.later.flatten.Nodup)
    (hlater : ∀ nodeId ∈ r.later.flatten, Untouched log nodeId) : r.Once log where
  nodup := by rwa [hnodes]
  later := hlater
  waiting n hn := by simp [hnodes] at hn
  inside n hn := by simp [hnodes] at hn

theorem Once.of_nothing (hnodes : r.nodes = []) (hlater : r.later = []) : r.Once log :=
  .of_no_nodes hnodes (by simp [hlater]) (by simp [hlater])

theorem Once.later_nodup (h : r.Once log) : r.later.flatten.Nodup := (List.nodup_append.mp h.nodup).2.1

/-- A wave that starts has nodes that nothing was noted about. -/
theorem once_enter (waveIndex : Nat) {nodeIds : List String} {rest waves : List (List String)}
    (hsub : (nodeIds ++ rest.flatten).Sublist waves.flatten) (hnodup : waves.flatten.Nodup)
    (huntouched : ∀ nodeId ∈ waves.flatten, Untouched log nodeId) : (r.enter waveIndex nodeIds rest).Once log := by
  have hids : ((r.enter waveIndex nodeIds rest).nodes.map (·.node.nodeId)).Sublist nodeIds := by
    change (((waveNodes r.definition nodeIds).map ({ node := · : NodeRun })).map (·.node.nodeId)).Sublist nodeIds
    rw [List.map_map]
    exact waveNodes_sublist r.definition nodeIds
  have hmem (nodeId : String) (h : nodeId ∈ nodeIds ++ rest.flatten) : Untouched log nodeId :=
    huntouched nodeId (hsub.subset h)
  refine ⟨(hnodup.sublist hsub).sublist (hids.append_right _), fun nodeId h => hmem nodeId ?_, fun n hn _ => ?_,
    fun n hn hinside => ?_⟩
  · exact List.mem_append_right _ h
  · exact hmem _ (List.mem_append_left _ (hids.subset (List.mem_map_of_mem hn)))
  · obtain ⟨node, -, rfl⟩ := List.mem_map.mp hn
    cases hinside

theorem once_turn {flags : Option Flags} {waves : List (List String)} (hturn : r.Turn flags waves r')
    (hnodup : waves.flatten.Nodup) (huntouched : ∀ nodeId ∈ waves.flatten, Untouched log nodeId) : r'.Once log := by
  cases hturn with
  | complete | fail | stop => exact .of_nothing rfl rfl
  | pause f waveIndex wave rest h hkill hstarted hpause hwaves =>
    subst hwaves
    exact .of_no_nodes rfl hnodup huntouched
  | enter f waveIndex nodeIds wave skipped rest h hkill hwaves hnodeIds =>
    refine once_enter waveIndex ?_ hnodup huntouched
    rw [hwaves, List.flatten_append, List.flatten_cons]
    exact (hnodeIds.append_right _).trans (List.sublist_append_right _ _)

theorem once_nextResult (waveIndex : Nat) (wave : List String) (waveFailed : Bool) {rest : List (List String)}
    (results : List (String × Except PyError Value)) (hnodup : rest.flatten.Nodup)
    (huntouched : ∀ nodeId ∈ rest.flatten, Untouched log nodeId) :
    (r.nextResult waveIndex wave waveFailed rest results).Once log := by
  unfold nextResult
  split
  · exact .of_no_nodes rfl hnodup huntouched
  · split
    · exact .of_nothing rfl rfl
    · exact .of_no_nodes rfl hnodup huntouched

theorem Once.advance {flags : Option Flags} (h : r.Once log) (hadvance : r.Advances flags r') : r'.Once log := by
  have hnodup := h.later_nodup
  have hlater := h.later
  cases hadvance with
  | startFails | wakeFails | wakeStops | giveUp | finish => exact .of_nothing rfl rfl
  | start inputData waves r' hstage hsort hturn =>
    simp only [Runner.later, hstage, hsort] at hnodup hlater
    exact once_turn hturn hnodup hlater
  | sleep f waveIndex wave rest hstage =>
    simp only [Runner.later, hstage] at hnodup hlater
    exact .of_no_nodes rfl hnodup hlater
  | wake f waveIndex wave rest hstage =>
    simp only [Runner.later, hstage] at hnodup hlater
    exact once_enter waveIndex (List.Sublist.refl _) hnodup hlater
  | gathered waveIndex nodes rest results hstage =>
    simp only [Runner.later, hstage] at hnodup hlater
    exact once_nextResult _ _ _ _ hnodup hlater
  | recorded waveIndex wave left waveFailed rest hstage =>
    simp only [Runner.later, hstage] at hnodup hlater
    exact once_nextResult _ _ _ _ hnodup hlater
  | next waveIndex wave rest r' hstage hturn =>
    simp only [Runner.later, hstage] at hnodup hlater
    exact once_turn hturn hnodup hlater

/-- The task of one node moves on, and what is noted is about that node. -/
theorem Once.move (h : r.Once log) {waveIndex : Nat} {before after : List NodeRun} {n : NodeRun}
    {rest : List (List String)} {phase : Phase} {notes : List Note}
    (hstage : r.stage = .wave waveIndex (before ++ n :: after) rest)
    (hnotes : ∀ note ∈ notes, note.nodeId? = some n.node.nodeId) (hwaiting : phase ≠ .waiting)
    (hinside : ({ n with phase } : NodeRun).inside = true → ¬ Succeeded (notes ++ log) n.node.nodeId) :
    Once (notes ++ log) { r with stage := .wave waveIndex (before ++ { n with phase } :: after) rest } := by
  obtain ⟨hnodup, hlater, hwait, hin⟩ := h
  simp only [Runner.nodes, Runner.later, hstage] at hnodup hlater hwait hin
  have huntouched (nodeId : String) (hne : nodeId ≠ n.node.nodeId) (h : Untouched log nodeId) :
      Untouched (notes ++ log) nodeId := by
    intro note hnote
    rcases List.mem_append.mp hnote with hnote | hnote
    · rw [hnotes note hnote]
      exact fun heq => hne (Option.some.inj heq).symm
    · exact h note hnote
  have hsucceeded (nodeId : String) (hne : nodeId ≠ n.node.nodeId) (h : ¬ Succeeded log nodeId) :
      ¬ Succeeded (notes ++ log) nodeId := by
    rintro ⟨runner, hmem⟩
    rcases List.mem_append.mp hmem with hmem | hmem
    · exact hne (Option.some.inj (hnotes _ hmem))
    · exact h ⟨runner, hmem⟩
  rw [List.map_append, List.map_cons] at hnodup
  have hsplit := List.nodup_append.mp hnodup
  have hother (m : NodeRun) (hm : m ∈ before ∨ m ∈ after) : m.node.nodeId ≠ n.node.nodeId := by
    have hmiddle := List.nodup_middle.mp hsplit.1
    rw [List.nodup_cons, List.mem_append] at hmiddle
    intro heq
    refine hmiddle.1 ?_
    rw [← heq]
    exact hm.imp (fun hm => List.mem_map_of_mem hm) fun hm => List.mem_map_of_mem hm
  refine ⟨?_, fun nodeId hmem => ?_, fun m hm hphase => ?_, fun m hm hinside' => ?_⟩
  · simpa only [Runner.nodes, Runner.later, List.map_append, List.map_cons] using hnodup
  · refine huntouched nodeId (fun heq => ?_) (hlater nodeId hmem)
    refine hsplit.2.2 n.node.nodeId ?_ nodeId hmem heq.symm
    exact List.mem_append_right _ List.mem_cons_self
  · rcases List.mem_append.mp hm with hm | hm
    · exact huntouched _ (hother m (.inl hm)) (hwait m (List.mem_append_left _ hm) hphase)
    · rcases List.mem_cons.mp hm with rfl | hm
      · exact absurd hphase hwaiting
      · exact huntouched _ (hother m (.inr hm)) (hwait m (List.mem_append_right _ (List.mem_cons_of_mem _ hm)) hphase)
  · rcases List.mem_append.mp hm with hm | hm
    · exact hsucceeded _ (hother m (.inl hm)) (hin m (List.mem_append_left _ hm) hinside')
    · rcases List.mem_cons.mp hm with rfl | hm
      · exact hinside hinside'
      · exact hsucceeded _ (hother m (.inr hm))
          (hin m (List.mem_append_right _ (List.mem_cons_of_mem _ hm)) hinside')

end Runner

theorem NodeRun.attempt_ne_waiting (killed : Bool) (executionId : String) (number : Nat) :
    attempt killed executionId number ≠ .waiting := by
  unfold attempt
  split <;> simp

theorem NodeRun.settle_ne_waiting (killed : Bool) (executionId : String) (n : NodeRun) (number : Nat)
    (result : Except PyError Value) : n.settle killed executionId number result ≠ .waiting := by
  unfold settle
  split
  · simp
  · simp
  · split
    · exact attempt_ne_waiting _ _ _
    · simp

namespace MultiAgentOrchestrator

variable {s : MultiAgentOrchestrator} {log : List Note} {r r' : Runner} {a : Act}

/-- Whatever a call does next, it begins only nodes that no invocation has succeeded for. -/
theorem once_act (h : r.Once log) (hlog : NeverAgain log) (hact : s.Acts r a r') (runner : Nat) :
    r'.Once (notes runner r.stage r' a ++ log) ∧ NeverAgain (notes runner r.stage r' a ++ log) := by
  cases hact with
  | store => exact ⟨⟨h.nodup, h.later, h.waiting, h.inside⟩, hlog⟩
  | advance r' hsaved hadvance =>
    have hnotes := noteStage_nodeId runner r'
    exact ⟨(h.advance hadvance).append hnotes, neverAgain_append hnotes hlog⟩
  | move a waveIndex before n after rest phase hstage hmoves =>
    have hn : n ∈ r.nodes := by simp [Runner.nodes, hstage]
    cases hmoves with
    | dispatch hphase =>
      have hnot := (h.waiting n hn hphase).not_succeeded
      exact ⟨h.move hstage (by simp [notes]) (NodeRun.attempt_ne_waiting _ _ _) fun _ => hnot, hlog⟩
    | begin number hphase =>
      have hnot := h.inside n hn (by simp [NodeRun.inside, hphase])
      simp only [notes, hstage]
      refine ⟨h.move hstage (by simp [Note.nodeId?]) (by simp) fun _ => ?_, hlog, ?_⟩
      · rintro ⟨runner', hmem⟩
        exact hnot ⟨runner', by simpa using hmem⟩
      · intro runner' waveIndex' nodeId hnote
        obtain ⟨-, -, rfl⟩ := Note.begun.inj hnote
        exact hnot
    | reject number exc hphase =>
      have hnot := h.inside n hn (by simp [NodeRun.inside, hphase])
      exact ⟨h.move hstage (by simp [notes]) (NodeRun.settle_ne_waiting _ _ _ _ _) fun _ => hnot, hlog⟩
    | finish number result hphase =>
      have hnot := h.inside n hn (by simp [NodeRun.inside, hphase])
      refine ⟨h.move hstage (by simp [notes, Note.nodeId?]) (NodeRun.settle_ne_waiting _ _ _ _ _) fun hinside => ?_,
        hlog, fun _ _ _ hnote => by cases hnote⟩
      rintro ⟨runner', hmem⟩
      rcases List.mem_cons.mp hmem with heq | hmem
      · -- An invocation that succeeded is not repeated.
        cases result with
        | ok output => simp [NodeRun.settle, NodeRun.inside] at hinside
        | error exc => simp [Except.toBool] at heq
      · exact hnot ⟨runner', hmem⟩

end MultiAgentOrchestrator

/-! ## The last write -/

/-- The status says that the execution is over. -/
def WorkflowExecutionRow.Over (row : WorkflowExecutionRow) : Prop := row.status ≠ .running ∧ row.status ≠ .paused

namespace Runner

variable {r r' : Runner}

/-- A call that is about to end has written a row that is over, or is doing so. -/
structure Closing (stored : Option WorkflowExecutionRow) (r : Runner) : Prop where
  saved : r.saved ≤ r.run.writes.length
  last : r.stage = .ending → ∃ writes row, r.run.writes = writes ++ [.saveWorkflowExecution row] ∧ row.Over ∧
    (r.saved = writes.length ∨ r.saved = writes.length + 1 ∧ stored = some row)

/-- From one await to the next, a call writes no row before it is over. -/
structure Continues (r r' : Runner) : Prop where
  live : r'.stage ≠ .ended
  saved : r'.saved = r.saved
  writes : r.run.writes.length ≤ r'.run.writes.length
  ending : r'.stage = .ending →
    ∃ row, r'.run.writes = r.run.writes ++ [.saveWorkflowExecution row] ∧ row.Over

theorem continues_of_same (hlive : r'.stage ≠ .ended) (hsaved : r'.saved = r.saved)
    (hwrites : r'.run.writes = r.run.writes) (hstage : r'.stage ≠ .ending) : r.Continues r' :=
  ⟨hlive, hsaved, Nat.le_of_eq (by rw [hwrites]), fun h => absurd h hstage⟩

theorem continues_of_write (hlive : r'.stage ≠ .ended) (hsaved : r'.saved = r.saved) {write : StoreWrite}
    (hwrites : r'.run.writes = r.run.writes ++ [write])
    (hover : r'.stage = .ending → ∃ row, write = .saveWorkflowExecution row ∧ row.Over) : r.Continues r' := by
  refine ⟨hlive, hsaved, ?_, fun h => ?_⟩
  · rw [hwrites, List.length_append]
    omega
  · obtain ⟨row, rfl, hrow⟩ := hover h
    exact ⟨row, hwrites, hrow⟩

theorem continues_complete (r : Runner) : r.Continues r.complete :=
  continues_of_write (by simp [complete]) rfl rfl fun _ =>
    ⟨_, rfl, by simp [WorkflowExecutionRow.Over, WorkflowExecution.row, Run.setStatus]⟩

theorem continues_stop (r : Runner) : r.Continues r.stop :=
  continues_of_write (by simp [stop]) rfl rfl fun _ =>
    ⟨_, rfl, by simp [WorkflowExecutionRow.Over, WorkflowExecution.row, Run.setStatus, Run.setError]⟩

theorem continues_fail (r : Runner) (exc : PyError) : r.Continues (r.fail exc) :=
  continues_of_write (by simp [fail]) rfl rfl fun _ =>
    ⟨_, rfl, by simp [WorkflowExecutionRow.Over, WorkflowExecution.row, Run.setStatus, Run.setError]⟩

theorem continues_giveUp (r : Runner) (waveIndex : Nat) (wave : List String) :
    r.Continues (r.giveUp waveIndex wave) :=
  continues_of_write (by simp [giveUp]) rfl rfl fun _ =>
    ⟨_, rfl, by simp [WorkflowExecutionRow.Over, WorkflowExecution.row, Run.setStatus, Run.setError]⟩

theorem continues_turn {flags : Option Flags} {waves : List (List String)} (hturn : r.Turn flags waves r') :
    r.Continues r' := by
  cases hturn with
  | complete => exact r.continues_complete
  | fail => exact r.continues_fail _
  | stop => exact r.continues_stop
  | pause => exact continues_of_same (by simp [pauseAt]) rfl rfl (by simp [pauseAt])
  | enter => exact continues_of_same (by simp [enter]) rfl rfl (by simp [enter])

theorem continues_nextResult (r : Runner) (waveIndex : Nat) (wave : List String) (waveFailed : Bool)
    (rest : List (List String)) (results : List (String × Except PyError Value)) :
    r.Continues (r.nextResult waveIndex wave waveFailed rest results) := by
  unfold nextResult
  split
  · exact continues_of_write (by simp) rfl rfl fun h => by cases h
  · split
    · exact r.continues_stop
    · exact continues_of_write (by simp) rfl rfl fun h => by cases h

theorem continues_advance {flags : Option Flags} (h : r.Advances flags r') :
    r.Continues r' ∨ r.stage = .ending ∧ r' = { r with stage := .ended } := by
  cases h with
  | startFails => exact .inl (r.continues_fail _)
  | start inputData waves r' hstage hsort hturn =>
    obtain ⟨hlive, hsaved, hwrites, hending⟩ := continues_turn hturn
    exact .inl ⟨hlive, hsaved, hwrites, hending⟩
  | wakeFails => exact .inl (r.continues_fail _)
  | wakeStops => exact .inl r.continues_stop
  | sleep => exact .inl (continues_of_same (by simp [pauseAt]) rfl rfl (by simp [pauseAt]))
  | wake => exact .inl (continues_of_same (by simp [enter]) rfl rfl (by simp [enter]))
  | gathered => exact .inl (r.continues_nextResult _ _ _ _ _)
  | recorded => exact .inl (r.continues_nextResult _ _ _ _ _)
  | giveUp => exact .inl (r.continues_giveUp _ _)
  | next waveIndex wave rest r' hstage hturn => exact .inl (continues_turn hturn)
  | finish hstage => exact .inr ⟨hstage, rfl⟩

/-- The calls that are over have made all their writes. -/
def Quiet (r : Runner) : Prop := r.stage = .ended ∧ r.run.writes.length ≤ r.saved

end Runner

namespace MultiAgentOrchestrator

variable {s : MultiAgentOrchestrator} {r r' : Runner} {a : Act}

/-- A call that is over does nothing any more. -/
theorem not_quiet_of_acts (h : s.Acts r a r') : ¬ r.Quiet := by
  rintro ⟨hstage, hsaved⟩
  cases h with
  | store hlt => omega
  | advance r' _ hadvance => cases hadvance <;> simp_all
  | move a waveIndex before n after rest phase hwave => simp [hwave] at hstage

theorem closing_act (h : r.Closing s.row) (hlive : r.stage ≠ .ended) (hact : s.Acts r a r') :
    r'.stage ≠ .ended ∧ r'.Closing (s.rowAfter r a) ∨ r'.Quiet ∧ ∃ row, s.rowAfter r a = some row ∧ row.Over := by
  cases hact with
  | store hlt =>
    refine .inl ⟨hlive, hlt, fun hending => ?_⟩
    obtain ⟨writes, row, hwrites, hover, hsaved⟩ := h.last hending
    refine ⟨writes, row, hwrites, hover, .inr ?_⟩
    rcases hsaved with hsaved | ⟨hsaved, -⟩
    · simp [rowAfter, hwrites, hsaved, StoreWrite.apply]
    · rw [hwrites, List.length_append, List.length_singleton, hsaved] at hlt
      exact absurd hlt (Nat.lt_irrefl _)
  | advance r' hsaved hadvance =>
    rcases Runner.continues_advance hadvance with hcontinues | ⟨hending, rfl⟩
    · refine .inl ⟨hcontinues.live, ?_, fun hending => ?_⟩
      · have := hcontinues.writes
        have := hcontinues.saved
        have := h.saved
        omega
      · obtain ⟨row, hwrites, hover⟩ := hcontinues.ending hending
        exact ⟨_, row, hwrites, hover, .inl (by rw [hcontinues.saved]; exact Nat.le_antisymm h.saved hsaved)⟩
    · obtain ⟨writes, row, hwrites, hover, hlast⟩ := h.last hending
      refine .inr ⟨⟨rfl, hsaved⟩, row, ?_, hover⟩
      refine (hlast.resolve_left fun heq => ?_).2
      rw [hwrites, List.length_append, List.length_singleton] at hsaved
      omega
  | move a waveIndex before n after rest phase hstage hmoves =>
    exact .inl ⟨by simp, h.saved, fun hending => by cases hending⟩

/-! ## All calls -/

/-- No call has handed out anything. -/
def Idle (s : MultiAgentOrchestrator) : Prop := ∀ nodeId, Untouched s.log nodeId

/-- One call is at work, and the others are over. -/
structure AtWork (s : MultiAgentOrchestrator) (runner : Nat) (r : Runner) : Prop where
  here : s.runners[runner]? = some r
  others : ∀ i r', s.runners[i]? = some r' → i ≠ runner → r'.Quiet
  live : r.stage ≠ .ended
  closing : r.Closing s.row
  once : r.Once s.log

/-- Where the execution is: no node was handed out, one call hands out nodes, or it is over. -/
inductive Attended (s : MultiAgentOrchestrator) : Prop
  | idle (hquiet : ∀ r ∈ s.runners, r.Quiet) (hidle : s.Idle)
  | atWork (runner : Nat) (r : Runner) (h : s.AtWork runner r)
  | concluded (hrunners : s.runners ≠ []) (hquiet : ∀ r ∈ s.runners, r.Quiet) (hover : ∀ row, s.row = some row → row.Over)

theorem attended_act (h : s.Attended) (hlog : NeverAgain s.log) {runner : Nat} (hr : s.runners[runner]? = some r)
    (hact : s.Acts r a r') : (s.commit runner r r' a).Attended ∧ NeverAgain (s.commit runner r r' a).log := by
  have hmem := List.mem_of_getElem? hr
  have hnot := not_quiet_of_acts hact
  have hlt : runner < s.runners.length := (List.getElem?_eq_some_iff.mp hr).1
  cases h with
  | idle hquiet hidle => exact absurd (hquiet r hmem) hnot
  | concluded hrunners hquiet hover => exact absurd (hquiet r hmem) hnot
  | atWork j r₀ h =>
    -- Only the call that is at work can act.
    obtain rfl : runner = j := by
      by_contra hne
      exact hnot (h.others runner r hr hne)
    obtain rfl : r₀ = r := Option.some.inj (h.here.symm.trans hr)
    obtain ⟨honce, hnever⟩ := once_act h.once hlog hact runner
    have hothers (i : Nat) (r'' : Runner) (hi : (s.runners.set runner r')[i]? = some r'') (hne : i ≠ runner) :
        r''.Quiet :=
      (getElem?_set_cases hi).elim (fun h => absurd h.1 hne) fun hi => h.others i r'' hi.2 hne
    have hhere : (s.runners.set runner r')[runner]? = some r' := List.getElem?_set_self hlt
    refine ⟨?_, hnever⟩
    rcases closing_act h.closing h.live hact with ⟨hlive, hclosing⟩ | ⟨hquiet, row, hrow, hover⟩
    · exact .atWork runner r' ⟨hhere, hothers, hlive, hclosing, honce⟩
    · refine .concluded ?_ (fun r'' hr'' => ?_) fun row' hrow' => ?_
      · exact List.ne_nil_of_mem (List.mem_of_getElem? hhere)
      · obtain ⟨i, hi⟩ := List.getElem?_of_mem hr''
        rcases getElem?_set_cases hi with ⟨-, rfl⟩ | ⟨hne, hi⟩
        · exact hquiet
        · exact h.others i r'' hi hne
      · obtain rfl := Option.some.inj (hrow.symm.trans hrow')
        exact hover

/-- Notes about anything else than nodes, and whatever is not looked at here, change nothing. -/
theorem Attended.of_same {s' : MultiAgentOrchestrator} (h : s.Attended) (hrunners : s'.runners = s.runners)
    (hrow : s'.row = s.row) (notes : List Note) (hlog : s'.log = notes ++ s.log)
    (hnotes : ∀ note ∈ notes, note.nodeId? = none) : s'.Attended := by
  cases h with
  | idle hquiet hidle =>
    refine .idle (by rwa [hrunners]) fun nodeId => ?_
    rw [hlog]
    exact untouched_append hnotes (hidle nodeId)
  | atWork runner r h =>
    refine .atWork runner r ⟨by rw [hrunners]; exact h.here, by rw [hrunners]; exact h.others, h.live, ?_, ?_⟩
    · rw [hrow]
      exact h.closing
    · rw [hlog]
      exact h.once.append hnotes
  | concluded hne hquiet hover => exact .concluded (by rwa [hrunners]) (by rwa [hrunners]) (by rwa [hrow])

/-- A call keeps its place when only its status is changed. -/
theorem Attended.set_status (h : s.Attended) {runner : Nat} (hr : s.runners[runner]? = some r)
    (status : WorkflowStatus) :
    { s with runners := s.runners.set runner { r with run := r.run.setStatus status } }.Attended := by
  have hlt : runner < s.runners.length := (List.getElem?_eq_some_iff.mp hr).1
  have hquietSet (hquiet : ∀ r ∈ s.runners, r.Quiet) :
      ∀ r' ∈ s.runners.set runner { r with run := r.run.setStatus status }, r'.Quiet := by
    intro r' hmem
    rcases List.mem_or_eq_of_mem_set hmem with hmem | rfl
    · exact hquiet r' hmem
    · exact hquiet r (List.mem_of_getElem? hr)
  cases h with
  | idle hquiet hidle => exact .idle (hquietSet hquiet) hidle
  | concluded hne hquiet hover =>
    exact .concluded (by simpa using hne) (hquietSet hquiet) hover
  | atWork j r₀ h =>
    by_cases hj : runner = j
    · subst hj
      obtain rfl : r₀ = r := Option.some.inj (h.here.symm.trans hr)
      exact .atWork runner _ ⟨List.getElem?_set_self hlt,
        fun i r' hi hne => (getElem?_set_cases hi).elim (fun h => absurd h.1 hne) fun hi => h.others i r' hi.2 hne,
        h.live, ⟨h.closing.saved, h.closing.last⟩, ⟨h.once.nodup, h.once.later, h.once.waiting, h.once.inside⟩⟩
    · refine .atWork j r₀ ⟨?_, fun i r' hi hne => ?_, h.live, h.closing, h.once⟩
      · rw [List.getElem?_set_ne hj]
        exact h.here
      · rcases getElem?_set_cases hi with ⟨-, rfl⟩ | ⟨-, hi⟩
        · exact h.others runner r hr hj
        · exact h.others i r' hi hne

/-- Registering an idle execution's call puts it to work. -/
theorem atWork_register (hquiet : ∀ r ∈ s.runners, r.Quiet) (hlive : r.stage ≠ .ended) (hclosing : r.Closing s.row)
    {log : List Note} (honce : r.Once log) : { s.register r with log := log }.Attended := by
  refine .atWork s.runners.length r ⟨by simp [register], fun i r' hi hne => ?_, hlive, hclosing, honce⟩
  rcases getElem?_concat_cases hi with ⟨hi, -⟩ | hi
  · exact absurd hi hne
  · exact hquiet r' (List.mem_of_getElem? hi)

/-- A call that raises after it registered itself does nothing. -/
theorem Attended.strand (h : s.Attended) (hr : r.Quiet) : (s.register r).Attended := by
  have hquietAppend (hquiet : ∀ r ∈ s.runners, r.Quiet) : ∀ r' ∈ s.runners ++ [r], r'.Quiet := by
    intro r' hmem
    rcases List.mem_append.mp hmem with hmem | hmem
    · exact hquiet r' hmem
    · rwa [List.mem_singleton.mp hmem]
  cases h with
  | idle hquiet hidle => exact .idle (hquietAppend hquiet) hidle
  | concluded hne hquiet hover => exact .concluded (by simp [register]) (hquietAppend hquiet) hover
  | atWork j r₀ h =>
    have hlt : j < s.runners.length := (List.getElem?_eq_some_iff.mp h.here).1
    refine .atWork j r₀ ⟨?_, fun i r' hi hne => ?_, h.live, h.closing, h.once⟩
    · change (s.runners ++ [r])[j]? = some r₀
      rw [List.getElem?_append_left hlt]
      exact h.here
    · rcases getElem?_concat_cases hi with ⟨-, rfl⟩ | hi
      · exact hr
      · exact h.others i r' hi hne

/-- A step keeps the calls in turn, when a call takes over only an unattended execution. -/
theorem attended_step (h : s.Attended) (hlog : NeverAgain s.log) (e : Event) (hsole : s.TakesOver e → s.Unattended) :
    (s.step e).Attended ∧ NeverAgain (s.step e).log := by
  have hsteps := s.step_cases e
  generalize s.step e = s' at hsteps ⊢
  cases hsteps with
  | stay => exact ⟨h, hlog⟩
  | start d inputData r hrunners hvalid hresumed hdefinition hstage hsaved =>
    have hlater : r.later.flatten.Nodup := by
      unfold Runner.later
      rw [hstage]
      dsimp only
      split
      · next waves hsort => exact WorkflowDefinition.nodup_of_topologicalSort hsort
      · exact List.nodup_nil
    have hidle : s.Idle := by
      cases h with
      | idle hquiet hidle => exact hidle
      | atWork j r₀ h =>
        have hhere := h.here
        rw [hrunners] at hhere
        simp at hhere
      | concluded hne => exact absurd hrunners hne
    refine ⟨atWork_register (by simp [hrunners]) (by simp [hstage]) ⟨hsaved, fun hending => ?_⟩
      (.of_no_nodes (by simp [Runner.nodes, hstage]) hlater fun nodeId _ => hidle nodeId), hlog⟩
    rw [hstage] at hending
    cases hending
  | read => exact ⟨h.of_same rfl rfl [] rfl (by simp), hlog⟩
  | refuse => exact ⟨h.of_same rfl rfl [] rfl (by simp), hlog⟩
  | strand call r htakes hstage hwrites =>
    have hcalls : { s with calls := s.calls.eraseIdx call }.Attended := h.of_same rfl rfl [] rfl (by simp)
    exact ⟨hcalls.strand ⟨hstage, by simp [hwrites]⟩, hlog⟩
  | resume call row waves r r' htakes hsort hresumed hsaved hwrites hturn =>
    obtain ⟨hended, row', hrow', hstatus'⟩ := hsole htakes
    cases h with
    | atWork j r₀ h => exact absurd (hended r₀ (List.mem_of_getElem? h.here)) h.live
    | concluded hne hquiet hover => exact absurd hstatus' (not_or.mpr (hover row' hrow'))
    | idle hquiet hidle =>
      have hnodup : (waves.drop row.currentWave).flatten.Nodup :=
        (WorkflowDefinition.nodup_of_topologicalSort hsort).sublist (List.drop_sublist _ _).flatten
      have honce : r'.Once s.log := Runner.once_turn hturn hnodup fun nodeId _ => hidle nodeId
      have hcontinues := Runner.continues_turn hturn
      have hclosing : r'.Closing s.row := by
        refine ⟨by rw [hcontinues.saved, hsaved]; exact Nat.zero_le _, fun hending => ?_⟩
        obtain ⟨last, hlast, hover⟩ := hcontinues.ending hending
        exact ⟨[], last, by rw [hlast, hwrites], hover, .inl (by rw [hcontinues.saved, hsaved]; rfl)⟩
      have hnotes := noteStage_nodeId s.runners.length r'
      exact ⟨atWork_register (s := { s with calls := s.calls.eraseIdx call }) hquiet hcontinues.live hclosing
        (honce.append hnotes), neverAgain_append hnotes hlog⟩
  | act runner a r r' hr hact => exact attended_act h hlog hr hact
  | slots => exact ⟨h.of_same rfl rfl [] rfl (by simp), hlog⟩
  | pause =>
    exact ⟨h.of_same rfl rfl [.paused] rfl (by simp [Note.nodeId?]),
      @neverAgain_append [.paused] s.log (by simp [Note.nodeId?]) hlog⟩
  | unpause r f hr =>
    rw [List.getLast?_eq_getElem?] at hr
    have hset := (h.set_status hr .running)
    exact ⟨hset.of_same rfl rfl [.resumed] rfl (by simp [Note.nodeId?]),
      @neverAgain_append [.resumed] s.log (by simp [Note.nodeId?]) hlog⟩
  | kill =>
    exact ⟨h.of_same rfl rfl [.killed] rfl (by simp [Note.nodeId?]),
      @neverAgain_append [.killed] s.log (by simp [Note.nodeId?]) hlog⟩

theorem flatMap_nodes {runners : List Runner} {j : Nat} (hj : runners[j]? = some r)
    (hothers : ∀ i r', runners[i]? = some r' → i ≠ j → r'.nodes = []) : runners.flatMap (·.nodes) = r.nodes := by
  induction runners generalizing j with
  | nil => simp at hj
  | cons first rest ih =>
    rw [List.flatMap_cons]
    cases j with
    | zero =>
      obtain rfl : first = r := by simpa using hj
      have hrest : rest.flatMap (·.nodes) = [] := by
        rw [List.flatMap_eq_nil_iff]
        intro r' hmem
        obtain ⟨i, hi⟩ := List.getElem?_of_mem hmem
        exact hothers (i + 1) r' (by simpa using hi) (by omega)
      rw [hrest, List.append_nil]
    | succ j =>
      rw [hothers 0 first (by simp) (by omega), List.nil_append]
      exact ih (by simpa using hj) fun i r' hi hne => hothers (i + 1) r' (by simpa using hi) (by omega)

theorem Attended.inProgress_le (h : s.Attended) (nodeId : String) : s.inProgress nodeId ≤ 1 := by
  have hnone (r : Runner) (hquiet : r.Quiet) : r.nodes = [] := by simp [Runner.nodes, hquiet.1]
  have hidle (hquiet : ∀ r ∈ s.runners, r.Quiet) : s.inProgress nodeId ≤ 1 := by
    have hnodes : s.runners.flatMap (·.nodes) = [] :=
      List.flatMap_eq_nil_iff.mpr fun r hr => hnone r (hquiet r hr)
    simp [inProgress, hnodes]
  cases h with
  | idle hquiet => exact hidle hquiet
  | concluded hne hquiet => exact hidle hquiet
  | atWork j r h =>
    unfold inProgress
    rw [flatMap_nodes h.here fun i r' hi hne => hnone r' (h.others i r' hi hne)]
    have hnodup := (List.nodup_append.mp h.once.nodup).1
    calc r.nodes.countP (fun n => n.isRunning && n.node.nodeId == nodeId)
        ≤ r.nodes.countP (fun n => n.node.nodeId == nodeId) :=
          List.countP_mono_left fun n _ hn => (Bool.and_eq_true_iff.mp hn).2
      _ = (r.nodes.map (·.node.nodeId)).count nodeId := by
          rw [List.count, List.countP_map]
          rfl
      _ ≤ 1 := List.nodup_iff_count_le_one.mp hnodup nodeId

/-- **No node runs twice in a run in which a call takes over only an unattended execution.** -/
theorem node_runs_once {events : List Event} (hs : s.Initial)
    (hsole : Lib.Admitted step (fun s e => s.TakesOver e → s.Unattended) s events) :
    NeverAgain (Lib.run step s events).log ∧ ∀ nodeId, (Lib.run step s events).inProgress nodeId ≤ 1 := by
  have hattended : s.Attended := .idle (by simp [hs.runners]) fun nodeId => by simp [Untouched, hs.log]
  have hend := hsole.invariant (fun s => s.Attended ∧ NeverAgain s.log) ⟨hattended, by rw [hs.log]; trivial⟩
    fun s e h hok => attended_step h.1 h.2 e hok
  exact ⟨hend.2, hend.1.inProgress_le⟩

/-! ## One node, two calls -/

/-- Taken over once, the interrupted execution runs its node once. -/
theorem interrupted_run_is_taken_over :
    let events := [.read none, .resume 0, .act 0 (.dispatch "a"), .act 0 (.begin "a"), .act 0 (.finish "a" (.ok .none))]
    (Lib.run step (orchestrator (some (interruptedRow singleNode)) 1) events).log =
        [.ended 0 "a" true, .begun 0 0 "a", .entered 0 0] ∧
      NeverAgain (Lib.run step (orchestrator (some (interruptedRow singleNode)) 1) events).log ∧
      ∀ nodeId, (Lib.run step (orchestrator (some (interruptedRow singleNode)) 1) events).inProgress nodeId ≤ 1 := by
  intro events
  refine ⟨by decide +kernel, node_runs_once ⟨rfl, rfl, rfl⟩ ?_⟩
  exact ⟨fun h => h.elim, fun _ => ⟨fun r hr => (by cases hr), interruptedRow singleNode, rfl, .inl rfl⟩, fun h => h.elim,
    fun h => h.elim, fun h => h.elim, trivial⟩

/-- `resume_execution` finds the row of a call that is at work, and both hand out the node. -/
def overlap : List Event := [.start singleNode [], .act 0 .store, .act 0 .advance, .read none, .resume 0,
  .act 0 (.dispatch "a"), .act 1 (.dispatch "a"), .act 0 (.begin "a")]

/-- Two calls run the same node at the same time, or again after it succeeded. -/
theorem overlapping_calls_repeat_a_node : (orchestrator none 2).Initial ∧
    (Lib.run step (orchestrator none 2) (overlap ++ [.act 1 (.begin "a")])).inProgress "a" = 2 ∧
    ¬ NeverAgain
      (Lib.run step (orchestrator none 2) (overlap ++ [.act 0 (.finish "a" (.ok .none)), .act 1 (.begin "a")])).log := by
  refine ⟨⟨rfl, rfl, rfl⟩, by decide +kernel, ?_⟩
  have hlog : (Lib.run step (orchestrator none 2)
      (overlap ++ [.act 0 (.finish "a" (.ok .none)), .act 1 (.begin "a")])).log =
      [.begun 1 0 "a", .ended 0 "a" true, .begun 0 0 "a", .entered 1 0, .entered 0 0] := by decide +kernel
  rw [hlog]
  intro h
  exact h.2 1 0 "a" rfl ⟨0, List.mem_cons_self⟩

end MultiAgentOrchestrator

end Occp.Workflow
