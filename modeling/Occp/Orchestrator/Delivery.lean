import Mathlib
import Occp.Orchestrator.PipelineOrder

/-!
# What is delivered, and what was reviewed

The evidence keeps the first output of the executor under `execution`, and the revisions under
keys of their own. The review that ends the loop is of the last output.
-/

open Std.Do

set_option mvcgen.warning false

namespace Occp.Orchestrator

/-! ## The replies in the log -/

/-- What the executor returned, newest first. -/
def outputs (log : List Event) : List Value :=
  log.filterMap fun
    | .executed output => some output
    | _ => none

/-- What passed a review, newest first. -/
def passedOutputs (log : List Event) : List Value :=
  log.filterMap fun
    | .reviewed output true => some output
    | _ => none

theorem mem_passedOutputs (output : Value) (log : List Event) :
    output ∈ passedOutputs log ↔ .reviewed output true ∈ log := by
  unfold passedOutputs
  rw [List.mem_filterMap]
  constructor
  · rintro ⟨e, he, hout⟩
    split at hout
    · cases hout
      exact he
    · cases hout
  · intro h
    exact ⟨_, h, rfl⟩

section Log

variable (log : List Event)

@[simp, grind =] theorem outputs_executed (output : Value) :
    outputs (.executed output :: log) = output :: outputs log := rfl

@[simp, grind =] theorem outputs_invoked (s : Stage) : outputs (.invoked s :: log) = outputs log := rfl

@[simp, grind =] theorem outputs_reviewed (output : Value) (passed : Bool) :
    outputs (.reviewed output passed :: log) = outputs log := rfl

@[simp, grind =] theorem outputs_raised (s : Stage) (e : PyError) : outputs (.raised s e :: log) = outputs log := rfl

@[simp, grind =] theorem passedOutputs_executed (output : Value) :
    passedOutputs (.executed output :: log) = passedOutputs log := rfl

@[simp, grind =] theorem passedOutputs_invoked (s : Stage) : passedOutputs (.invoked s :: log) = passedOutputs log := rfl

@[simp, grind =] theorem passedOutputs_reviewed (output : Value) (passed : Bool) :
    passedOutputs (.reviewed output passed :: log) =
      if passed then output :: passedOutputs log else passedOutputs log := by
  cases passed <;> rfl

@[simp, grind =] theorem passedOutputs_raised (s : Stage) (e : PyError) :
    passedOutputs (.raised s e :: log) = passedOutputs log := rfl

end Log

/-! ## The keys of the evidence -/

theorem ne_of_length_lt {a b : String} (h : a.length < b.length) : a ≠ b := by
  rintro rfl
  omega

theorem revision_key_ne (n : Nat) : "execution" ≠ s!"execution_revision_{n}" := by
  have hkey : "execution".length = 9 := by decide
  have hstart : "execution_revision_".length = 19 := by decide
  apply ne_of_length_lt
  simp [toString]
  omega

theorem attempt_key_ne (n : Nat) : "execution" ≠ s!"quality_gate_attempt_{n}" := by
  have hkey : "execution".length = 9 := by decide
  have hstart : "quality_gate_attempt_".length = 21 := by decide
  apply ne_of_length_lt
  simp [toString]
  omega

/-! ## One spec per stage -/

/-- Nothing was executed or reviewed yet. -/
def Unexecuted (log : List Event) : Prop := outputs log = [] ∧ passedOutputs log = []

theorem unexecuted_of_empty {log : List Event} (h : log = []) : Unexecuted log := by
  subst h
  exact ⟨rfl, rfl⟩

/-- The evidence has the first output, and exactly these passed a review. -/
structure Holds (first last : Value) (passed : List Value) (evidence : Dict Value) (log : List Event) : Prop where
  execution : evidence.get? "execution" = some first
  first : (outputs log).getLast? = some first
  last : (outputs log).head? = some last
  passed : passedOutputs log = passed

variable {p : Pipeline} {first last : Value} {passed : List Value} {evidence : Dict Value} {log : List Event}

theorem holds_set (h : Holds first last passed evidence log) (key : String) (v : Value) (hkey : "execution" ≠ key) :
    Holds first last passed (evidence.set key v) log :=
  ⟨by rw [Dict.get?_set_of_ne _ _ _ _ hkey, h.execution], h.first, h.last, h.passed⟩

theorem holds_executed (h : Holds first last passed evidence log) (output : Value) :
    Holds first output passed evidence (.executed output :: log) := by
  have hfirst := h.first
  refine ⟨h.execution, ?_, rfl, h.passed⟩
  rw [outputs_executed, List.getLast?_cons, hfirst]
  rfl

theorem holds_reviewed (h : Holds first last [] evidence log) (ok : Bool) :
    Holds first last (if ok then [last] else []) evidence (.reviewed last ok :: log) := by
  refine ⟨h.execution, h.first, h.last, ?_⟩
  rw [passedOutputs_reviewed, h.passed]

def Event.isOther : Event → Bool
  | .executed _ | .reviewed _ _ => false
  | _ => true

theorem holds_cons (h : Holds first last passed evidence log) (e : Event) (he : e.isOther = true) :
    Holds first last passed evidence (e :: log) := by
  cases e <;> first | exact ⟨h.execution, h.first, h.last, h.passed⟩ | cases he

theorem planStage_unexecuted :
    ⦃fun st => ⌜Unexecuted st.calls⌝⦄ planStage p
    ⦃post⟨fun _ st => ⌜Unexecuted st.calls⌝, fun _ _ => ⌜True⌝⟩⦄ := by
  mvcgen [planStage, assertStageOrder, transition, record, setTask, complete, call, note]

theorem confirmStage_unexecuted :
    ⦃fun st => ⌜Unexecuted st.calls⌝⦄ confirmStage p
    ⦃post⟨fun _ st => ⌜Unexecuted st.calls⌝, fun _ _ => ⌜True⌝⟩⦄ := by
  mvcgen [confirmStage, transition, record, setTask, recordStages, call, note]

theorem gateStage_unexecuted :
    ⦃fun st => ⌜Unexecuted st.calls⌝⦄ gateStage p
    ⦃post⟨fun _ st => ⌜Unexecuted st.calls⌝, fun _ _ => ⌜True⌝⟩⦄ := by
  mvcgen [gateStage, assertStageOrder, transition, record, setTask, complete, call, note]

/-- The log before the output that it now begins with. -/
def ExecutedFrom (output : Value) (log : List Event) : Prop :=
  outputs log = [output] ∧ passedOutputs log = []

theorem callExecutor_unexecuted :
    ⦃fun st => ⌜Unexecuted st.calls⌝⦄ callExecutor p
    ⦃post⟨fun output st => ⌜ExecutedFrom output st.calls⌝, fun _ st => ⌜Unexecuted st.calls⌝⟩⦄ := by
  mvcgen [callExecutor, call, note]
  grind [Unexecuted, ExecutedFrom]

/-- The attempts before the one that returns leave no output. -/
theorem executeAttempts_executed (taskId : String) (left : Nat) :
    ⦃fun st => ⌜Unexecuted st.calls⌝⦄ executeAttempts p taskId left
    ⦃post⟨fun output st => ⌜ExecutedFrom output st.calls⌝, fun _ _ => ⌜True⌝⟩⦄ := by
  induction left with
  | zero =>
    unfold executeAttempts
    mvcgen [callExecutor_unexecuted]
    grind
  | succ left ih =>
    unfold executeAttempts
    mvcgen [callExecutor_unexecuted, ih]
    grind

theorem executeStage_holds (proc : Process) :
    ⦃fun st => ⌜Unexecuted st.calls⌝⦄ executeStage p proc
    ⦃post⟨fun output st => ⌜Holds output output [] st.evidence st.calls⌝, fun _ _ => ⌜True⌝⟩⦄ := by
  mvcgen [executeStage, executeWithRetry, assertStageOrder, transition, record, setTask, complete,
    executeAttempts_executed] <;> grind [ExecutedFrom, Holds, Dict.get?_set_self]

theorem callExecutor_holds (first last : Value) :
    ⦃fun st => ⌜Holds first last [] st.evidence st.calls⌝⦄ callExecutor p
    ⦃post⟨fun output st => ⌜Holds first output [] st.evidence st.calls⌝, fun _ _ => ⌜True⌝⟩⦄ := by
  mvcgen [callExecutor, call, note]
  exact holds_executed (holds_cons ‹_› _ rfl) _

theorem holds_review (h : Holds first last [] evidence log) (ok : Bool) (attempt : Nat) (v : Value) :
    Holds first last (if ok then [last] else []) (evidence.set s!"quality_gate_attempt_{attempt}" v)
      (.reviewed last ok :: .invoked .quality :: log) :=
  holds_set (holds_reviewed (holds_cons h _ rfl) ok) _ v (attempt_key_ne attempt)

/-- A passed review is the last one, and of the last output. -/
theorem qualityAttempts_holds (gate : QualityGate) (first : Value) (left attempt : Nat) (output : Value) :
    ⦃fun st => ⌜Holds first output [] st.evidence st.calls⌝⦄ qualityAttempts p gate left attempt output
    ⦃post⟨fun ok st => ⌜ok = true → ∃ last, Holds first last [last] st.evidence st.calls⌝, fun _ _ => ⌜True⌝⟩⦄ := by
  induction left generalizing attempt output with
  | zero =>
    unfold qualityAttempts
    mvcgen [record, call, note]
    · next h _ r _ _ _ hok _ =>
      have hreviewed := holds_review h r.2 attempt (.dict [("checks", .list r.1), ("passed", .bool r.2)])
      rw [if_pos hok] at hreviewed
      exact ⟨output, holds_set hreviewed _ _ (by decide)⟩
    · intro hok
      cases hok
  | succ left ih =>
    have hrevised := callExecutor_holds (p := p) first output
    unfold qualityAttempts
    mvcgen [record, setTask, call, note, hrevised, ih]
    · next h _ r _ _ _ hok _ =>
      have hreviewed := holds_review h r.2 attempt (.dict [("checks", .list r.1), ("passed", .bool r.2)])
      rw [if_pos hok] at hreviewed
      exact ⟨output, holds_set hreviewed _ _ (by decide)⟩
    · next h _ r _ _ _ hok _ _ _ =>
      have hreviewed := holds_review h r.2 attempt (.dict [("checks", .list r.1), ("passed", .bool r.2)])
      rw [if_neg hok] at hreviewed
      exact hreviewed
    · next h _ => exact holds_set h _ _ (revision_key_ne (attempt + 1))

/-- The review of the last output passed, and the evidence has the first one. -/
def Reviewed (evidence : Dict Value) (log : List Event) : Prop := ∃ first last, Holds first last [last] evidence log

theorem reviewed_set (h : Reviewed evidence log) (key : String) (v : Value) (hkey : "execution" ≠ key) :
    Reviewed (evidence.set key v) log := by
  obtain ⟨first, last, hholds⟩ := h
  exact ⟨first, last, holds_set hholds key v hkey⟩

theorem reviewed_cons (h : Reviewed evidence log) (e : Event) (he : e.isOther = true) : Reviewed evidence (e :: log) := by
  obtain ⟨first, last, hholds⟩ := h
  exact ⟨first, last, holds_cons hholds e he⟩

theorem qualityStage_reviewed (output : Value) (gate : QualityGate) (hgate : p.qualityGate = some gate) :
    ⦃fun st => ⌜Holds output output [] st.evidence st.calls⌝⦄ qualityStage p output
    ⦃post⟨fun _ st => ⌜Reviewed st.evidence st.calls⌝, fun _ _ => ⌜True⌝⟩⦄ := by
  mvcgen [qualityStage, qualityAttempts_holds]
  · next hnone _ _ => simp [hgate] at hnone
  · next hpassed _ h => exact ⟨output, h (by simpa using hpassed)⟩

theorem validateStage_reviewed :
    ⦃fun st => ⌜Reviewed st.evidence st.calls⌝⦄ validateStage p
    ⦃post⟨fun _ st => ⌜Reviewed st.evidence st.calls⌝, fun _ _ => ⌜True⌝⟩⦄ := by
  mvcgen [validateStage, assertStageOrder, transition, record, setTask, complete, call, note]
  exact reviewed_set (reviewed_cons (reviewed_cons ‹_› _ rfl) _ rfl) _ _ (by decide)

theorem shipStage_reviewed :
    ⦃fun st => ⌜Reviewed st.evidence st.calls⌝⦄ shipStage p
    ⦃post⟨fun _ st => ⌜Reviewed st.evidence st.calls⌝, fun _ _ => ⌜True⌝⟩⦄ := by
  mvcgen [shipStage, assertStageOrder, transition, record, setTask, complete, call, note]
  exact reviewed_set (reviewed_cons (reviewed_cons ‹_› _ rfl) _ rfl) _ _ (by decide)

/-! ## The whole run -/

theorem runStages_reviewed (proc : Process) (gate : QualityGate) (hgate : p.qualityGate = some gate) :
    ⦃fun st => ⌜Unexecuted st.calls⌝⦄ runStages p proc
    ⦃post⟨fun r st => ⌜Reviewed r.evidence st.calls⌝, fun _ _ => ⌜True⌝⟩⦄ := by
  mvcgen [runStages, planStage_unexecuted, confirmStage_unexecuted, gateStage_unexecuted, executeStage_holds,
    qualityStage_reviewed, validateStage_reviewed, shipStage_reviewed, recordStages]
  exact reviewed_set ‹_› _ _ (by decide)

/-- No handler makes a success of a failure. -/
theorem handle_fails (e : PyError) :
    ⦃fun _ => ⌜True⌝⦄ handle e ⦃post⟨fun r _ => ⌜r.success = false⌝, fun _ _ => ⌜True⌝⟩⦄ := by
  mvcgen [handle, transition, tryTransition, setTask, record, recordStages, failedResult]

theorem run_reviewed (proc : Process) (gate : QualityGate) (hgate : p.qualityGate = some gate) :
    ⦃fun st => ⌜st.calls = []⌝⦄ run p proc
    ⦃post⟨fun r st => ⌜r.success = true → Reviewed r.evidence st.calls⌝, fun _ _ => ⌜True⌝⟩⦄ := by
  mvcgen [run, refuse, tryTransition, setTask, record, failedResult, runStages_reviewed, handle_fails] <;>
    grind [unexecuted_of_empty]

/-- **The delivered output passed a review just when the executor's last reply is the same as its first.** -/
theorem delivered_output_passed_iff (p : Pipeline) (proc : Process) (task : Task) (gate : QualityGate)
    (hgate : p.qualityGate = some gate) (r : PipelineResult) (hrun : (runTask p proc task).1 = .ok r)
    (hsuccess : r.success = true) :
    (∃ output, r.evidence.get? "execution" = some output ∧ .reviewed output true ∈ (runTask p proc task).2.calls) ↔
      (outputs (runTask p proc task).2.calls).head? = (outputs (runTask p proc task).2.calls).getLast? := by
  have hreviewed : Reviewed r.evidence (runTask p proc task).2.calls := by
    rcases Lib.run_of_triple (run_reviewed proc gate hgate) (s := { task }) rfl with ⟨r', hr, h⟩ | ⟨e, he, -⟩
    · cases hrun.symm.trans hr
      exact h hsuccess
    · cases hrun.symm.trans he
  obtain ⟨first, last, hexecution, hfirst, hlast, hpassed⟩ := hreviewed
  simp only [hexecution, hfirst, hlast, ← mem_passedOutputs, hpassed]
  simp [eq_comm]

def easyGate : QualityGate where
  runQualityGate _ _ _ _ := .ok []
  brainFinalReview _ _ _ := .ok true
  getRevisionInstructions _ _ := .ok (.str "again")

/-- The first output passes and is delivered. -/
theorem easyGate_delivers :
    ∃ r output, (runTask { hesitantPipeline with qualityGate := some easyGate } {}
        { id := "t", name := "", description := "", agentType := "general" }).1 = .ok r ∧
      r.evidence.get? "execution" = some output := by
  obtain ⟨output, houtput, -⟩ := (delivered_output_passed_iff { hesitantPipeline with qualityGate := some easyGate } {}
    { id := "t", name := "", description := "", agentType := "general" } easyGate rfl _ rfl rfl).mpr rfl
  exact ⟨_, output, rfl, houtput⟩

/-- The first output fails its review, the second one passes, and the first one is delivered. -/
theorem failed_output_delivered :
    ¬ ∀ (p : Pipeline) (proc : Process) (task : Task) (gate : QualityGate), p.qualityGate = some gate →
      ∀ r, (runTask p proc task).1 = .ok r → r.success = true →
        ∃ output, r.evidence.get? "execution" = some output ∧ .reviewed output true ∈ (runTask p proc task).2.calls := by
  intro h
  obtain ⟨output, hexecution, hpassed⟩ := h hesitantPipeline {}
    { id := "t", name := "", description := "", agentType := "general" } _ rfl _ rfl rfl
  have hone : output = .int 1 := Option.some.inj (hexecution.symm.trans rfl)
  subst hone
  have hmem : Value.int 1 ∈ [Value.int 2] := (mem_passedOutputs _ _).mpr hpassed
  simp at hmem

end Occp.Orchestrator
