import Mathlib
import Occp.Lib.Triple
import Occp.Orchestrator.Pipeline

/-!
# Stages run in order, and nothing unapproved ships

Every triple below is about the call log alone. A stage that is entered with a
log that is ready for it either raises, or leaves a log ready for the next one.
-/

open Std.Do

set_option mvcgen.warning false

namespace Occp.Orchestrator

/-! ## The order -/

def Stage.index : Stage → Nat
  | .plan => 0
  | .confirm => 1
  | .gate => 2
  | .execute => 3
  | .quality => 4
  | .validate => 5
  | .ship => 6

/-- The configured stage that comes right before. -/
def Stage.predecessor (p : Pipeline) : Stage → Option Stage
  | .plan => none
  | .confirm => some .plan
  | .gate => some (if p.confirmationGate.isSome then .confirm else .plan)
  | .execute => some .gate
  | .quality => some .execute
  | .validate => some (if p.qualityGate.isSome then .quality else .execute)
  | .ship => some .validate

namespace Event

/-- The stage that an event is the return of. -/
def returnOf : Event → Option Stage
  | invoked _ => none
  | planned _ => some .plan
  | confirmed _ => some .confirm
  | gated _ => some .gate
  | executed _ => some .execute
  | reviewed _ _ => some .quality
  | validated _ => some .validate
  | shipped _ => some .ship
  | raised _ _ => none

def isInvoked : Event → Bool
  | invoked _ => true
  | _ => false

end Event

/-- The stage has returned, and with a reply that lets the run go on. -/
def Passed (p : Pipeline) (log : List Event) : Stage → Prop
  | .plan => ∃ plan, .planned plan ∈ log
  | .confirm => p.confirmationGate.isSome → .confirmed .approved ∈ log ∨ .confirmed .autoApproved ∈ log
  | .gate => .gated true ∈ log
  | .execute => ∃ output, .executed output ∈ log
  | .quality => p.qualityGate.isSome → ∃ output, .reviewed output true ∈ log
  | .validate => .validated [] ∈ log
  | .ship => ∃ output, .shipped output ∈ log

def PassedBelow (p : Pipeline) (n : Nat) (log : List Event) : Prop :=
  ∀ s : Stage, s.index < n → Passed p log s

/-- Every invocation in the log found all earlier stages passed. -/
def InOrder (p : Pipeline) : List Event → Prop
  | [] => True
  | .invoked s :: before => PassedBelow p s.index before ∧ InOrder p before
  | _ :: before => InOrder p before

/-- The log is in order, and stage number `n` may be invoked. -/
def Ready (p : Pipeline) (n : Nat) (log : List Event) : Prop := InOrder p log ∧ PassedBelow p n log

variable {p : Pipeline} {log : List Event}

theorem passed_cons (e : Event) (s : Stage) (h : Passed p log s) : Passed p (e :: log) s := by
  cases s with
  | plan | execute | ship =>
    obtain ⟨v, hv⟩ := h
    exact ⟨v, List.mem_cons_of_mem _ hv⟩
  | confirm => exact fun hc => (h hc).imp (List.mem_cons_of_mem _) (List.mem_cons_of_mem _)
  | gate | validate => exact List.mem_cons_of_mem _ h
  | quality =>
    intro hq
    obtain ⟨v, hv⟩ := h hq
    exact ⟨v, List.mem_cons_of_mem _ hv⟩

theorem passedBelow_cons (e : Event) (n : Nat) (h : PassedBelow p n log) : PassedBelow p n (e :: log) :=
  fun s hs => passed_cons e s (h s hs)

theorem inOrder_cons (e : Event) (he : e.isInvoked = false) : InOrder p (e :: log) ↔ InOrder p log := by
  cases e <;> first | rfl | simp [Event.isInvoked] at he

theorem ready_cons (e : Event) (he : e.isInvoked = false) (n : Nat) (h : Ready p n log) :
    Ready p n (e :: log) :=
  ⟨(inOrder_cons e he).mpr h.1, passedBelow_cons e n h.2⟩

theorem ready_invoked (s : Stage) (h : Ready p s.index log) : Ready p s.index (.invoked s :: log) :=
  ⟨⟨h.2, h.1⟩, passedBelow_cons _ _ h.2⟩

theorem index_injective (s q : Stage) (h : s.index = q.index) : s = q := by
  cases s <;> cases q <;> simp_all [Stage.index]

theorem ready_next (s : Stage) (h : Ready p s.index log) (hs : Passed p log s) :
    Ready p (s.index + 1) log := by
  refine ⟨h.1, fun q hq => ?_⟩
  rcases Nat.lt_succ_iff_lt_or_eq.mp hq with hlt | heq
  · exact h.2 q hlt
  · rw [index_injective q s heq]
    exact hs

theorem ready_mono (n m : Nat) (hnm : n ≤ m) (h : Ready p m log) : Ready p n log :=
  ⟨h.1, fun s hs => h.2 s (by omega)⟩

/-! ## One spec per stage -/

theorem call_spec {α : Type} (s : Stage) (reply : Except PyError α) (returned : α → Event)
    (hret : ∀ a, (returned a).isInvoked = false) :
    ⦃fun st => ⌜Ready p s.index st.calls⌝⦄ call s reply returned
    ⦃post⟨fun a st => ⌜Ready p s.index st.calls ∧ returned a ∈ st.calls⌝,
      fun _ st => ⌜Ready p s.index st.calls⌝⟩⦄ := by
  mvcgen [call, note]
  · next h _ a _ _ => exact ⟨ready_cons _ (hret a) _ (ready_invoked s h), List.mem_cons_self⟩
  · next h _ e _ _ => exact ready_cons _ rfl _ (ready_invoked s h)

attribute [local spec] call_spec

theorem planStage_spec :
    ⦃fun st => ⌜Ready p 0 st.calls⌝⦄ planStage p
    ⦃post⟨fun _ st => ⌜Ready p 1 st.calls⌝, fun _ st => ⌜InOrder p st.calls⌝⟩⦄ := by
  mvcgen [planStage, assertStageOrder, transition, record, setTask, complete] <;>
    grind [ready_next, Ready, Passed, Stage.index, Event.isInvoked]

theorem confirmStage_spec :
    ⦃fun st => ⌜Ready p 1 st.calls⌝⦄ confirmStage p
    ⦃post⟨fun _ st => ⌜Ready p 2 st.calls⌝, fun _ st => ⌜InOrder p st.calls⌝⟩⦄ := by
  mvcgen [confirmStage, transition, record, setTask, recordStages] <;>
    grind [ready_next, Ready, Passed, Stage.index, Event.isInvoked]

theorem gateStage_spec :
    ⦃fun st => ⌜Ready p 2 st.calls⌝⦄ gateStage p
    ⦃post⟨fun _ st => ⌜Ready p 3 st.calls⌝, fun _ st => ⌜InOrder p st.calls⌝⟩⦄ := by
  mvcgen [gateStage, assertStageOrder, transition, record, setTask, complete] <;>
    grind [ready_next, Ready, Passed, Stage.index, Event.isInvoked]

theorem callExecutor_spec :
    ⦃fun st => ⌜Ready p 3 st.calls⌝⦄ callExecutor p
    ⦃post⟨fun _ st => ⌜Ready p 4 st.calls⌝, fun _ st => ⌜Ready p 3 st.calls⌝⟩⦄ := by
  mvcgen [callExecutor] <;> grind [ready_next, Passed, Stage.index, Event.isInvoked]

/-- A failed attempt leaves the log ready for the next one. -/
theorem executeAttempts_spec (taskId : String) (left : Nat) :
    ⦃fun st => ⌜Ready p 3 st.calls⌝⦄ executeAttempts p taskId left
    ⦃post⟨fun _ st => ⌜Ready p 4 st.calls⌝, fun _ st => ⌜Ready p 3 st.calls⌝⟩⦄ := by
  induction left with
  | zero => mvcgen [executeAttempts, callExecutor_spec]; exact id
  | succ left ih => mvcgen [executeAttempts, callExecutor_spec, ih]; exact id

theorem executeStage_spec (proc : Process) :
    ⦃fun st => ⌜Ready p 3 st.calls⌝⦄ executeStage p proc
    ⦃post⟨fun _ st => ⌜Ready p 4 st.calls⌝, fun _ st => ⌜InOrder p st.calls⌝⟩⦄ := by
  mvcgen [executeStage, executeWithRetry, assertStageOrder, transition, record, setTask, complete,
    executeAttempts_spec] <;>
    grind [Ready]

/-- The loop ends with a review that passed, or without one. -/
theorem qualityAttempts_spec (gate : QualityGate) (left attempt : Nat) (output : Value) :
    ⦃fun st => ⌜Ready p 4 st.calls⌝⦄ qualityAttempts p gate left attempt output
    ⦃post⟨fun passed st => ⌜InOrder p st.calls ∧ (passed = true → Ready p 5 st.calls)⌝,
      fun _ st => ⌜InOrder p st.calls⌝⟩⦄ := by
  have hpass (log : List Event) (out : Value) (h : Ready p 4 log) (hm : .reviewed out true ∈ log) :
      Ready p 5 log := ready_next .quality h fun _ => ⟨out, hm⟩
  have hrevise (log : List Event) (h : Ready p 4 log) : Ready p 3 log := ready_mono 3 4 (by omega) h
  induction left generalizing attempt output with
  | zero =>
    unfold qualityAttempts
    mvcgen [record] <;> grind [Ready, Stage.index, Event.isInvoked]
  | succ left ih =>
    unfold qualityAttempts
    mvcgen [record, note, setTask, callExecutor_spec, ih] <;> grind [Ready, Stage.index, Event.isInvoked, inOrder_cons]

theorem qualityStage_spec (output : Value) :
    ⦃fun st => ⌜Ready p 4 st.calls⌝⦄ qualityStage p output
    ⦃post⟨fun _ st => ⌜Ready p 5 st.calls⌝, fun _ st => ⌜InOrder p st.calls⌝⟩⦄ := by
  mvcgen [qualityStage, qualityAttempts_spec] <;> grind [ready_next, Ready, Passed, Stage.index]

theorem validateStage_spec :
    ⦃fun st => ⌜Ready p 5 st.calls⌝⦄ validateStage p
    ⦃post⟨fun _ st => ⌜Ready p 6 st.calls⌝, fun _ st => ⌜InOrder p st.calls⌝⟩⦄ := by
  mvcgen [validateStage, assertStageOrder, transition, record, setTask, complete] <;>
    grind [ready_next, Ready, Passed, Stage.index, Event.isInvoked]

theorem shipStage_spec :
    ⦃fun st => ⌜Ready p 6 st.calls⌝⦄ shipStage p
    ⦃post⟨fun _ st => ⌜InOrder p st.calls⌝, fun _ st => ⌜InOrder p st.calls⌝⟩⦄ := by
  mvcgen [shipStage, assertStageOrder, transition, record, setTask, complete] <;>
    grind [Ready, Stage.index, Event.isInvoked]

/-! ## The whole run -/

theorem runStages_spec (proc : Process) :
    ⦃fun st => ⌜Ready p 0 st.calls⌝⦄ runStages p proc
    ⦃post⟨fun _ st => ⌜InOrder p st.calls⌝, fun _ st => ⌜InOrder p st.calls⌝⟩⦄ := by
  mvcgen [runStages, planStage_spec, confirmStage_spec, gateStage_spec, executeStage_spec, qualityStage_spec,
    validateStage_spec, shipStage_spec, recordStages]

/-- No handler calls an adapter. -/
theorem handle_spec (e : PyError) :
    ⦃fun st => ⌜InOrder p st.calls⌝⦄ handle e
    ⦃post⟨fun _ st => ⌜InOrder p st.calls⌝, fun _ st => ⌜InOrder p st.calls⌝⟩⦄ := by
  mvcgen [handle, transition, tryTransition, setTask, record, recordStages, failedResult]

theorem inOrder_of_empty (h : log = []) : InOrder p log := h ▸ trivial

theorem ready_of_empty (h : log = []) : Ready p 0 log :=
  ⟨inOrder_of_empty h, fun _ hs => absurd hs (Nat.not_lt_zero _)⟩

theorem run_spec (proc : Process) :
    ⦃fun st => ⌜st.calls = []⌝⦄ run p proc
    ⦃post⟨fun _ st => ⌜InOrder p st.calls⌝, fun _ st => ⌜InOrder p st.calls⌝⟩⦄ := by
  mvcgen [run, refuse, tryTransition, setTask, record, failedResult, runStages_spec, handle_spec] <;>
    first
      | exact id
      | exact inOrder_of_empty ‹_›
      | exact ready_of_empty ‹_›

theorem runTask_inOrder (proc : Process) (task : Task) : InOrder p (runTask p proc task).2.calls := by
  rcases Lib.run_of_triple (run_spec (p := p) proc) (s := { task }) rfl with ⟨_, _, h⟩ | ⟨_, _, h⟩ <;> exact h

/-- In order, at every invocation and not just at the last one. -/
theorem inOrder_append (after before : List Event) (h : InOrder p (after ++ before)) : InOrder p before := by
  induction after with
  | nil => exact h
  | cons e after ih =>
    cases e with
    | invoked s => exact ih h.2
    | _ => exact ih h

theorem predecessor_index (s q : Stage) (h : s.predecessor p = some q) : q.index < s.index := by
  cases s <;> grind [Stage.predecessor, Stage.index]

/-- A stage that passed has returned. The two gates may be absent, but then no stage waits for them. -/
theorem passed_returned (s q : Stage) (hpred : s.predecessor p = some q) (h : Passed p log q) :
    ∃ e ∈ log, e.returnOf = some q := by
  cases q with
  | plan | execute | ship =>
    obtain ⟨v, hv⟩ := h
    exact ⟨_, hv, rfl⟩
  | confirm =>
    have hc : p.confirmationGate.isSome := by cases s <;> grind [Stage.predecessor]
    rcases h hc with h | h <;> exact ⟨_, h, rfl⟩
  | gate | validate => exact ⟨_, h, rfl⟩
  | quality =>
    have hq : p.qualityGate.isSome := by cases s <;> grind [Stage.predecessor]
    obtain ⟨v, hv⟩ := h hq
    exact ⟨_, hv, rfl⟩

/-- What the log holds before the shipper is invoked. -/
structure ShipAllowed (p : Pipeline) (before : List Event) : Prop where
  planned : ∃ plan, .planned plan ∈ before
  confirmed : p.confirmationGate.isSome → .confirmed .approved ∈ before ∨ .confirmed .autoApproved ∈ before
  gated : .gated true ∈ before
  executed : ∃ output, .executed output ∈ before
  reviewed : p.qualityGate.isSome → ∃ output, .reviewed output true ∈ before
  validated : .validated [] ∈ before

theorem shipAllowed_of_passedBelow (h : PassedBelow p Stage.ship.index log) : ShipAllowed p log where
  planned := h .plan (by decide)
  confirmed := h .confirm (by decide)
  gated := h .gate (by decide)
  executed := h .execute (by decide)
  reviewed := h .quality (by decide)
  validated := h .validate (by decide)

/-- **Nothing is invoked out of order, and nothing unapproved ships.** -/
theorem invoked_in_order (p : Pipeline) (proc : Process) (task : Task) (after before : List Event) (s : Stage)
    (h : (runTask p proc task).2.calls = after ++ .invoked s :: before) :
    (∀ q, s.predecessor p = some q → ∃ e ∈ before, e.returnOf = some q) ∧
      (s = .ship → ShipAllowed p before) := by
  have horder : InOrder p (.invoked s :: before) :=
    inOrder_append after _ (h ▸ runTask_inOrder proc task)
  have hbelow : PassedBelow p s.index before := horder.1
  refine ⟨fun q hq => ?_, fun hs => ?_⟩
  · exact passed_returned s q hq (hbelow q (predecessor_index s q hq))
  · subst hs
    exact shipAllowed_of_passedBelow hbelow

/-- The first execution times out and the first output fails its review. -/
def hesitantPipeline : Pipeline where
  planner _ := .ok (.str "plan")
  policyEngine _ := .ok { approved := true, reason := "ok" }
  executor n _ := if n = 0 then .error (.other "TimeoutError" "") else .ok (.int n)
  validator _ := .ok []
  shipper _ := .ok (.str "shipped")
  executeRetries := 1
  confirmationGate := some fun _ => .ok .autoApproved
  qualityGate := some {
    runQualityGate := fun _ _ _ _ => .ok []
    brainFinalReview := fun attempt _ _ => .ok (attempt = 1)
    getRevisionInstructions := fun _ _ => .ok (.str "again") }

theorem hesitantPipeline_ships_in_order :
    (∃ e ∈ [Event.validated [], .invoked .validate, .reviewed (.int 2) true, .invoked .quality,
        .executed (.int 2), .invoked .execute, .reviewed (.int 1) false, .invoked .quality, .executed (.int 1),
        .invoked .execute, .raised .execute (.other "TimeoutError" ""), .invoked .execute, .gated true,
        .invoked .gate, .confirmed .autoApproved, .invoked .confirm, .planned (.str "plan"), .invoked .plan],
      e.returnOf = some .validate) :=
  (invoked_in_order hesitantPipeline {} { id := "t", name := "", description := "", agentType := "general" }
    [.shipped (.str "shipped")] _ .ship rfl).1 .validate rfl

end Occp.Orchestrator
