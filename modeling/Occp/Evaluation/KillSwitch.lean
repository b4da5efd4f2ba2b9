import Occp.Errors
import Occp.Lib.Runs

/-!
# The kill switch of a process (`evaluation/kill_switch.py`)

Times, logs and metrics are left out. The current activation is the last one of the
history, and a deactivation marks both.
-/

namespace Occp.Evaluation

inductive KillSwitchState where
  | inactive
  | active
  | drill
  deriving DecidableEq

def KillSwitchState.value : KillSwitchState → String
  | inactive => "inactive"
  | active => "active"
  | drill => "drill"

inductive KillSwitchTrigger where
  | manual
  | anomaly
  | canaryFailure
  | errorSpike
  | security
  | drill
  deriving DecidableEq

def KillSwitchTrigger.value : KillSwitchTrigger → String
  | manual => "manual"
  | anomaly => "anomaly"
  | canaryFailure => "canary_failure"
  | errorSpike => "error_spike"
  | security => "security"
  | drill => "drill"

structure KillSwitchActivation where
  state : KillSwitchState
  trigger : KillSwitchTrigger
  actor : String
  reason : String
  evidence : Dict Value := []
  deactivatedBy : Option String := none
  deactivationReason : Option String := none

def optionalStr : Option String → Value
  | some s => .str s
  | none => .none

def KillSwitchActivation.toDict (a : KillSwitchActivation) : Value :=
  .dict [("state", .str a.state.value), ("trigger", .str a.trigger.value), ("actor", .str a.actor),
    ("reason", .str a.reason), ("evidence", .dict a.evidence), ("deactivated_by", optionalStr a.deactivatedBy),
    ("deactivation_reason", optionalStr a.deactivationReason)]

structure KillSwitch where
  state : KillSwitchState := .inactive
  current : Option KillSwitchActivation := none
  history : List KillSwitchActivation := []

namespace KillSwitch

def isActive (k : KillSwitch) : Bool := k.state = .active

def isDrill (k : KillSwitch) : Bool := k.state = .drill

def maxHistory : Nat := 100

/-- A record becomes the current one, and the history keeps the last hundred. -/
def flip (k : KillSwitch) (record : KillSwitchActivation) : KillSwitch :=
  let history := k.history ++ [record]
  { state := record.state, current := some record, history := history.drop (history.length - maxHistory) }

def activate (k : KillSwitch) (trigger : KillSwitchTrigger) (actor reason : String) (evidence : Dict Value) :
    KillSwitch :=
  k.flip { state := .active, trigger, actor, reason, evidence }

def drill (k : KillSwitch) (actor reason : String) (evidence : Dict Value) : KillSwitch :=
  k.flip { state := .drill, trigger := .drill, actor, reason, evidence }

def deactivate (k : KillSwitch) (actor reason : String) : Option KillSwitchActivation × KillSwitch :=
  if k.state = .inactive then (none, k)
  else
    let prev := k.current.map fun a => { a with deactivatedBy := some actor, deactivationReason := some reason }
    let history := match prev with
      | some a => k.history.dropLast ++ [a]
      | none => k.history
    (prev, { state := .inactive, current := none, history })

def reset (_ : KillSwitch) : KillSwitch := {}

def status (k : KillSwitch) : Value :=
  .dict [("state", .str k.state.value), ("is_active", .bool k.isActive), ("is_drill", .bool k.isDrill),
    ("current", (k.current.map (·.toDict)).getD .none), ("history_count", .int k.history.length),
    ("recent_history", .list ((k.history.drop (k.history.length - 10)).map (·.toDict)))]

def stats (k : KillSwitch) : Value :=
  let byTrigger : Dict Value := k.history.foldl (fun d a =>
    let count := match d.get? a.trigger.value with
      | some (.int n) => n
      | _ => 0
    d.set a.trigger.value (.int (count + 1))) []
  .dict [("total_activations", .int k.history.length), ("by_trigger", .dict byTrigger),
    ("current_state", .str k.state.value)]

/-- `require_kill_switch_inactive`. -/
def requireInactive (k : KillSwitch) : Except PyError Unit :=
  if k.isActive then
    let reason := (k.current.map (·.reason)).getD "unknown"
    let trigger := (k.current.map (·.trigger)).getD .manual
    .error (.other "KillSwitchActive" s!"Kill switch ACTIVE ({trigger.value}): {reason}")
  else .ok ()

/-! ## Every sequence of operations -/

inductive Operation where
  | activate (trigger : KillSwitchTrigger) (actor reason : String) (evidence : Dict Value)
  | drill (actor reason : String) (evidence : Dict Value)
  | deactivate (actor reason : String)
  | reset
  /-- `is_active`, `is_drill`, `state`, `current_activation`, `status` and `stats`. -/
  | read

def apply (k : KillSwitch) : Operation → KillSwitch
  | .activate trigger actor reason evidence => k.activate trigger actor reason evidence
  | .drill actor reason evidence => k.drill actor reason evidence
  | .deactivate actor reason => (k.deactivate actor reason).2
  | .reset => k.reset
  | .read => k

def Operation.isDrill : Operation → Bool
  | .drill .. => true
  | _ => false

/-- What a human does to end the stop. -/
def Operation.isClearing : Operation → Bool
  | .deactivate .. | .reset => true
  | _ => false

/-- The stop is in force, and the guard at an entry point raises. -/
structure Stops (k : KillSwitch) : Prop where
  active : k.isActive = true
  raises : ∃ message, k.requireInactive = .error (.other "KillSwitchActive" message)

theorem stops_iff (k : KillSwitch) : Stops k ↔ k.isActive = true := by
  refine ⟨Stops.active, fun h => ⟨h, ?_⟩⟩
  unfold requireInactive
  rw [if_pos h]
  exact ⟨_, rfl⟩

theorem stops_activate (k : KillSwitch) (trigger : KillSwitchTrigger) (actor reason : String) (evidence : Dict Value) :
    Stops (k.activate trigger actor reason evidence) := (stops_iff _).mpr rfl

/-- Of what does not clear the switch, only a drill ends the stop. -/
theorem stops_apply_iff {k : KillSwitch} (h : Stops k) {op : Operation} (hop : op.isClearing = false) :
    Stops (k.apply op) ↔ op.isDrill = false := by
  cases op with
  | activate trigger actor reason evidence => exact iff_of_true (stops_activate ..) rfl
  | drill actor reason evidence =>
    refine iff_of_false (fun hstops => ?_) (fun h => ?_)
    · have hactive := hstops.active
      cases hactive
    · cases h
  | deactivate actor reason => cases hop
  | reset => cases hop
  | read => exact iff_of_true h rfl

/-- **The switch stays on exactly when no drill comes after its activation.** -/
theorem stays_on_iff (k : KillSwitch) (trigger : KillSwitchTrigger) (actor reason : String) (evidence : Dict Value)
    (ops : List Operation) (hops : ∀ op ∈ ops, op.isClearing = false) :
    (∀ before after, ops = before ++ after →
        Stops (Lib.run apply (k.activate trigger actor reason evidence) before)) ↔
      ∀ op ∈ ops, op.isDrill = false := by
  generalize hon : k.activate trigger actor reason evidence = on
  have hstops : Stops on := hon ▸ stops_activate k trigger actor reason evidence
  clear hon
  induction ops generalizing on with
  | nil =>
    refine iff_of_true (fun before after hsplit => ?_) nofun
    obtain ⟨rfl, -⟩ := List.append_eq_nil_iff.mp hsplit.symm
    exact hstops
  | cons op ops ih =>
    have hstep := stops_apply_iff hstops (hops op List.mem_cons_self)
    have hrest (op' : Operation) (hop' : op' ∈ ops) := hops op' (List.mem_cons_of_mem _ hop')
    rw [List.forall_mem_cons, ← hstep]
    constructor
    · intro h
      have hnext : Stops (on.apply op) := h [op] ops rfl
      refine ⟨hnext, (ih hrest (on.apply op) hnext).mp fun before after hsplit => ?_⟩
      exact h (op :: before) after (by rw [hsplit, List.cons_append])
    · rintro ⟨hnext, hdrills⟩ before after hsplit
      cases before with
      | nil => exact hstops
      | cons first before =>
        rw [List.cons_append, List.cons.injEq] at hsplit
        obtain ⟨rfl, hsplit⟩ := hsplit
        exact (ih hrest (on.apply op) hnext).mpr hdrills before after hsplit

/-- A second activation keeps the switch on. -/
theorem activated_twice_stays_on :
    Stops (Lib.run apply (activate {} .manual "h" "stop" []) [.read, .activate .security "a" "r" []]) :=
  (stays_on_iff {} .manual "h" "stop" [] [.read, .activate .security "a" "r" []]
    (by simp [Operation.isClearing])).mpr (by simp [Operation.isDrill]) _ [] rfl

/-- A drill is documented not to stop production; it also lets a stopped one go on. -/
theorem drill_ends_the_stop :
    let k := Lib.run apply (activate {} .manual "h" "stop" []) [.drill "h" "test" []]
    k.isActive = false ∧ k.requireInactive = .ok () := by
  decide

end KillSwitch

end Occp.Evaluation
