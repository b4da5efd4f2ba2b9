import Occp.Policy.Engine
import Occp.Policy.TrustLevels
import Occp.Security.BreakGlass

/-!
# The universal gate (`adapters/policy_gate.py`)

An action passes the trust levels, then the policy engine. A break-glass token overrides either, but not an
engine that raises.
-/

namespace Occp.Adapters

open Policy Security

structure GateDecision where
  allowed : Bool
  reason : String := ""
  gateResult : Option GateResult := none
  trustCheck : Option TrustCheckResult := none
  breakGlassTokenId : String := ""
  bypassedViaBreakGlass : Bool := false
  checksPerformed : List String := []

/-- The arguments of `gate_action`, but for the protocol. -/
structure GateCall extends TrustRequest where
  task : Task
  breakGlassTokenId : String := ""

/-- What a call reads from the clock, and the defaults of the engine's audit entry. -/
structure GateMoment where
  now : Int
  timeOfDay : Nat
  entryId : String
  timestamp : String

structure PolicyGate where
  engine : PolicyEngine := {}
  trustEnforcer : TrustEnforcer := {}
  evaluationCount : Nat := 0
  bypassAttempts : Nat := 0

/-- The token that the call names covers its action. -/
def overrides (breakGlassProtocol : Option BreakGlassProtocol) (call : GateCall) (now : Int) : Bool :=
  match breakGlassProtocol with
  | some protocol => call.breakGlassTokenId ≠ "" && protocol.checkScope now call.breakGlassTokenId call.action
  | none => false

namespace PolicyGate

variable (py : PyLib) (gate : PolicyGate) (breakGlassProtocol : Option BreakGlassProtocol) (call : GateCall) (m : GateMoment)

def trustCheck : TrustCheckResult := gate.trustEnforcer.checkAction call.toTrustRequest

def evaluate : Except PyError (GateResult × PolicyEngine) :=
  gate.engine.evaluate py call.task m.timeOfDay m.entryId m.timestamp

def gateAction : GateDecision × PolicyGate :=
  let gate := { gate with evaluationCount := gate.evaluationCount + 1 }
  let denied := { gate with bypassAttempts := gate.bypassAttempts + 1 }
  let trustResult := gate.trustCheck call
  if !trustResult.allowed then
    if overrides breakGlassProtocol call m.now then
      ({ allowed := true, trustCheck := some trustResult, breakGlassTokenId := call.breakGlassTokenId
         bypassedViaBreakGlass := true, checksPerformed := ["trust_level", "break_glass_override"] }, gate)
    else
      ({ allowed := false, reason := trustResult.reason, trustCheck := some trustResult
         checksPerformed := ["trust_level"] }, denied)
  else
    match gate.evaluate py call m with
    | .error exc =>
      -- no override here: an engine that raises denies
      ({ allowed := false, reason := "Policy engine error: " ++ exc.str, trustCheck := some trustResult
         checksPerformed := ["trust_level"] }, denied)
    | .ok (gateResult, engine) =>
      if !gateResult.approved then
        if overrides breakGlassProtocol call m.now then
          ({ allowed := true, gateResult := some gateResult, trustCheck := some trustResult
             breakGlassTokenId := call.breakGlassTokenId, bypassedViaBreakGlass := true
             checksPerformed := ["trust_level", "policy_engine", "break_glass_override"] }, { gate with engine })
        else
          ({ allowed := false, reason := gateResult.reason, gateResult := some gateResult, trustCheck := some trustResult
             checksPerformed := ["trust_level", "policy_engine"] }, { denied with engine })
      else
        ({ allowed := true, gateResult := some gateResult, trustCheck := some trustResult
           checksPerformed := ["trust_level", "policy_engine"] }, { gate with engine })

/-- The policy engine answers, and approves. -/
def PolicyApproves : Prop := ∃ result engine, gate.evaluate py call m = .ok (result, engine) ∧ result.approved = true

/-- The policy engine answers, and does not approve. -/
def PolicyObjects : Prop := ∃ result engine, gate.evaluate py call m = .ok (result, engine) ∧ result.approved = false

variable {py gate breakGlassProtocol call m}

theorem overrides_eq_true {now : Int} :
    overrides breakGlassProtocol call now = true ↔ call.breakGlassTokenId ≠ "" ∧
      ∃ protocol token, breakGlassProtocol = some protocol ∧ protocol.tokens.get? call.breakGlassTokenId = some token ∧
        token.isActive now = true ∧ (token.scope = call.action ∨ token.scope = "*") := by
  unfold overrides
  cases breakGlassProtocol with
  | none => simp
  | some protocol =>
    unfold BreakGlassProtocol.checkScope
    cases hget : protocol.tokens.get? call.breakGlassTokenId with
    | none => simp [hget]
    | some token => simp [hget]

/-- **What the gate lets through.** -/
theorem gateAction_allowed_iff :
    (gate.gateAction py breakGlassProtocol call m).1.allowed = true ↔
      ((gate.trustCheck call).allowed = true ∧ gate.PolicyApproves py call m) ∨
        (overrides breakGlassProtocol call m.now = true ∧
          ((gate.trustCheck call).allowed = false ∨ gate.PolicyObjects py call m)) := by
  have htrust : ({ gate with evaluationCount := gate.evaluationCount + 1 } : PolicyGate).trustCheck call = gate.trustCheck call := rfl
  have hevaluate : ({ gate with evaluationCount := gate.evaluationCount + 1 } : PolicyGate).evaluate py call m =
      gate.evaluate py call m := rfl
  unfold gateAction PolicyApproves PolicyObjects
  dsimp only
  rw [htrust, hevaluate]
  by_cases hallowed : (gate.trustCheck call).allowed = true
  · cases hresult : gate.evaluate py call m with
    | error exc => simp [hallowed]
    | ok answer =>
      obtain ⟨result, engine⟩ := answer
      by_cases happroved : result.approved = true
      · simp [hallowed, happroved]
      · by_cases hoverride : overrides breakGlassProtocol call m.now = true <;> simp [hallowed, happroved, hoverride]
  · by_cases hoverride : overrides breakGlassProtocol call m.now = true <;> simp [hallowed, hoverride]

end PolicyGate

end Occp.Adapters
