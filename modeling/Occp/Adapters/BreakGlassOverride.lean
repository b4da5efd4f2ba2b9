import Occp.Adapters.PolicyGate
import Occp.Policy.AuditChain
import Occp.Security.BreakGlassApprovals
import Occp.Security.BreakGlassAudit

/-!
# Break-glass overrides of the gate

A session interleaves the calls of the protocol with actions at the gate, in any order. Whatever the gate lets through
was allowed by the policy and the trust levels, or is covered by a token that others approved.
-/

namespace Occp.Adapters

open Lib Policy Security

structure GateSession where
  protocol : BreakGlassProtocol
  gate : PolicyGate := {}

inductive GateEvent where
  | token (call : BreakGlassCall)
  | gateAction (call : GateCall) (withProtocol : Bool) (m : GateMoment)

/-- The calls that reach the protocol. -/
def tokenCalls (events : List GateEvent) : List BreakGlassCall :=
  events.filterMap fun
    | .token call => some call
    | .gateAction .. => none

/-- The token was requested in the calls, for at most an hour that is not over; enough others approved it since then,
and nobody revoked it. -/
def IndependentlyApproved (required maxDuration : Int) (approvers : List String) (calls : List BreakGlassCall)
    (tokenId : String) (token : BreakGlassToken) (now : Int) : Prop :=
  ∃ before requestedAt requester reason minutes after,
    calls = before ++ .request requestedAt tokenId requester token.scope reason minutes :: after ∧
    token.approvedBy.Nodup ∧ required ≤ token.approvedBy.length ∧
    (∀ approver ∈ token.approvedBy, approver ≠ requester ∧ (approvers ≠ [] → approver ∈ approvers) ∧
      ∃ approvedAt, .approve approvedAt tokenId approver ∈ after) ∧
    (∀ revokedAt revokedBy, .revoke revokedAt tokenId revokedBy ∉ after) ∧
    min minutes maxDuration ≤ 60 ∧ now < requestedAt + min minutes maxDuration * 60000000 ∧
    (∀ approvedAt approver, .approve approvedAt tokenId approver ∈ after → requestedAt ≤ approvedAt →
      now - approvedAt < min minutes maxDuration * 60000000)

namespace GateSession

variable (lib : BreakGlassLib) (py : PyLib)

/-- The protocol that an action is given. -/
def given (s : GateSession) (withProtocol : Bool) : Option BreakGlassProtocol := if withProtocol then some s.protocol else none

def step (s : GateSession) : GateEvent → GateSession
  | .token call => { s with protocol := s.protocol.step lib call }
  | .gateAction call withProtocol m => { s with gate := (s.gate.gateAction py (s.given withProtocol) call m).2 }

variable {lib py}

/-- Actions at the gate leave the tokens alone. -/
theorem protocol_run (s : GateSession) (events : List GateEvent) :
    (run (step lib py) s events).protocol = run (BreakGlassProtocol.step lib) s.protocol (tokenCalls events) := by
  induction events generalizing s with
  | nil => rfl
  | cons event events ih =>
    rw [run_cons, ih]
    cases event <;> rfl

theorem independentlyApproved_of_backed {p : BreakGlassProtocol} {required maxDuration : Int} {approvers : List String}
    (hnew : BreakGlassProtocol.new required maxDuration approvers = .ok p) {calls : List BreakGlassCall} {tokenId : String}
    {token : BreakGlassToken} {now : Int} (hbacked : Backed p calls tokenId token) (hactive : token.isActive now = true) :
    IndependentlyApproved required maxDuration approvers calls tokenId token now := by
  obtain ⟨hrequired, -, hmax, rfl⟩ := BreakGlassProtocol.new_eq_ok hnew
  obtain ⟨before, requestedAt, minutes, after, hcalls, ho⟩ := hbacked
  have hexpires := ho.expiresAt
  have hneeded := ho.requiredApprovals
  simp only at hexpires hneeded
  unfold BreakGlassProtocol.maxDurationMinutes at hmax
  simp [BreakGlassToken.isActive, BreakGlassToken.isApproved, BreakGlassToken.isExpired] at hactive
  obtain ⟨⟨henough, hlive⟩, hrevoked⟩ := hactive
  refine ⟨before, requestedAt, token.requestedBy, token.reason, minutes, after, hcalls, ho.nodup, ?_, ?_,
    ho.unrevoked hrevoked, ?_, ?_, ?_⟩
  · omega
  · intro approver happrover
    exact ⟨ho.independent approver happrover, fun hlist => ho.authorized hlist approver happrover,
      ho.approved approver happrover⟩
  · omega
  · omega
  · intro approvedAt approver _ hlater
    omega

/-- **A token in force has independent approval, and the gate lets through only what is allowed or covered by one.** -/
theorem override_independently_approved {p : BreakGlassProtocol} {required maxDuration : Int} {approvers : List String}
    (hnew : BreakGlassProtocol.new required maxDuration approvers = .ok p) (gate : PolicyGate) (events : List GateEvent) :
    (∀ tokenId token now, (run (step lib py) ⟨p, gate⟩ events).protocol.tokens.get? tokenId = some token →
      token.isActive now = true →
      IndependentlyApproved required maxDuration approvers (tokenCalls events) tokenId token now) ∧
    (∀ call withProtocol m,
      ((run (step lib py) ⟨p, gate⟩ events).gate.gateAction py ((run (step lib py) ⟨p, gate⟩ events).given withProtocol)
        call m).1.allowed = true →
      (((run (step lib py) ⟨p, gate⟩ events).gate.trustCheck call).allowed = true ∧
          (run (step lib py) ⟨p, gate⟩ events).gate.PolicyApproves py call m) ∨
        ∃ token, (run (step lib py) ⟨p, gate⟩ events).protocol.tokens.get? call.breakGlassTokenId = some token ∧
          token.isActive m.now = true ∧ (token.scope = call.action ∨ token.scope = "*")) := by
  constructor
  · intro tokenId token now hget hactive
    rw [protocol_run] at hget
    exact independentlyApproved_of_backed hnew ((BreakGlassProtocol.sound_run hnew (tokenCalls events)).backed tokenId token hget)
      hactive
  · intro call withProtocol m hallowed
    rcases PolicyGate.gateAction_allowed_iff.mp hallowed with happroved | ⟨hoverride, -⟩
    · exact .inl happroved
    · obtain ⟨-, protocol, token, hgiven, hget, hactive, hscope⟩ := PolicyGate.overrides_eq_true.mp hoverride
      right
      unfold given at hgiven
      split at hgiven
      · cases hgiven
        exact ⟨token, hget, hactive, hscope⟩
      · cases hgiven

/-! ## A sample -/

/-- A task that the policy holds up, and an action that only a token lets through. -/
def sampleCall : GateCall where
  agentId := "agent-1"
  trustLevel := .l2Supervised
  action := "deploy"
  toolCategory := "execute"
  task := { id := "task-1", name := "deploy", description := "", agentType := "ops" }
  breakGlassTokenId := "t1"

def sampleEvents : List GateEvent :=
  [.token (.request 0 "t1" "henry" "deploy" "outage" 90), .token (.approve 60000000 "t1" "henry"),
    .token (.approve 120000000 "t1" "ines"), .gateAction sampleCall true ⟨180000000, 180000000, "e1", "00:03:00"⟩,
    .token (.approve 240000000 "t1" "jonas")]

def sampleToken : BreakGlassToken :=
  { tokenId := "t1", requestedBy := "henry", scope := "deploy", reason := "outage", createdAt := 0, expiresAt := 3600000000
    durationMinutes := 60, requiredApprovals := 2, approvedBy := ["ines", "jonas"] }

theorem sample_token_approved :
    IndependentlyApproved 2 60 ["ines", "jonas", "kim"] (tokenCalls sampleEvents) "t1" sampleToken 3000000000 :=
  (@override_independently_approved BreakGlassProtocol.sampleLib sampleLib _ 2 60 ["ines", "jonas", "kim"] rfl {}
    sampleEvents).1 "t1" sampleToken 3000000000 rfl (by decide)

end GateSession

end Occp.Adapters
