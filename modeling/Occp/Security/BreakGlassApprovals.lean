import Mathlib.Data.List.Induction
import Occp.Security.BreakGlass

/-!
# What stands behind a break-glass token

Every token that the protocol holds was requested by one of the calls; each of its approvals is a later call, by one
who may approve. The invariant relates the tokens to the calls so far.
-/

namespace Occp.Security

open Occp.Lib

/-- The call that requested a token, and what the calls after it did to the token. -/
structure Origin (p : BreakGlassProtocol) (tokenId : String) (token : BreakGlassToken) (requestedAt minutes : Int)
    (after : List BreakGlassCall) : Prop where
  expiresAt : token.expiresAt = requestedAt + min minutes p.maxDuration * 60000000
  requiredApprovals : token.requiredApprovals = p.requiredApprovals
  nodup : token.approvedBy.Nodup
  independent : ∀ approver ∈ token.approvedBy, approver ≠ token.requestedBy
  authorized : p.authorizedApprovers ≠ [] → ∀ approver ∈ token.approvedBy, approver ∈ p.authorizedApprovers
  approved : ∀ approver ∈ token.approvedBy, ∃ approvedAt, .approve approvedAt tokenId approver ∈ after
  unrevoked : token.revoked = false → ∀ revokedAt revokedBy, .revoke revokedAt tokenId revokedBy ∉ after

/-- Requested by one of the calls. -/
def Backed (p : BreakGlassProtocol) (calls : List BreakGlassCall) (tokenId : String) (token : BreakGlassToken) : Prop :=
  ∃ before requestedAt minutes after,
    calls = before ++ .request requestedAt tokenId token.requestedBy token.scope token.reason minutes :: after ∧
      Origin p tokenId token requestedAt minutes after

variable {p : BreakGlassProtocol} {calls : List BreakGlassCall} {tokenId : String} {token : BreakGlassToken}

/-- A call that does not revoke the token leaves it as it stands. -/
theorem Origin.concat {requestedAt minutes : Int} {after : List BreakGlassCall}
    (h : Origin p tokenId token requestedAt minutes after) (call : BreakGlassCall)
    (hcall : ∀ revokedAt revokedBy, call = .revoke revokedAt tokenId revokedBy → token.revoked = true) :
    Origin p tokenId token requestedAt minutes (after ++ [call]) := by
  refine { h with approved := ?_, unrevoked := ?_ }
  · intro approver happrover
    obtain ⟨approvedAt, hmem⟩ := h.approved approver happrover
    exact ⟨approvedAt, List.mem_append_left _ hmem⟩
  · intro hlive revokedAt revokedBy hmem
    rcases List.mem_append.mp hmem with hmem | hlast
    · exact h.unrevoked hlive revokedAt revokedBy hmem
    · have hrevoked := hcall revokedAt revokedBy (List.mem_singleton.mp hlast).symm
      rw [hlive] at hrevoked
      cases hrevoked

namespace Backed

theorem request (now minutes : Int) (requester scope reason : String) :
    Backed p (calls ++ [.request now tokenId requester scope reason minutes]) tokenId
      { tokenId, requestedBy := requester, scope, reason, createdAt := now
        expiresAt := now + min minutes p.maxDuration * 60000000, durationMinutes := min minutes p.maxDuration
        requiredApprovals := p.requiredApprovals } :=
  ⟨calls, now, minutes, [], rfl, by constructor <;> simp⟩

theorem concat (h : Backed p calls tokenId token) (call : BreakGlassCall)
    (hcall : ∀ revokedAt revokedBy, call = .revoke revokedAt tokenId revokedBy → token.revoked = true) :
    Backed p (calls ++ [call]) tokenId token := by
  obtain ⟨before, requestedAt, minutes, after, rfl, ho⟩ := h
  exact ⟨before, requestedAt, minutes, after ++ [call], by simp, ho.concat call hcall⟩

theorem approve (h : Backed p calls tokenId token) (now : Int) {approver : String} (hself : approver ≠ token.requestedBy)
    (hlisted : p.authorizedApprovers ≠ [] → approver ∈ p.authorizedApprovers) (hagain : approver ∉ token.approvedBy) :
    Backed p (calls ++ [.approve now tokenId approver]) tokenId { token with approvedBy := token.approvedBy ++ [approver] } := by
  obtain ⟨before, requestedAt, minutes, after, rfl, ho⟩ := h
  refine ⟨before, requestedAt, minutes, after ++ [.approve now tokenId approver], by simp, ?_⟩
  have hlater := ho.concat (.approve now tokenId approver) (by simp)
  have hmem : ∀ other ∈ token.approvedBy ++ [approver], other ∈ token.approvedBy ∨ other = approver := by simp
  refine { hlater with nodup := ?_, independent := ?_, authorized := ?_, approved := ?_ }
  · exact List.nodup_append.mpr ⟨ho.nodup, by simp, by
      rintro other hother _ hlast rfl
      exact hagain (List.mem_singleton.mp hlast ▸ hother)⟩
  · intro other hother
    rcases hmem other hother with hother | rfl
    · exact ho.independent other hother
    · exact hself
  · intro hlist other hother
    rcases hmem other hother with hother | rfl
    · exact ho.authorized hlist other hother
    · exact hlisted hlist
  · intro other hother
    rcases hmem other hother with hother | rfl
    · exact hlater.approved other hother
    · exact ⟨now, by simp⟩

/-- A revoked token stays backed, whatever the call. -/
theorem revoke (h : Backed p calls tokenId token) (call : BreakGlassCall) (revokedAt : Option Int) (revokedBy : String) :
    Backed p (calls ++ [call]) tokenId { token with revoked := true, revokedAt, revokedBy } := by
  obtain ⟨before, requestedAt, minutes, after, hcalls, ho⟩ := h
  have hrevoked : Backed p calls tokenId { token with revoked := true, revokedAt, revokedBy } :=
    ⟨before, requestedAt, minutes, after, hcalls, { ho with unrevoked := by simp }⟩
  exact hrevoked.concat call fun _ _ _ => rfl

end Backed

/-! ## Runs -/

namespace BreakGlassProtocol

/-- The settings are the ones the protocol `p` began with, and each token that `q` holds is backed. -/
structure Sound (p : BreakGlassProtocol) (calls : List BreakGlassCall) (q : BreakGlassProtocol) : Prop where
  requiredApprovals : q.requiredApprovals = p.requiredApprovals
  maxDuration : q.maxDuration = p.maxDuration
  authorizedApprovers : q.authorizedApprovers = p.authorizedApprovers
  nodup : q.tokens.keys.Nodup
  backed : ∀ tokenId token, q.tokens.get? tokenId = some token → Backed p calls tokenId token

variable {lib : BreakGlassLib} {q : BreakGlassProtocol}

theorem Sound.appendAudit (h : Sound p calls q) (now : Int) (event tokenId actor : String) (detail : Dict Value) :
    Sound p calls (q.appendAudit lib now event tokenId actor detail) := { h with }

theorem Sound.concat (h : Sound p calls q) (call : BreakGlassCall)
    (hcall : ∀ revokedAt tokenId revokedBy, call = .revoke revokedAt tokenId revokedBy →
      ∀ token, q.tokens.get? tokenId = some token → token.revoked = true) : Sound p (calls ++ [call]) q :=
  { h with
    backed := fun tokenId token hget => (h.backed tokenId token hget).concat call fun revokedAt revokedBy heq =>
      hcall revokedAt tokenId revokedBy heq token hget }

/-- A call that changes one token, and leaves it backed. -/
theorem Sound.set (h : Sound p calls q) (call : BreakGlassCall) {tokenId : String} {token : BreakGlassToken}
    (htoken : Backed p (calls ++ [call]) tokenId token)
    (hcall : ∀ revokedAt revokedId revokedBy, call = .revoke revokedAt revokedId revokedBy → revokedId = tokenId) :
    Sound p (calls ++ [call]) { q with tokens := q.tokens.set tokenId token } := by
  refine { h with nodup := Dict.nodup_keys_set _ _ _ h.nodup, backed := ?_ }
  intro other found hget
  rw [Dict.get?_set] at hget
  split at hget
  · next heq =>
    subst heq
    cases hget
    exact htoken
  · next hne =>
    refine (h.backed other found hget).concat call fun revokedAt revokedBy heq => ?_
    exact absurd (hcall revokedAt other revokedBy heq) hne

theorem Sound.recordApproval (h : Sound p calls q) (now : Int) (tokenId approver : String) (token : BreakGlassToken)
    (htoken : Backed p (calls ++ [.approve now tokenId approver]) tokenId
      { token with approvedBy := token.approvedBy ++ [approver] }) :
    Sound p (calls ++ [.approve now tokenId approver]) (q.recordApproval lib now tokenId approver token).2 := by
  unfold BreakGlassProtocol.recordApproval
  dsimp only
  have hset := h.set (.approve now tokenId approver) htoken (by simp)
  split
  · apply Sound.appendAudit
    apply Sound.appendAudit
    exact hset
  · apply Sound.appendAudit
    exact hset

/-- The loop of `cleanup_expired` revokes tokens that the protocol holds. -/
theorem Sound.cleanupExpired (h : Sound p calls q) (now : Int) :
    Sound p (calls ++ [.cleanupExpired now]) (q.cleanupExpired lib now) := by
  unfold BreakGlassProtocol.cleanupExpired
  refine List.foldlRecOn (motive := Sound p (calls ++ [.cleanupExpired now])) q.tokens (expireToken lib now)
    (h.concat _ (by simp)) fun r hr e he => ?_
  rcases expireToken_cases r e with hsame | ⟨detail, hdone⟩
  · rw [hsame]
    exact hr
  · rw [hdone]
    apply Sound.appendAudit
    have htoken := h.backed e.1 e.2 ((Dict.mem_iff_get? _ h.nodup e.1 e.2).mp he)
    refine { hr with nodup := Dict.nodup_keys_set _ _ _ hr.nodup, backed := ?_ }
    intro other found hget
    rw [Dict.get?_set] at hget
    split at hget
    · next heq =>
      subst heq
      cases hget
      exact htoken.revoke _ _ _
    · exact hr.backed other found hget

theorem Sound.step (h : Sound p calls q) (call : BreakGlassCall) : Sound p (calls ++ [call]) (q.step lib call) := by
  cases call with
  | request now tokenId requester scope reason minutes =>
    rcases step_request lib q now tokenId requester scope reason minutes with hsame | ⟨token, detail, rfl, -, -, hdone⟩
    · rw [hsame]
      exact h.concat _ (by simp)
    · have htoken : Backed p (calls ++ [_]) tokenId _ := Backed.request now minutes requester scope reason
      rw [← h.requiredApprovals, ← h.maxDuration] at htoken
      rw [hdone]
      apply Sound.appendAudit
      exact h.set _ htoken (by simp)
  | approve now tokenId approver =>
    rcases step_approve lib q now tokenId approver with hsame | ⟨token, hcheck, hdone⟩
    · rw [hsame]
      exact h.concat _ (by simp)
    · rw [hdone]
      obtain ⟨hget, -, -, hself, hlisted, hagain⟩ := checkApproval_eq_ok hcheck
      rw [h.authorizedApprovers] at hlisted
      exact h.recordApproval now tokenId approver token ((h.backed tokenId token hget).approve now hself hlisted hagain)
  | revoke now tokenId revokedBy =>
    rcases step_revoke lib q now tokenId revokedBy with ⟨hsame, hrevoked⟩ | ⟨token, detail, hget, hdone⟩
    · rw [hsame]
      refine h.concat _ ?_
      rintro revokedAt other by' heq token hget
      cases heq
      exact hrevoked token hget
    · rw [hdone]
      apply Sound.appendAudit
      refine h.set _ ((h.backed tokenId token hget).revoke _ _ _) ?_
      rintro revokedAt other by' heq
      cases heq
      rfl
  | cleanupExpired now => exact h.cleanupExpired now

theorem sound_run {required maxDuration : Int} {approvers : List String} (hnew : new required maxDuration approvers = .ok p)
    (calls : List BreakGlassCall) : Sound p calls (run (step lib) p calls) := by
  induction calls using List.reverseRecOn with
  | nil =>
    obtain ⟨-, -, -, rfl⟩ := new_eq_ok hnew
    constructor <;> simp [Dict.keys]
  | append_singleton calls call ih =>
    have hrun : run (BreakGlassProtocol.step lib) p (calls ++ [call]) = (run (BreakGlassProtocol.step lib) p calls).step lib call := by
      simp [run]
    rw [hrun]
    exact ih.step call

end BreakGlassProtocol

end Occp.Security
