import Occp.Errors
import Occp.Lib.Runs

/-!
# The break-glass protocol (`security/break_glass.py`)

A token overrides the policy once enough others have approved it, until it expires or is revoked. Times are
microseconds since the epoch. `isoformat` and `sha256` (a hex digest) are what Python makes of a time and a text.
-/

namespace Occp.Security

/-- An aware `datetime`: an instant, and the offset in which it is written. -/
structure DateTime where
  instant : Int
  offset : Int := 0
  deriving DecidableEq

namespace DateTime

/-- `datetime.min` and `datetime.max`. -/
def min : Int := -62135596800000000
def max : Int := 253402300799999999

end DateTime

structure BreakGlassToken where
  tokenId : String
  requestedBy : String
  scope : String
  createdAt : Int
  expiresAt : Int
  durationMinutes : Int
  requiredApprovals : Nat
  approvedBy : List String := []
  revoked : Bool := false
  revokedAt : Option Int := none
  revokedBy : String := ""
  reason : String := ""

namespace BreakGlassToken

variable (t : BreakGlassToken)

def isApproved : Bool := t.requiredApprovals ≤ t.approvedBy.length

def isExpired (now : Int) : Bool := t.expiresAt ≤ now

def isActive (now : Int) : Bool := t.isApproved && !t.isExpired now && !t.revoked

end BreakGlassToken

structure BreakGlassAuditEntry where
  timestamp : DateTime
  event : String
  tokenId : String
  actor : String
  detail : Dict Value := []
  severity : String := "CRITICAL"
  hash : String := ""

/-- What the model takes from Python's library. -/
structure BreakGlassLib where
  isoformat : DateTime → String
  sha256 : String → String

variable (lib : BreakGlassLib)

namespace BreakGlassAuditEntry

/-- The part of the hashed text that is about the entry. -/
def text (e : BreakGlassAuditEntry) : String :=
  let timestamp := lib.isoformat e.timestamp
  s!"{timestamp}|{e.event}|{e.tokenId}|{e.actor}|{e.severity}"

def computeHash (e : BreakGlassAuditEntry) (prevHash : String) : BreakGlassAuditEntry :=
  let text := e.text lib
  { e with hash := lib.sha256 s!"{text}|{prevHash}" }

end BreakGlassAuditEntry

structure BreakGlassProtocol where
  requiredApprovals : Nat
  maxDuration : Int
  /-- Anybody may approve when nobody is listed. -/
  authorizedApprovers : List String
  tokens : Dict BreakGlassToken := []
  auditChain : List BreakGlassAuditEntry := []

namespace BreakGlassProtocol

def maxDurationMinutes : Int := 60

def new (requiredApprovals : Int) (maxDuration : Int) (authorizedApprovers : List String) :
    Except PyError BreakGlassProtocol :=
  if requiredApprovals < 1 then .error (.valueError "required_approvals must be >= 1")
  else if maxDuration < 1 ∨ maxDurationMinutes < maxDuration then
    .error (.valueError s!"max_duration_minutes must be 1-{maxDurationMinutes}")
  else .ok { requiredApprovals := requiredApprovals.toNat, maxDuration, authorizedApprovers }

def error (message : String) : PyError := .other "BreakGlassError" message

variable (p : BreakGlassProtocol)

def appendAudit (now : Int) (event tokenId actor : String) (detail : Dict Value) : BreakGlassProtocol :=
  let prevHash := match p.auditChain.getLast? with
    | some last => last.hash
    | none => ""
  let entry := BreakGlassAuditEntry.computeHash lib { timestamp := { instant := now }, event, tokenId, actor, detail } prevHash
  { p with auditChain := p.auditChain ++ [entry] }

/-- `tokenId` is the random id of the new token. -/
def request (now : Int) (tokenId requester scope reason : String) (durationMinutes : Int) :
    Except PyError (BreakGlassToken × BreakGlassProtocol) :=
  if requester = "" then .error (error "Requester must be specified")
  else if scope = "" then .error (error "Scope must be specified")
  else
    let duration := min durationMinutes p.maxDuration
    let expiresAt := now + duration * 60000000
    if expiresAt < DateTime.min ∨ DateTime.max < expiresAt then .error (.other "OverflowError" "date value out of range")
    else
      let token : BreakGlassToken :=
        { tokenId, requestedBy := requester, scope, reason, createdAt := now, expiresAt, durationMinutes := duration
          requiredApprovals := p.requiredApprovals }
      let p := { p with tokens := p.tokens.set tokenId token }
      .ok (token, p.appendAudit lib now "request" tokenId requester
        [("scope", .str scope), ("reason", .str reason), ("duration_minutes", .int duration),
          ("required_approvals", .int p.requiredApprovals)])

/-- The checks of `approve`, in their order. -/
def checkApproval (now : Int) (tokenId approver : String) : Except PyError BreakGlassToken :=
  match p.tokens.get? tokenId with
  | none => .error (error s!"Token not found: {tokenId}")
  | some token =>
    if token.revoked then .error (error s!"Token already revoked: {tokenId}")
    else if token.isExpired now then .error (error s!"Token already expired: {tokenId}")
    else if approver = token.requestedBy then .error (error "Requester cannot self-approve")
    else if p.authorizedApprovers ≠ [] ∧ approver ∉ p.authorizedApprovers then
      .error (error s!"Approver '{approver}' is not in the authorized approvers list")
    else if approver ∈ token.approvedBy then .error (error s!"Approver '{approver}' has already approved this token")
    else .ok token

/-- What `approve` does after its checks. -/
def recordApproval (now : Int) (tokenId approver : String) (token : BreakGlassToken) : Bool × BreakGlassProtocol :=
  let token := { token with approvedBy := token.approvedBy ++ [approver] }
  let p := { p with tokens := p.tokens.set tokenId token }
  let p := p.appendAudit lib now "approve" tokenId approver
    [("approvals", .int token.approvedBy.length), ("required", .int token.requiredApprovals),
      ("activated", .bool token.isApproved)]
  let p := if token.isApproved then
      p.appendAudit lib now "activate" tokenId "system"
        [("scope", .str token.scope), ("expires_at", .str (lib.isoformat { instant := token.expiresAt }))]
    else p
  (token.isApproved, p)

def approve (now : Int) (tokenId approver : String) : Except PyError (Bool × BreakGlassProtocol) :=
  (p.checkApproval now tokenId approver).map (p.recordApproval lib now tokenId approver)

/-- A second revocation does nothing. -/
def revoke (now : Int) (tokenId revokedBy : String) : Except PyError BreakGlassProtocol :=
  match p.tokens.get? tokenId with
  | none => .error (error s!"Token not found: {tokenId}")
  | some token =>
    if token.revoked then .ok p
    else
      let revoked := { token with revoked := true, revokedAt := some now, revokedBy }
      let p := { p with tokens := p.tokens.set tokenId revoked }
      .ok (p.appendAudit lib now "revoke" tokenId revokedBy
        [("scope", .str token.scope), ("was_active", .bool (token.isApproved && !token.isExpired now))])

def isActive (now : Int) (tokenId : String) : Bool :=
  match p.tokens.get? tokenId with
  | some token => token.isActive now
  | none => false

def check (tokenId : String) : Option BreakGlassToken := p.tokens.get? tokenId

def checkScope (now : Int) (tokenId requiredScope : String) : Bool :=
  match p.tokens.get? tokenId with
  | some token => token.isActive now && (token.scope == requiredScope || token.scope == "*")
  | none => false

/-- One turn of the loop of `cleanup_expired`. -/
def expireToken (now : Int) (p : BreakGlassProtocol) (e : String × BreakGlassToken) : BreakGlassProtocol :=
  let token := e.2
  if token.isExpired now && !token.revoked then
    let revoked := { token with revoked := true, revokedAt := some now, revokedBy := "system:auto_revoke" }
    let p := { p with tokens := p.tokens.set e.1 revoked }
    p.appendAudit lib now "auto_revoke" token.tokenId "system"
      [("scope", .str token.scope), ("expired_at", .str (lib.isoformat { instant := token.expiresAt }))]
  else p

def cleanupExpired (now : Int) : BreakGlassProtocol := p.tokens.foldl (expireToken lib now) p

def activeTokens (now : Int) : List BreakGlassToken := (p.tokens.map (·.2)).filter (·.isActive now)

/-- The loop of `verify_audit_chain`, from the hash before on. -/
def verifyFrom : String → List BreakGlassAuditEntry → Bool
  | _, [] => true
  | prev, entry :: rest =>
    if (entry.computeHash lib prev).hash ≠ entry.hash then false else verifyFrom entry.hash rest

def verifyAuditChain : Bool := verifyFrom lib "" p.auditChain

end BreakGlassProtocol

/-! ## Runs -/

inductive BreakGlassCall where
  | request (now : Int) (tokenId requester scope reason : String) (durationMinutes : Int)
  | approve (now : Int) (tokenId approver : String)
  | revoke (now : Int) (tokenId revokedBy : String)
  | cleanupExpired (now : Int)
  deriving DecidableEq

namespace BreakGlassProtocol

/-- A call that raises changes nothing. -/
def step (p : BreakGlassProtocol) : BreakGlassCall → BreakGlassProtocol
  | .request now tokenId requester scope reason durationMinutes =>
    match p.request lib now tokenId requester scope reason durationMinutes with
    | .ok (_, p) => p
    | .error _ => p
  | .approve now tokenId approver =>
    match p.approve lib now tokenId approver with
    | .ok (_, p) => p
    | .error _ => p
  | .revoke now tokenId revokedBy =>
    match p.revoke lib now tokenId revokedBy with
    | .ok p => p
    | .error _ => p
  | .cleanupExpired now => p.cleanupExpired lib now

variable {lib} {p p' : BreakGlassProtocol} {now : Int} {tokenId : String}

@[simp] theorem appendAudit_tokens (event tokenId actor : String) (detail : Dict Value) :
    (p.appendAudit lib now event tokenId actor detail).tokens = p.tokens := rfl

/-! ## What a call does -/

theorem new_eq_ok {required maxDuration : Int} {approvers : List String} (h : new required maxDuration approvers = .ok p) :
    1 ≤ required ∧ 1 ≤ maxDuration ∧ maxDuration ≤ maxDurationMinutes ∧
      p = { requiredApprovals := required.toNat, maxDuration, authorizedApprovers := approvers } := by
  unfold new at h
  split at h
  · cases h
  · split at h
    · cases h
    · cases h
      refine ⟨?_, ?_, ?_, rfl⟩ <;> omega

variable (lib p) in
theorem step_request (now : Int) (tokenId requester scope reason : String) (durationMinutes : Int) :
    p.step lib (.request now tokenId requester scope reason durationMinutes) = p ∨
      ∃ token detail, token = { tokenId, requestedBy := requester, scope, reason, createdAt := now
                                expiresAt := now + min durationMinutes p.maxDuration * 60000000
                                durationMinutes := min durationMinutes p.maxDuration
                                requiredApprovals := p.requiredApprovals } ∧ requester ≠ "" ∧ scope ≠ "" ∧
        p.step lib (.request now tokenId requester scope reason durationMinutes) =
          { p with tokens := p.tokens.set tokenId token }.appendAudit lib now "request" tokenId requester detail := by
  by_cases hrequester : requester = ""
  · simp [step, request, hrequester]
  · by_cases hscope : scope = ""
    · simp [step, request, hrequester, hscope]
    · by_cases hrange : now + min durationMinutes p.maxDuration * 60000000 < DateTime.min ∨
          DateTime.max < now + min durationMinutes p.maxDuration * 60000000
      · simp [step, request, hrequester, hscope, hrange]
      · right
        exact ⟨_, [("scope", .str scope), ("reason", .str reason), ("duration_minutes", .int (min durationMinutes p.maxDuration)),
          ("required_approvals", .int p.requiredApprovals)], rfl, hrequester, hscope,
          by simp [step, request, hrequester, hscope, hrange]⟩

variable (lib p) in
theorem step_approve (now : Int) (tokenId approver : String) :
    p.step lib (.approve now tokenId approver) = p ∨
      ∃ token, p.checkApproval now tokenId approver = .ok token ∧
        p.step lib (.approve now tokenId approver) = (p.recordApproval lib now tokenId approver token).2 := by
  cases hcheck : p.checkApproval now tokenId approver with
  | error e => simp [step, approve, hcheck, Except.map]
  | ok token => simp [step, approve, hcheck, Except.map]

theorem checkApproval_eq_ok {approver : String} {token : BreakGlassToken}
    (h : p.checkApproval now tokenId approver = .ok token) :
    p.tokens.get? tokenId = some token ∧ token.revoked = false ∧ token.isExpired now = false ∧
      approver ≠ token.requestedBy ∧ (p.authorizedApprovers ≠ [] → approver ∈ p.authorizedApprovers) ∧
        approver ∉ token.approvedBy := by
  unfold checkApproval at h
  split at h
  · cases h
  · next found hget =>
    split at h
    · cases h
    · next hrevoked =>
      split at h
      · cases h
      · next hexpired =>
        split at h
        · cases h
        · next hself =>
          split at h
          · cases h
          · next hlisted =>
            split at h
            · cases h
            · next hagain =>
              cases h
              exact ⟨hget, by simpa using hrevoked, by simpa using hexpired, hself, by tauto, hagain⟩

@[simp] theorem recordApproval_tokens (approver : String) (token : BreakGlassToken) :
    (p.recordApproval lib now tokenId approver token).2.tokens =
      p.tokens.set tokenId { token with approvedBy := token.approvedBy ++ [approver] } := by
  unfold recordApproval
  dsimp only
  split <;> rfl

variable (lib p) in
theorem step_revoke (now : Int) (tokenId revokedBy : String) :
    p.step lib (.revoke now tokenId revokedBy) = p ∧
        (∀ token, p.tokens.get? tokenId = some token → token.revoked = true) ∨
      ∃ token detail, p.tokens.get? tokenId = some token ∧
        p.step lib (.revoke now tokenId revokedBy) =
          { p with tokens := p.tokens.set tokenId { token with revoked := true, revokedAt := some now, revokedBy } }.appendAudit
            lib now "revoke" tokenId revokedBy detail := by
  cases hget : p.tokens.get? tokenId with
  | none => simp [step, revoke, hget]
  | some token =>
    by_cases hrevoked : token.revoked = true
    · simp [step, revoke, hget, hrevoked]
    · right
      exact ⟨token, [("scope", .str token.scope), ("was_active", .bool (token.isApproved && !token.isExpired now))], rfl,
        by simp [step, revoke, hget, hrevoked]⟩

theorem expireToken_cases (p : BreakGlassProtocol) (e : String × BreakGlassToken) :
    expireToken lib now p e = p ∨
      ∃ detail, expireToken lib now p e =
        { p with tokens := p.tokens.set e.1
                  { e.2 with revoked := true, revokedAt := some now, revokedBy := "system:auto_revoke" } }.appendAudit
          lib now "auto_revoke" e.2.tokenId "system" detail := by
  unfold expireToken
  dsimp only
  split
  · exact .inr ⟨_, rfl⟩
  · exact .inl rfl

end BreakGlassProtocol

end Occp.Security
