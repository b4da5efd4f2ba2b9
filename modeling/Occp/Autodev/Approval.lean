import Occp.Autodev.Risk

/-!
# Approvals and daily budgets (`autodev/approval_queue.py`, `autodev/rate_budget_tracker.py`)

Times are seconds since the epoch. A date is the number of its UTC day.
-/

namespace Occp.Autodev

/-! ## The approval queue -/

inductive ApprovalState where
  | pending
  | approved
  | rejected
  | timeout
  | autoApproved
  deriving DecidableEq

def ApprovalState.value : ApprovalState → String
  | pending => "pending"
  | approved => "approved"
  | rejected => "rejected"
  | timeout => "timeout"
  | autoApproved => "auto_approved"

/-- `RiskLevel.requires_approval`. The queue's own `RiskLevel` has the members of the task's. -/
def requiresApproval (level : RiskLevel) : Bool := level != .low

structure ApprovalRequest where
  requestId : String
  runId : String
  riskLevel : RiskLevel
  title : String
  summary : String
  affectedPaths : List String
  diffPreview : String
  residualRiskScore : Rat
  state : ApprovalState := .pending
  expiresAt : Option Int := none
  resolvedAt : Option Int := none
  resolvedBy : Option String := none
  resolutionReason : Option String := none

namespace ApprovalRequest

def isExpired (r : ApprovalRequest) (now : Int) : Bool :=
  match r.expiresAt with
  | none => false
  | some at' => at' ≤ now

def isTerminal (r : ApprovalRequest) : Bool := r.state != .pending

end ApprovalRequest

structure ApprovalQueue where
  requests : Dict ApprovalRequest := []
  defaultTtlHours : Int := 24

namespace ApprovalQueue

/-- `submit`, with the default time to live. -/
def submit (q : ApprovalQueue) (now : Int) (request : ApprovalRequest) :
    Except PyError (ApprovalRequest × ApprovalQueue) :=
  match q.requests.get? request.requestId with
  | some _ => .error (.valueError s!"duplicate request_id: {request.requestId}")
  | none =>
    let pending := { request with
      diffPreview := String.ofList (request.diffPreview.toList.take 4000)
      state := .pending
      expiresAt := some (now + q.defaultTtlHours * 3600) }
    let req :=
      if requiresApproval request.riskLevel then pending
      else { pending with
        state := .autoApproved, resolvedAt := some now, resolvedBy := some "system"
        resolutionReason := some "LOW risk auto-approved" }
    .ok (req, { q with requests := q.requests.set req.requestId req })

/-- A submitted request is new, and is settled at once exactly when its level is LOW. -/
theorem submit_spec {q q' : ApprovalQueue} {now : Int} {request req : ApprovalRequest}
    (h : q.submit now request = .ok (req, q')) :
    q.requests.get? request.requestId = none ∧ q'.requests = q.requests.set request.requestId req ∧
      req.requestId = request.requestId ∧ req.runId = request.runId ∧ req.affectedPaths = request.affectedPaths ∧
      (req.state = .autoApproved ↔ request.riskLevel = .low) := by
  unfold submit at h
  split at h
  · cases h
  · next hnone =>
    cases h
    refine ⟨hnone, ?_⟩
    by_cases hlevel : requiresApproval request.riskLevel
    · rw [if_pos hlevel]
      refine ⟨rfl, rfl, rfl, rfl, ?_⟩
      simpa [requiresApproval] using hlevel
    · rw [if_neg hlevel]
      refine ⟨rfl, rfl, rfl, rfl, ?_⟩
      simpa [requiresApproval] using hlevel

def resolve (q : ApprovalQueue) (now : Int) (requestId : String) (newState : ApprovalState) (actor reason : String) :
    Except PyError ApprovalQueue :=
  match q.requests.get? requestId with
  | none => .error (.other "KeyError" s!"unknown request_id: {requestId}")
  | some req =>
    if req.isTerminal then
      .error (.valueError s!"request {requestId} already in terminal state {req.state.value}")
    else
      let req := { req with
        state := newState, resolvedAt := some now, resolvedBy := some actor, resolutionReason := some reason }
      .ok { q with requests := q.requests.set requestId req }

/-- Only a pending request is resolved, and nothing but its state changes. -/
theorem resolve_spec {q q' : ApprovalQueue} {now : Int} {requestId actor reason : String} {newState : ApprovalState}
    (h : q.resolve now requestId newState actor reason = .ok q') :
    ∃ req req', q.requests.get? requestId = some req ∧ req.state = .pending ∧
      q'.requests = q.requests.set requestId req' ∧ req'.runId = req.runId ∧
      req'.affectedPaths = req.affectedPaths ∧ req'.state = newState := by
  unfold resolve at h
  split at h
  · cases h
  · next req hreq =>
    split at h
    · cases h
    · next hterminal =>
      cases h
      refine ⟨req, _, hreq, ?_, rfl, rfl, rfl, rfl⟩
      simpa [ApprovalRequest.isTerminal] using hterminal

def approve (q : ApprovalQueue) (now : Int) (requestId actor reason : String) : Except PyError ApprovalQueue :=
  q.resolve now requestId .approved actor reason

def reject (q : ApprovalQueue) (now : Int) (requestId actor reason : String) : Except PyError ApprovalQueue :=
  q.resolve now requestId .rejected actor reason

def cleanupExpired (q : ApprovalQueue) (now : Int) : ApprovalQueue :=
  { q with requests := q.requests.map fun (id, req) =>
      (id, if req.state = .pending ∧ req.isExpired now then
        { req with
          state := .timeout, resolvedAt := some now, resolvedBy := some "system"
          resolutionReason := some "ttl_expired" }
      else req) }

end ApprovalQueue

/-! ## The daily budget -/

structure BudgetLimits where
  maxRunsPerDay : Nat := 20
  maxLowRiskMergesPerDay : Nat := 10
  maxMediumPlusProposalsPerDay : Nat := 5
  maxComputeSecondsPerDay : Rat := 3600

structure DailyUsage where
  date : Int
  runsStarted : Nat := 0
  lowRiskMerges : Nat := 0
  mediumPlusProposals : Nat := 0
  computeSecondsUsed : Rat := 0

structure RateBudgetTracker where
  limits : BudgetLimits := {}
  current : DailyUsage

namespace RateBudgetTracker

/-- `_rollover_if_needed`. -/
def rollover (b : RateBudgetTracker) (now : Int) : RateBudgetTracker :=
  let today := now / 86400
  if b.current.date = today then b else { b with current := { date := today } }

def budgetExhausted (name : String) (current limit : Nat) : PyError :=
  .other "BudgetExhausted" s!"budget exhausted: {name}={current} >= limit={limit}"

/-- A check rolls the day over, whether it raises or not. -/
def checkCanStartRun (b : RateBudgetTracker) (now : Int) : Except PyError Unit × RateBudgetTracker :=
  let b := b.rollover now
  if b.limits.maxRunsPerDay ≤ b.current.runsStarted then
    (.error (budgetExhausted "max_runs_per_day" b.current.runsStarted b.limits.maxRunsPerDay), b)
  else (.ok (), b)

def checkCanAutoMergeLow (b : RateBudgetTracker) (now : Int) : Except PyError Unit × RateBudgetTracker :=
  let b := b.rollover now
  if b.limits.maxLowRiskMergesPerDay ≤ b.current.lowRiskMerges then
    (.error (budgetExhausted "max_low_risk_merges_per_day" b.current.lowRiskMerges b.limits.maxLowRiskMergesPerDay), b)
  else (.ok (), b)

def checkCanSubmitMediumPlus (b : RateBudgetTracker) (now : Int) : Except PyError Unit × RateBudgetTracker :=
  let b := b.rollover now
  if b.limits.maxMediumPlusProposalsPerDay ≤ b.current.mediumPlusProposals then
    (.error (budgetExhausted "max_medium_plus_proposals_per_day" b.current.mediumPlusProposals
      b.limits.maxMediumPlusProposalsPerDay), b)
  else (.ok (), b)

def recordRunStarted (b : RateBudgetTracker) (now : Int) : RateBudgetTracker :=
  let b := b.rollover now
  { b with current.runsStarted := b.current.runsStarted + 1 }

def recordLowRiskMerge (b : RateBudgetTracker) (now : Int) : RateBudgetTracker :=
  let b := b.rollover now
  { b with current.lowRiskMerges := b.current.lowRiskMerges + 1 }

def recordMediumPlusProposal (b : RateBudgetTracker) (now : Int) : RateBudgetTracker :=
  let b := b.rollover now
  { b with current.mediumPlusProposals := b.current.mediumPlusProposals + 1 }

end RateBudgetTracker

end Occp.Autodev
