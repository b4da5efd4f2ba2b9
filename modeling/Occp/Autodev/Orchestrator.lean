import Occp.Autodev.Approval
import Occp.Autodev.Sandbox

/-!
# Auto-dev runs (`autodev/orchestrator.py`)

Every operation returns what the call returns or raises, and the state it leaves.
A run refers to its worktree by the id under which the sandbox keeps the handle.
The patch file that `_apply_diff` writes into the worktree and removes is left out.
-/

namespace Occp.Autodev

inductive RunState where
  | proposed
  | building
  | verifying
  | awaitingApproval
  | approved
  | merging
  | merged
  | rejected
  | failed
  | cancelled
  deriving DecidableEq

namespace RunState

def value : RunState → String
  | proposed => "proposed"
  | building => "building"
  | verifying => "verifying"
  | awaitingApproval => "awaiting_approval"
  | approved => "approved"
  | merging => "merging"
  | merged => "merged"
  | rejected => "rejected"
  | failed => "failed"
  | cancelled => "cancelled"

/-- `TERMINAL_STATES`. -/
def isTerminal : RunState → Bool
  | merged | rejected | failed | cancelled => true
  | _ => false

end RunState

structure Transition where
  source : RunState
  target : RunState
  reason : String

structure AutoDevRun where
  runId : String
  title : String
  rationale : String
  proposedDiff : String
  state : RunState := .proposed
  worktreeHandle : Option String := none
  filesModified : List String := []
  verificationReport : Option VerificationReport := none
  riskAssessment : Option RiskAssessment := none
  approvalRequestId : Option String := none
  mergeBranch : Option String := none
  error : Option String := none
  transitions : List Transition := []

def AutoDevRun.recordTransition (run : AutoDevRun) (target : RunState) (reason : String) : AutoDevRun :=
  { run with transitions := run.transitions ++ [⟨run.state, target, reason⟩], state := target }

/-- What the orchestrator is built from. -/
structure Config (File : Type) where
  git : Git File
  risk : ResidualRiskCalculator

/-- When an operation runs, and the reason of the kill switch when that is active. A budget is
charged at a later reading of the clock than it was checked at. -/
structure Moment where
  now : Int
  killSwitch : Option String := none
  recorded : Int := now

structure AutoDevOrchestrator (File : Type) where
  runs : Dict AutoDevRun := []
  sandbox : Sandbox File := []
  approvals : ApprovalQueue := {}
  budget : RateBudgetTracker

namespace AutoDevOrchestrator

variable {File : Type}

/-- Where `str.strip` cuts. -/
def isSpace (c : Char) : Bool :=
  let n := c.toNat
  (9 ≤ n && n ≤ 13) || (28 ≤ n && n ≤ 32) || n = 0x85 || n = 0xA0 || n = 0x1680 || (0x2000 ≤ n && n ≤ 0x200A) ||
    n = 0x2028 || n = 0x2029 || n = 0x202F || n = 0x205F || n = 0x3000

/-- Python's `s[:n]`. -/
def upTo (n : Nat) (s : String) : String := String.ofList (s.toList.take n)

def putRun (o : AutoDevOrchestrator File) (run : AutoDevRun) : AutoDevOrchestrator File :=
  { o with runs := o.runs.set run.runId run }

/-- `run.record_transition(target, reason)`, and the run is returned. -/
def settle (o : AutoDevOrchestrator File) (run : AutoDevRun) (target : RunState) (reason : String) :
    Except PyError AutoDevRun × AutoDevOrchestrator File :=
  let run := run.recordTransition target reason
  (.ok run, o.putRun run)

/-- The run ends with an error, and its worktree is removed. -/
def abandon (o : AutoDevOrchestrator File) (run : AutoDevRun) (target : RunState) (error reason : String) :
    Except PyError AutoDevRun × AutoDevOrchestrator File :=
  settle { o with sandbox := o.sandbox.cleanup run.runId } { run with error := some error } target reason

def unknownRun (runId : String) : PyError := .other "KeyError" s!"unknown run_id: {runId}"

/-- `propose`; the id is the one that `uuid4` gave. -/
def propose (m : Moment) (o : AutoDevOrchestrator File) (runId title rationale proposedDiff : String) :
    Except PyError AutoDevRun × AutoDevOrchestrator File :=
  match m.killSwitch with
  | some reason => (.error (.other "KillSwitchActive" reason), o)
  | none =>
    if proposedDiff.toList.all isSpace then (.error (.valueError "proposed_diff is empty"), o)
    else
      match o.budget.checkCanStartRun m.now with
      | (.error e, budget) => (.error e, { o with budget })
      | (.ok (), budget) =>
        let run : AutoDevRun := { runId, title := upTo 200 title, rationale := upTo 2000 rationale, proposedDiff }
        settle { o with budget := budget.recordRunStarted m.recorded } run .proposed "submitted"

/-- The approval step of `execute_build_and_verify`. -/
def submitForApproval (m : Moment) (o : AutoDevOrchestrator File) (run : AutoDevRun) (assessment : RiskAssessment) :
    Except PyError AutoDevRun × AutoDevOrchestrator File :=
  let request : ApprovalRequest :=
    { requestId := s!"appr-{run.runId}", runId := run.runId, riskLevel := assessment.riskLevel, title := run.title
      summary := upTo 500 run.rationale, affectedPaths := run.filesModified
      diffPreview := upTo 2000 run.proposedDiff, residualRiskScore := assessment.score }
  match o.approvals.submit m.now request with
  | .error e => (.error e, o.putRun run)
  | .ok (req, approvals) =>
    let o := { o with approvals }
    let run := { run with approvalRequestId := some req.requestId }
    if req.state = .autoApproved then o.settle run .approved "LOW risk auto-approved"
    else o.settle run .awaitingApproval s!"{assessment.riskLevel.value} risk — awaiting HITL"

/-- `str` of a score. Every weight is a multiple of a half. -/
def scoreText (score : Rat) : String := s!"{score.floor}.{if score.den = 1 then 0 else 5}"

/-- Everything after the verification: risk, recommendation, budget, approval. -/
def decide (c : Config File) (m : Moment) (o : AutoDevOrchestrator File) (run : AutoDevRun)
    (report : VerificationReport) : Except PyError AutoDevRun × AutoDevOrchestrator File :=
  let assessment := c.risk.assess report run.filesModified (run.proposedDiff.toList.count '\n')
  let run := { run with riskAssessment := some assessment }
  if report.passed = false then o.abandon run .failed "verification stage failed" "verification failed"
  else if assessment.recommendation = .reject then
    let error := s!"risk assessment rejected: score={scoreText assessment.score}"
    o.abandon run .rejected error error
  else if assessment.riskLevel = .low then submitForApproval m o run assessment
  else
    match o.budget.checkCanSubmitMediumPlus m.now with
    | (.error e, budget) => abandon { o with budget } run .rejected e.str e.str
    | (.ok (), budget) => submitForApproval m { o with budget := budget.recordMediumPlusProposal m.recorded } run assessment

/-- The verification stages, on the files that were captured. -/
def verify (c : Config File) (m : Moment) (o : AutoDevOrchestrator File) (run : AutoDevRun)
    (verification : List String → Except PyError VerificationReport) :
    Except PyError AutoDevRun × AutoDevOrchestrator File :=
  let run := run.recordTransition .verifying "lint + test + regression"
  match verification run.filesModified with
  | .error e =>
    let error := s!"verification error: {e.str}"
    o.abandon run .failed error error
  | .ok report => decide c m o { run with verificationReport := some report } report

/-- `_apply_diff`: `git apply` wants a newline at the end. -/
def applyDiff (git : Git File) (s : Sandbox File) (runId diff : String) : Except PyError (Sandbox File) := do
  let handle ← s.requireHandle runId
  let patch := if diff ≠ "" ∧ diff.toList.getLast? ≠ some '\n' then diff ++ "\n" else diff
  let tree ← git.apply handle.tree patch
  return s.set runId { handle with tree := tree }

/-- The worktree, the diff and the files it modified. -/
def build (c : Config File) (m : Moment) (o : AutoDevOrchestrator File) (run : AutoDevRun)
    (added : Except PyError (Tree File)) (verification : List String → Except PyError VerificationReport) :
    Except PyError AutoDevRun × AutoDevOrchestrator File :=
  let run := run.recordTransition .building "create worktree"
  match o.sandbox.create run.runId added with
  | .error e =>
    let error := s!"worktree creation failed: {e.str}"
    o.settle { run with error := some error } .failed error
  | .ok sandbox =>
    let run := { run with worktreeHandle := some run.runId }
    match applyDiff c.git sandbox run.runId run.proposedDiff with
    | .error e =>
      let error := s!"diff apply failed: {e.str}"
      abandon { o with sandbox } run .failed error error
    | .ok sandbox =>
      match sandbox.captureDiff c.git run.runId with
      | .error e =>
        let error := s!"diff capture failed: {e.str}"
        abandon { o with sandbox } run .failed error error
      | .ok sandbox =>
        let files := ((sandbox.get? run.runId).map (·.filesModified)).getD []
        verify c m { o with sandbox } { run with filesModified := files } verification

def executeBuildAndVerify (c : Config File) (m : Moment) (o : AutoDevOrchestrator File) (runId : String)
    (added : Except PyError (Tree File)) (verification : List String → Except PyError VerificationReport) :
    Except PyError AutoDevRun × AutoDevOrchestrator File :=
  match o.runs.get? runId with
  | none => (.error (unknownRun runId), o)
  | some run =>
    match m.killSwitch with
    | some reason =>
      let error := s!"kill switch active: {reason}"
      o.settle { run with error := some error } .cancelled error
    | none =>
      if run.state ≠ .proposed then
        (.error (.valueError s!"cannot build: run {runId} in state {run.state.value}"), o)
      else build c m o run added verification

def resolveApproval (m : Moment) (o : AutoDevOrchestrator File) (runId : String) (approved : Bool)
    (actor reason : String) : Except PyError AutoDevRun × AutoDevOrchestrator File :=
  match o.runs.get? runId with
  | none => (.error (unknownRun runId), o)
  | some run =>
    if run.state ≠ .awaitingApproval then
      (.error (.valueError s!"run {runId} not awaiting approval (state={run.state.value})"), o)
    else
      match run.approvalRequestId with
      | none => (.error (.valueError s!"run {runId} has no approval_request_id"), o)
      | some requestId =>
        if approved then
          match o.approvals.approve m.now requestId actor reason with
          | .error e => (.error e, o)
          | .ok approvals => settle { o with approvals } run .approved s!"approved by {actor}: {reason}"
        else
          match o.approvals.reject m.now requestId actor reason with
          | .error e => (.error e, o)
          | .ok approvals =>
            let sandbox := if run.worktreeHandle.isSome then o.sandbox.cleanup runId else o.sandbox
            settle { o with approvals, sandbox } run .rejected s!"rejected by {actor}: {reason}"

/-- `finalize_merge`. The branch is kept. -/
def finalizeMerge (m : Moment) (o : AutoDevOrchestrator File) (runId : String) :
    Except PyError AutoDevRun × AutoDevOrchestrator File :=
  match o.runs.get? runId with
  | none => (.error (unknownRun runId), o)
  | some run =>
    match m.killSwitch with
    | some reason =>
      let error := s!"kill switch active at merge: {reason}"
      o.settle { run with error := some error } .cancelled error
    | none =>
      if run.state ≠ .approved then (.error (.valueError s!"cannot merge: state={run.state.value}"), o)
      else
        let run := run.recordTransition .merging "preparing branch"
        let run := { run with
          mergeBranch := (run.worktreeHandle.bind fun id => o.sandbox.get? id).map (·.branchName) }
        let sandbox := if run.worktreeHandle.isSome then o.sandbox.cleanup runId else o.sandbox
        let budget :=
          if run.riskAssessment.any (·.riskLevel = .low) then o.budget.recordLowRiskMerge m.now else o.budget
        let mergeBranch := run.mergeBranch.getD "None"
        settle { o with sandbox, budget } run .merged s!"branch {mergeBranch} ready for human PR"

def cancel (o : AutoDevOrchestrator File) (runId reason : String) :
    Except PyError AutoDevRun × AutoDevOrchestrator File :=
  match o.runs.get? runId with
  | none => (.error (unknownRun runId), o)
  | some run =>
    if run.state.isTerminal then (.ok run, o)
    else
      let sandbox := if run.worktreeHandle.isSome then o.sandbox.cleanup runId else o.sandbox
      settle { o with sandbox } run .cancelled reason

end AutoDevOrchestrator

/-! ## Runs of the orchestrator -/

/-- One call, with what the world does during it. -/
inductive Operation (File : Type) where
  | propose (runId title rationale proposedDiff : String)
  | executeBuildAndVerify (runId : String) (added : Except PyError (Tree File))
      (verification : List String → Except PyError VerificationReport)
  | resolveApproval (runId : String) (approved : Bool) (actor reason : String)
  | finalizeMerge (runId : String)
  | cancel (runId reason : String)
  | cleanupExpired

open AutoDevOrchestrator in
def apply {File : Type} (c : Config File) (m : Moment) (o : AutoDevOrchestrator File) :
    Operation File → AutoDevOrchestrator File
  | .propose runId title rationale diff => (propose m o runId title rationale diff).2
  | .executeBuildAndVerify runId added verification => (executeBuildAndVerify c m o runId added verification).2
  | .resolveApproval runId approved actor reason => (resolveApproval m o runId approved actor reason).2
  | .finalizeMerge runId => (finalizeMerge m o runId).2
  | .cancel runId reason => (cancel o runId reason).2
  | .cleanupExpired => { o with approvals := o.approvals.cleanupExpired m.now }

/-- `uuid4` never gives an id twice. -/
def Operation.Fresh {File : Type} (o : AutoDevOrchestrator File) : Operation File → Prop
  | .propose runId .. => o.runs.get? runId = none
  | _ => True

inductive Reachable {File : Type} (c : Config File) : AutoDevOrchestrator File → Prop
  | start (o : AutoDevOrchestrator File) (hruns : o.runs = []) (hsandbox : o.sandbox = []) : Reachable c o
  | step (o : AutoDevOrchestrator File) (m : Moment) (op : Operation File) (ho : Reachable c o) (hop : op.Fresh o) :
      Reachable c (apply c m o op)

end Occp.Autodev
