import Occp.Autodev.MergeGate

/-!
# Expired approvals

A request times out when `cleanup_expired` finds it. `_resolve` does not look at the deadline, so
a request that no sweep has found yet can still be approved.
-/

namespace Occp.Autodev

open AutoDevOrchestrator

/-! ## Calls of the queue -/

/-- `submit`, with the `ttl_hours` of the call. -/
def ApprovalQueue.submitFor (q : ApprovalQueue) (now : Int) (request : ApprovalRequest) (ttlHours : Option Int) :
    Except PyError (ApprovalRequest × ApprovalQueue) := do
  let (req, q') ← { q with defaultTtlHours := ttlHours.getD q.defaultTtlHours }.submit now request
  return (req, { q' with defaultTtlHours := q.defaultTtlHours })

/-- A call of the orchestrator, or of its queue by someone else, and its time. -/
inductive ApprovalCall (File : Type) where
  | orchestrator (m : Moment) (op : Operation File)
  | submit (now : Int) (requestId runId : String) (riskLevel : RiskLevel) (title summary : String)
      (affectedPaths : List String) (diffPreview : String) (residualRiskScore : Rat) (ttlHours : Option Int)
  | approve (now : Int) (requestId actor reason : String)
  | reject (now : Int) (requestId actor reason : String)

variable {File : Type}

def ApprovalCall.now : ApprovalCall File → Int
  | orchestrator m _ => m.now
  | submit now .. => now
  | approve now .. => now
  | reject now .. => now

/-- The queue after a call that returns; one that raises leaves it as it is. -/
def putQueue (o : AutoDevOrchestrator File) : Except PyError ApprovalQueue → AutoDevOrchestrator File
  | .ok approvals => { o with approvals }
  | .error _ => o

def perform (c : Config File) (o : AutoDevOrchestrator File) : ApprovalCall File → AutoDevOrchestrator File
  | .orchestrator m op => apply c m o op
  | .submit now requestId runId riskLevel title summary affectedPaths diffPreview residualRiskScore ttlHours =>
    let request : ApprovalRequest :=
      { requestId, runId, riskLevel, title, summary, affectedPaths, diffPreview, residualRiskScore }
    putQueue o ((o.approvals.submitFor now request ttlHours).map (·.2))
  | .approve now requestId actor reason => putQueue o (o.approvals.approve now requestId actor reason)
  | .reject now requestId actor reason => putQueue o (o.approvals.reject now requestId actor reason)

def opened (ttlHours : Int) (budget : RateBudgetTracker) : AutoDevOrchestrator File :=
  { approvals := { defaultTtlHours := ttlHours }, budget }

/-! ## Late approvals -/

/-- The request was moved to APPROVED at or after its deadline. -/
def ApprovalRequest.late (r : ApprovalRequest) : Bool :=
  r.state = .approved && r.resolvedAt.any r.isExpired

def LetThroughLate (q : ApprovalQueue) (run : AutoDevRun) : Prop :=
  (run.state = .approved ∨ run.state = .merged) ∧
    ∃ id req, run.approvalRequestId = some id ∧ q.requests.get? id = some req ∧ req.late = true

structure Punctual (o : AutoDevOrchestrator File) : Prop where
  requests : ∀ id req, o.approvals.requests.get? id = some req → req.late = false
  runs : ∀ id run, o.runs.get? id = some run → ¬ LetThroughLate o.approvals run

def ApprovalQueue.open? (q : ApprovalQueue) (requestId : String) : Option ApprovalRequest :=
  (q.requests.get? requestId).filter (·.state = .pending)

/-- The open request that the call approves, of the queue itself or for a run that awaits it. -/
def ApprovalCall.target (o : AutoDevOrchestrator File) : ApprovalCall File → Option ApprovalRequest
  | .approve _ requestId .. => o.approvals.open? requestId
  | .orchestrator _ (.resolveApproval runId true ..) => do
    let run ← (o.runs.get? runId).filter (·.state = .awaitingApproval)
    o.approvals.open? (← run.approvalRequestId)
  | _ => none

/-- What a call approves has time left. -/
def HasTime (o : AutoDevOrchestrator File) (call : ApprovalCall File) : Prop :=
  ∀ req, call.target o = some req → req.isExpired call.now = false

/-! ## What a call approves -/

def NoneApproved (q q' : ApprovalQueue) : Prop :=
  ∀ id req, q'.requests.get? id = some req → req.state = .approved → q.requests.get? id = some req

theorem noneApproved_refl (q : ApprovalQueue) : NoneApproved q q := fun _ _ h _ => h

theorem noneApproved_set {q q' : ApprovalQueue} {id : String} {req : ApprovalRequest}
    (hset : q'.requests = q.requests.set id req) (hstate : req.state ≠ .approved) : NoneApproved q q' := by
  intro id' req' hreq happroved
  rw [hset, Dict.get?_set] at hreq
  split at hreq
  · cases hreq
    exact absurd happroved hstate
  · exact hreq

/-- A submitted request waits, or is approved by the system at once. -/
theorem submit_state {q q' : ApprovalQueue} {now : Int} {request req : ApprovalRequest}
    (h : q.submit now request = .ok (req, q')) : req.state ≠ .approved := by
  unfold ApprovalQueue.submit at h
  split at h
  · cases h
  · cases h
    split <;> exact nofun

theorem noneApproved_submit {q q' : ApprovalQueue} {now : Int} {request req : ApprovalRequest}
    (h : q.submit now request = .ok (req, q')) : NoneApproved q q' := by
  obtain ⟨-, hset, -⟩ := ApprovalQueue.submit_spec h
  exact noneApproved_set hset (submit_state h)

theorem noneApproved_submitFor {q : ApprovalQueue} {now : Int} {request : ApprovalRequest} {ttlHours : Option Int}
    {filed : ApprovalRequest × ApprovalQueue} (h : q.submitFor now request ttlHours = .ok filed) :
    NoneApproved q filed.2 := by
  unfold ApprovalQueue.submitFor at h
  cases hsubmit : { q with defaultTtlHours := ttlHours.getD q.defaultTtlHours : ApprovalQueue }.submit now request with
  | error e =>
    rw [hsubmit] at h
    cases h
  | ok r =>
    rw [hsubmit] at h
    cases h
    have hkeeps : NoneApproved { q with defaultTtlHours := ttlHours.getD q.defaultTtlHours } r.2 :=
      noneApproved_submit hsubmit
    exact hkeeps

theorem noneApproved_reject {q q' : ApprovalQueue} {now : Int} {requestId actor reason : String}
    (h : q.reject now requestId actor reason = .ok q') : NoneApproved q q' := by
  obtain ⟨req, req', -, -, hset, -, -, hstate⟩ := ApprovalQueue.resolve_spec h
  refine noneApproved_set hset ?_
  rw [hstate]
  exact nofun

theorem noneApproved_cleanupExpired (q : ApprovalQueue) (now : Int) : NoneApproved q (q.cleanupExpired now) := by
  intro id req hreq happroved
  have hget : (q.cleanupExpired now).requests.get? id = (q.requests.get? id).map (expire now) :=
    Dict.get?_map (expire now) q.requests id
  rw [hget] at hreq
  obtain ⟨old, hold, rfl⟩ := Option.map_eq_some_iff.mp hreq
  unfold expire at happroved ⊢
  split at happroved
  · cases happroved
  · next hkept => rw [if_neg hkept, hold]

variable {m : Moment} {o : AutoDevOrchestrator File}

theorem noneApproved_submitForApproval (run : AutoDevRun) (a : RiskAssessment) :
    NoneApproved o.approvals (submitForApproval m o run a).2.approvals := by
  unfold submitForApproval
  dsimp only
  split
  · exact noneApproved_refl _
  · next hsubmit =>
    split
    · exact noneApproved_submit hsubmit
    · exact noneApproved_submit hsubmit

theorem noneApproved_decide (c : Config File) (run : AutoDevRun) (report : VerificationReport) :
    NoneApproved o.approvals (AutoDevOrchestrator.decide c m o run report).2.approvals := by
  unfold AutoDevOrchestrator.decide
  dsimp only
  split
  · exact noneApproved_refl _
  · split
    · exact noneApproved_refl _
    · split
      · exact noneApproved_submitForApproval _ _
      · split
        · exact noneApproved_refl _
        · exact noneApproved_submitForApproval _ _

theorem noneApproved_verify (c : Config File) (run : AutoDevRun)
    (verification : List String → Except PyError VerificationReport) :
    NoneApproved o.approvals (verify c m o run verification).2.approvals := by
  unfold verify
  dsimp only
  split
  · exact noneApproved_refl _
  · exact noneApproved_decide c _ _

theorem noneApproved_build (c : Config File) (run : AutoDevRun) (added : Except PyError (Tree File))
    (verification : List String → Except PyError VerificationReport) :
    NoneApproved o.approvals (build c m o run added verification).2.approvals := by
  unfold build
  dsimp only
  split
  · exact noneApproved_refl _
  · next sandbox _ =>
    split
    · exact noneApproved_refl _
    · split
      · exact noneApproved_refl _
      · next sandbox _ =>
        have hverify := noneApproved_verify (m := m) (o := { o with sandbox }) c
        exact hverify _ _

def approvedAt (now : Int) (actor reason : String) (req : ApprovalRequest) : ApprovalRequest :=
  { req with state := .approved, resolvedAt := some now, resolvedBy := some actor, resolutionReason := some reason }

theorem late_approvedAt (now : Int) (actor reason : String) (req : ApprovalRequest) :
    (approvedAt now actor reason req).late = req.isExpired now := by
  simp [ApprovalRequest.late, approvedAt, ApprovalRequest.isExpired]

theorem approve_open {q : ApprovalQueue} {requestId : String} {req : ApprovalRequest}
    (h : q.open? requestId = some req) (now : Int) (actor reason : String) :
    q.approve now requestId actor reason =
      .ok { q with requests := q.requests.set requestId (approvedAt now actor reason req) } := by
  obtain ⟨hreq, hpending⟩ := Option.filter_eq_some_iff.mp h
  have hpending : req.state = .pending := of_decide_eq_true hpending
  simp [ApprovalQueue.approve, ApprovalQueue.resolve, hreq, ApprovalRequest.isTerminal, hpending, approvedAt]

theorem approve_not_open {q : ApprovalQueue} {requestId : String} (h : q.open? requestId = none) (now : Int)
    (actor reason : String) : ∃ e, q.approve now requestId actor reason = .error e := by
  unfold ApprovalQueue.approve ApprovalQueue.resolve
  split
  · exact ⟨_, rfl⟩
  · next req hreq =>
    have hsettled := Option.filter_eq_none_iff.mp h req hreq
    rw [if_pos (by simpa [ApprovalRequest.isTerminal] using hsettled)]
    exact ⟨_, rfl⟩

/-- The request is approved, late when its time is over. -/
def Approves (now : Int) (q q' : ApprovalQueue) (req : ApprovalRequest) : Prop :=
  ∃ id req', q'.requests = q.requests.set id req' ∧ req'.late = req.isExpired now

theorem approves_open {q : ApprovalQueue} {requestId : String} {req : ApprovalRequest} {now : Int}
    {actor reason : String} {q' : ApprovalQueue} (h : q.open? requestId = some req)
    (happrove : q.approve now requestId actor reason = .ok q') : Approves now q q' req := by
  rw [approve_open h] at happrove
  cases happrove
  exact ⟨requestId, _, rfl, late_approvedAt now actor reason req⟩

/-- A call of the orchestrator that approves nothing, an approval of a run apart. -/
theorem noneApproved_apply (c : Config File) (op : Operation File)
    (hop : ∀ runId actor reason, op ≠ .resolveApproval runId true actor reason) :
    NoneApproved o.approvals (apply c m o op).approvals := by
  cases op with
  | propose runId title rationale diff =>
    simp only [apply]
    unfold propose
    split
    · exact noneApproved_refl _
    · split
      · exact noneApproved_refl _
      · split <;> exact noneApproved_refl _
  | executeBuildAndVerify runId added verification =>
    simp only [apply]
    unfold executeBuildAndVerify
    split
    · exact noneApproved_refl _
    · split
      · exact noneApproved_refl _
      · split
        · exact noneApproved_refl _
        · exact noneApproved_build c _ added verification
  | resolveApproval runId approved actor reason =>
    cases approved with
    | true => exact absurd rfl (hop runId actor reason)
    | false =>
      simp only [apply]
      unfold resolveApproval
      split
      · exact noneApproved_refl _
      · split
        · exact noneApproved_refl _
        · split
          · exact noneApproved_refl _
          · rw [if_neg (by decide)]
            split
            · exact noneApproved_refl _
            · next hreject => exact noneApproved_reject hreject
  | finalizeMerge runId =>
    simp only [apply]
    unfold finalizeMerge
    split
    · exact noneApproved_refl _
    · split
      · exact noneApproved_refl _
      · split <;> exact noneApproved_refl _
  | cancel runId reason =>
    simp only [apply]
    unfold cancel
    split
    · exact noneApproved_refl _
    · split <;> exact noneApproved_refl _
  | cleanupExpired => exact noneApproved_cleanupExpired _ _

def Served (now : Int) (q q' : ApprovalQueue) : Option ApprovalRequest → Prop
  | some req => Approves now q q' req
  | none => NoneApproved q q'

theorem served_resolveApproval (runId actor reason : String) :
    Served m.now o.approvals (resolveApproval m o runId true actor reason).2.approvals
      ((ApprovalCall.orchestrator m (.resolveApproval runId true actor reason)).target o) := by
  unfold resolveApproval
  cases hrun : o.runs.get? runId with
  | none =>
    rw [show (ApprovalCall.orchestrator m (.resolveApproval runId true actor reason)).target o = none by
      simp [ApprovalCall.target, hrun]]
    exact noneApproved_refl _
  | some run =>
    by_cases hstate : run.state = .awaitingApproval
    · have htarget : (ApprovalCall.orchestrator m (.resolveApproval runId true actor reason)).target o =
          run.approvalRequestId.bind o.approvals.open? := by
        simp [ApprovalCall.target, hrun, Option.filter, hstate]
      rw [htarget]
      dsimp only
      rw [if_neg (not_not_intro hstate)]
      cases run.approvalRequestId with
      | none => exact noneApproved_refl _
      | some requestId =>
        dsimp only [Option.bind_some]
        rw [if_pos rfl]
        cases hopen : o.approvals.open? requestId with
        | none =>
          obtain ⟨e, he⟩ := approve_not_open hopen m.now actor reason
          rw [he]
          exact noneApproved_refl _
        | some req =>
          have happrove := approve_open hopen m.now actor reason
          rw [happrove]
          exact approves_open hopen happrove
    · rw [show (ApprovalCall.orchestrator m (.resolveApproval runId true actor reason)).target o = none by
        simp [ApprovalCall.target, hrun, Option.filter, hstate]]
      dsimp only
      rw [if_pos hstate]
      exact noneApproved_refl _

/-- Every call approves its target, or nothing when it has none. -/
theorem served_perform (c : Config File) (call : ApprovalCall File) :
    Served call.now o.approvals (perform c o call).approvals (call.target o) := by
  cases call with
  | orchestrator m op =>
    by_cases hop : ∀ runId actor reason, op ≠ .resolveApproval runId true actor reason
    · have hnone : (ApprovalCall.orchestrator m op).target o = none := by
        unfold ApprovalCall.target
        split
        · next heq => cases heq
        · next heq =>
          cases heq
          exact absurd rfl (hop _ _ _)
        · rfl
      rw [hnone]
      exact noneApproved_apply c op hop
    · push Not at hop
      obtain ⟨runId, actor, reason, rfl⟩ := hop
      exact served_resolveApproval runId actor reason
  | submit now requestId runId riskLevel title summary affectedPaths diffPreview residualRiskScore ttlHours =>
    simp only [ApprovalCall.target, perform]
    cases hsubmit : o.approvals.submitFor now
        { requestId, runId, riskLevel, title, summary, affectedPaths, diffPreview, residualRiskScore } ttlHours with
    | error e => exact noneApproved_refl _
    | ok filed => exact noneApproved_submitFor hsubmit
  | approve now requestId actor reason =>
    simp only [ApprovalCall.target, perform]
    cases hopen : o.approvals.open? requestId with
    | none =>
      obtain ⟨e, he⟩ := approve_not_open hopen now actor reason
      rw [he]
      exact noneApproved_refl _
    | some req =>
      have happrove := approve_open hopen now actor reason
      rw [happrove]
      exact approves_open hopen happrove
  | reject now requestId actor reason =>
    simp only [ApprovalCall.target, perform]
    cases hreject : o.approvals.reject now requestId actor reason with
    | error e => exact noneApproved_refl _
    | ok q => exact noneApproved_reject hreject

/-- A sweep at the time of an approval leaves nothing open that has expired. -/
theorem open?_cleanupExpired {q : ApprovalQueue} {now : Int} {requestId : String} {req : ApprovalRequest}
    (h : (q.cleanupExpired now).open? requestId = some req) : req.isExpired now = false := by
  obtain ⟨hreq, hpending⟩ := Option.filter_eq_some_iff.mp h
  have hpending : req.state = .pending := of_decide_eq_true hpending
  have hget : (q.cleanupExpired now).requests.get? requestId = (q.requests.get? requestId).map (expire now) :=
    Dict.get?_map (expire now) q.requests requestId
  rw [hget] at hreq
  obtain ⟨old, -, rfl⟩ := Option.map_eq_some_iff.mp hreq
  unfold expire at hpending ⊢
  split at hpending
  · cases hpending
  · next hkept =>
    rw [if_neg hkept]
    exact Bool.eq_false_iff.mpr fun hexpired => hkept ⟨hpending, hexpired⟩

/-! ## Every sequence of calls -/

theorem punctual_opened (ttlHours : Int) (budget : RateBudgetTracker) :
    Punctual (opened ttlHours budget : AutoDevOrchestrator File) where
  requests _ _ hreq := by cases hreq
  runs _ _ hrun := by cases hrun

/-- What no late approval let through is punctual as a whole. -/
theorem punctual_iff {o : AutoDevOrchestrator File} :
    Punctual o ↔ ∀ id req, o.approvals.requests.get? id = some req → req.late = false := by
  refine ⟨Punctual.requests, fun h => ⟨h, ?_⟩⟩
  rintro id run - ⟨-, requestId, req, -, hreq, hlate⟩
  exact Bool.false_ne_true ((h requestId req hreq).symm.trans hlate)

theorem punctual_perform_iff (c : Config File) (call : ApprovalCall File) (h : Punctual o) :
    Punctual (perform c o call) ↔ HasTime o call := by
  have hserved := served_perform (o := o) c call
  rw [punctual_iff]
  cases htarget : call.target o with
  | none =>
    rw [htarget] at hserved
    refine iff_of_true (fun id req hreq => ?_) fun req hreq => ?_
    · by_contra hlate
      have happroved : req.state = .approved := by simp_all [ApprovalRequest.late]
      exact hlate (h.requests id req (hserved id req hreq happroved))
    · rw [htarget] at hreq
      cases hreq
  | some req =>
    rw [htarget] at hserved
    obtain ⟨id, req', hset, hlate⟩ := hserved
    constructor
    · intro hpunctual req'' hreq''
      cases htarget.symm.trans hreq''
      rw [← hlate]
      exact hpunctual id req' (by rw [hset, Dict.get?_set_self])
    · intro htime id' req'' hreq''
      rw [hset, Dict.get?_set] at hreq''
      split at hreq''
      · cases hreq''
        rw [hlate]
        exact htime req htarget
      · exact h.requests id' req'' hreq''

/-- **No request is approved at or after its deadline, and no run is let through by such a request, all along
just when whatever is approved while it is open has time left.** -/
theorem approvals_punctual_iff (c : Config File) (ttlHours : Int) (budget : RateBudgetTracker)
    (calls : List (ApprovalCall File)) :
    (∀ before, before <+: calls → Punctual (Lib.run (perform c) (opened ttlHours budget) before)) ↔
      Lib.Admitted (perform c) HasTime (opened ttlHours budget) calls :=
  Lib.forall_prefix_iff_admitted (fun _ _ (_ : True) => trivial)
    (fun _ call _ hpunctual => punctual_perform_iff c call hpunctual) trivial (punctual_opened ttlHours budget) calls

def overdueMerge : List (ApprovalCall String) :=
  [.orchestrator { now := 0 } (.propose "r1" "a" "b" "+y\n"),
    .orchestrator { now := 1 } (.executeBuildAndVerify "r1" (.ok []) fun _ => .ok { stages := [⟨"lint", "pass"⟩] }),
    .orchestrator { now := 90000 } (.resolveApproval "r1" true "h" ""),
    .orchestrator { now := 90001 } (.finalizeMerge "r1")]

/-- The request expires at 86401, is approved at 90000, and the run is merged. -/
theorem overdue_request_merges :
    ¬ ∀ calls : List (ApprovalCall String), ∀ before, before <+: calls →
      Punctual (Lib.run (perform storeConfig) (opened 24 { current := { date := 0 } }) before) := by
  intro h
  have hpunctual := h overdueMerge overdueMerge (List.prefix_refl _)
  have hmerged : (((Lib.run (perform storeConfig) (opened 24 { current := { date := 0 } }) overdueMerge).runs.get?
      "r1").map fun run => (run.state, run.approvalRequestId)) = some (.merged, some "appr-r1") := by
    decide +kernel
  have hlate : (((Lib.run (perform storeConfig) (opened 24 { current := { date := 0 } })
      overdueMerge).approvals.requests.get? "appr-r1").map (·.late)) = some true := by
    decide +kernel
  obtain ⟨run, hrun, hpair⟩ := Option.map_eq_some_iff.mp hmerged
  obtain ⟨hstate, hid⟩ := Prod.mk.inj hpair
  obtain ⟨req, hreq, hreqLate⟩ := Option.map_eq_some_iff.mp hlate
  exact hpunctual.runs "r1" run hrun ⟨.inr hstate, "appr-r1", req, hid, hreq, hreqLate⟩

end Occp.Autodev
