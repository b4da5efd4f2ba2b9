import Occp.Autodev.AutoApproval
import Occp.Lib.Runs

/-!
# What a merge rests on

Only `finalize_merge` merges, and only an approved run. A run is approved by its own
request in the queue, which is submitted after the verification passed.
-/

namespace Occp.Autodev

open AutoDevOrchestrator

variable {File : Type}

/-! ## The queue -/

/-- A request stays its run's, and what was decided stays decided. -/
def QueueKeeps (q q' : ApprovalQueue) : Prop :=
  ∀ id req, q.requests.get? id = some req → ∃ req', q'.requests.get? id = some req' ∧
    req'.runId = req.runId ∧ (req.state ≠ .pending → req'.state = req.state)

theorem queueKeeps_refl (q : ApprovalQueue) : QueueKeeps q q := fun _ req h => ⟨req, h, rfl, fun _ => rfl⟩

theorem queueKeeps_submit {q q' : ApprovalQueue} {now : Int} {request req : ApprovalRequest}
    (h : q.submit now request = .ok (req, q')) : QueueKeeps q q' := by
  obtain ⟨hnone, hset, -⟩ := ApprovalQueue.submit_spec h
  intro id old hold
  have hne : id ≠ request.requestId := by
    rintro rfl
    cases hnone.symm.trans hold
  exact ⟨old, by rw [hset, Dict.get?_set_of_ne _ _ _ _ hne, hold], rfl, fun _ => rfl⟩

theorem queueKeeps_resolve {q q' : ApprovalQueue} {now : Int} {requestId actor reason : String}
    {newState : ApprovalState} (h : q.resolve now requestId newState actor reason = .ok q') : QueueKeeps q q' := by
  obtain ⟨req, req', hreq, hpending, hset, hrun, -, -⟩ := ApprovalQueue.resolve_spec h
  intro id old hold
  rw [hset]
  by_cases hid : id = requestId
  · subst hid
    cases hreq.symm.trans hold
    exact ⟨req', Dict.get?_set_self .., hrun, fun hdecided => absurd hpending hdecided⟩
  · exact ⟨old, by rw [Dict.get?_set_of_ne _ _ _ _ hid, hold], rfl, fun _ => rfl⟩

/-- What `cleanup_expired` makes of one request. -/
def expire (now : Int) (req : ApprovalRequest) : ApprovalRequest :=
  if req.state = .pending ∧ req.isExpired now then
    { req with
      state := .timeout, resolvedAt := some now, resolvedBy := some "system"
      resolutionReason := some "ttl_expired" }
  else req

theorem queueKeeps_cleanupExpired (q : ApprovalQueue) (now : Int) : QueueKeeps q (q.cleanupExpired now) := by
  intro id req hreq
  have hget : (q.cleanupExpired now).requests.get? id = some (expire now req) := by
    have hmap := Dict.get?_map (expire now) q.requests id
    rw [hreq] at hmap
    exact hmap
  refine ⟨_, hget, ?_, fun hdecided => ?_⟩
  · unfold expire
    split <;> rfl
  · unfold expire
    rw [if_neg fun h => hdecided h.1]

/-! ## Runs that passed the gate -/

/-- The verification passed, and the risk was not rejected. -/
structure Checked (run : AutoDevRun) : Prop where
  report : ∃ report, run.verificationReport = some report ∧ report.passed = true
  assessment : ∃ a, run.riskAssessment = some a ∧ a.recommendation ≠ .reject

/-- The queue has the run's own request. -/
def Requested (q : ApprovalQueue) (run : AutoDevRun) : Prop :=
  ∃ id req, run.approvalRequestId = some id ∧ q.requests.get? id = some req ∧ req.runId = run.runId

/-- The run's own request is approved, by a human or automatically. -/
def Granted (q : ApprovalQueue) (run : AutoDevRun) : Prop :=
  ∃ id req, run.approvalRequestId = some id ∧ q.requests.get? id = some req ∧ req.runId = run.runId ∧
    (req.state = .approved ∨ req.state = .autoApproved)

theorem requested_mono {q q' : ApprovalQueue} {run : AutoDevRun} (h : QueueKeeps q q') (hr : Requested q run) :
    Requested q' run := by
  obtain ⟨id, req, hid, hreq, hrun⟩ := hr
  obtain ⟨req', hreq', hrun', -⟩ := h id req hreq
  exact ⟨id, req', hid, hreq', hrun'.trans hrun⟩

theorem granted_mono {q q' : ApprovalQueue} {run : AutoDevRun} (h : QueueKeeps q q') (hr : Granted q run) :
    Granted q' run := by
  obtain ⟨id, req, hid, hreq, hrun, hstate⟩ := hr
  obtain ⟨req', hreq', hrun', hkeeps⟩ := h id req hreq
  have hdecided : req.state ≠ .pending := by
    rcases hstate with hs | hs <;> rw [hs] <;> decide
  exact ⟨id, req', hid, hreq', hrun'.trans hrun, by rw [hkeeps hdecided]; exact hstate⟩

/-- What the state of a run says about it. -/
structure Gated (q : ApprovalQueue) (run : AutoDevRun) : Prop where
  awaiting : run.state = .awaitingApproval → Checked run ∧ Requested q run
  approved : run.state = .approved → Checked run ∧ Granted q run
  merged : run.state = .merged → Checked run ∧ Granted q run

theorem gated_mono {q q' : ApprovalQueue} {run : AutoDevRun} (h : QueueKeeps q q') (hr : Gated q run) :
    Gated q' run where
  awaiting hs := (hr.awaiting hs).imp_right (requested_mono h)
  approved hs := (hr.approved hs).imp_right (granted_mono h)
  merged hs := (hr.merged hs).imp_right (granted_mono h)

/-- The states that the gate does not guard. -/
def RunState.ungated : RunState → Bool
  | .awaitingApproval | .approved | .merged => false
  | _ => true

theorem gated_of_ungated {q : ApprovalQueue} {run : AutoDevRun} (h : run.state.ungated = true) : Gated q run where
  awaiting hs := by rw [hs] at h; cases h
  approved hs := by rw [hs] at h; cases h
  merged hs := by rw [hs] at h; cases h

def GateInv (o : AutoDevOrchestrator File) : Prop :=
  ∀ id run, o.runs.get? id = some run → run.runId = id ∧ Gated o.approvals run

/-! ## One operation -/

/-- The merged run was approved just before, on the same verification, risk and request. -/
def MergedFrom (o : AutoDevOrchestrator File) (op : Operation File) (run : AutoDevRun) : Prop :=
  op = .finalizeMerge run.runId ∧ ∃ approved, o.runs.get? run.runId = some approved ∧ approved.state = .approved ∧
    approved.runId = run.runId ∧ approved.verificationReport = run.verificationReport ∧
    approved.riskAssessment = run.riskAssessment ∧ approved.approvalRequestId = run.approvalRequestId

/-- The operation replaces at most one run, by one that the gate lets through. -/
structure Effect (o : AutoDevOrchestrator File) (op : Operation File) (o' : AutoDevOrchestrator File) : Prop where
  queue : QueueKeeps o.approvals o'.approvals
  runs : o'.runs = o.runs ∨ ∃ run, o'.runs = o.runs.set run.runId run ∧ Gated o'.approvals run ∧
    (run.state = .merged → MergedFrom o op run)

theorem gateInv_of_effect {o o' : AutoDevOrchestrator File} {op : Operation File} (h : GateInv o)
    (heff : Effect o op o') : GateInv o' := by
  intro id run hrun
  have hold (hold : o.runs.get? id = some run) : run.runId = id ∧ Gated o'.approvals run :=
    (h id run hold).imp_right (gated_mono heff.queue)
  rcases heff.runs with hsame | ⟨run', hset, hgated, -⟩
  · rw [hsame] at hrun
    exact hold hrun
  · rw [hset, Dict.get?_set] at hrun
    split at hrun
    · next hid =>
      cases hrun
      exact ⟨hid.symm, hgated⟩
    · exact hold hrun

variable {o o' : AutoDevOrchestrator File} {op : Operation File}

theorem effect_none (hruns : o'.runs = o.runs) (hqueue : QueueKeeps o.approvals o'.approvals) : Effect o op o' :=
  ⟨hqueue, .inl hruns⟩

/-- A transition to a state that the gate does not guard. -/
theorem effect_settle (run : AutoDevRun) (target : RunState) (reason : String) (hruns : o'.runs = o.runs)
    (hqueue : QueueKeeps o.approvals o'.approvals) (htarget : target.ungated = true) :
    Effect o op (settle o' run target reason).2 := by
  refine ⟨hqueue, .inr ⟨run.recordTransition target reason, ?_, gated_of_ungated htarget, fun hs => ?_⟩⟩
  · rw [← hruns]
    rfl
  · have hs : target = .merged := hs
    rw [hs] at htarget
    cases htarget

theorem effect_abandon (run : AutoDevRun) (target : RunState) (error reason : String) (hruns : o'.runs = o.runs)
    (hqueue : QueueKeeps o.approvals o'.approvals) (htarget : target.ungated = true) :
    Effect o op (abandon o' run target error reason).2 :=
  effect_settle _ target reason hruns hqueue htarget

theorem queueKeeps_trans {q q' q'' : ApprovalQueue} (h : QueueKeeps q q') (h' : QueueKeeps q' q'') :
    QueueKeeps q q'' := by
  intro id req hreq
  obtain ⟨req', hreq', hrun, hstate⟩ := h id req hreq
  obtain ⟨req'', hreq'', hrun', hstate'⟩ := h' id req' hreq'
  refine ⟨req'', hreq'', hrun'.trans hrun, fun hdecided => ?_⟩
  have hsame := hstate hdecided
  exact (hstate' (by rw [hsame]; exact hdecided)).trans hsame

/-- The run is approved by its new request, or waits for it. -/
theorem effect_submitForApproval (m : Moment) (run : AutoDevRun) (a : RiskAssessment) (hruns : o'.runs = o.runs)
    (hqueue : QueueKeeps o.approvals o'.approvals) (hchecked : Checked run) (hstate : run.state.ungated = true) :
    Effect o op (submitForApproval m o' run a).2 := by
  unfold submitForApproval
  dsimp only
  split
  · refine ⟨hqueue, .inr ⟨run, ?_, gated_of_ungated hstate, fun hs => ?_⟩⟩
    · rw [← hruns]
      rfl
    · rw [hs] at hstate
      cases hstate
  · next req approvals hsubmit =>
    have hkeeps := queueKeeps_trans hqueue (queueKeeps_submit hsubmit)
    obtain ⟨-, hset, hid, hrun, -, -⟩ := ApprovalQueue.submit_spec hsubmit
    have hget : approvals.requests.get? req.requestId = some req := by
      rw [hset, hid, Dict.get?_set_self]
    split
    · next happroved =>
      refine ⟨hkeeps, .inr ⟨_, by rw [← hruns]; rfl, ⟨fun hs => ?_, fun _ => ?_, fun hs => ?_⟩, fun hs => ?_⟩⟩
      · cases hs
      · exact ⟨⟨hchecked.report, hchecked.assessment⟩, req.requestId, req, rfl, hget, hrun, .inr happroved⟩
      · cases hs
      · cases hs
    · refine ⟨hkeeps, .inr ⟨_, by rw [← hruns]; rfl, ⟨fun _ => ?_, fun hs => ?_, fun hs => ?_⟩, fun hs => ?_⟩⟩
      · exact ⟨⟨hchecked.report, hchecked.assessment⟩, req.requestId, req, rfl, hget, hrun⟩
      · cases hs
      · cases hs
      · cases hs

theorem effect_decide (c : Config File) (m : Moment) (run : AutoDevRun) (report : VerificationReport)
    (hruns : o'.runs = o.runs) (hqueue : QueueKeeps o.approvals o'.approvals)
    (hreport : run.verificationReport = some report) (hstate : run.state.ungated = true) :
    Effect o op (AutoDevOrchestrator.decide c m o' run report).2 := by
  unfold AutoDevOrchestrator.decide
  dsimp only
  split
  · exact effect_abandon _ _ _ _ hruns hqueue rfl
  · next hpassed =>
    have hpassed : report.passed = true := by simpa using hpassed
    split
    · exact effect_abandon _ _ _ _ hruns hqueue rfl
    · next hreject =>
      have hchecked : Checked { run with
          riskAssessment := some (c.risk.assess report run.filesModified (run.proposedDiff.toList.count '\n')) } :=
        ⟨⟨report, hreport, hpassed⟩, ⟨_, rfl, hreject⟩⟩
      split
      · exact effect_submitForApproval m _ _ hruns hqueue hchecked hstate
      · split
        · exact effect_abandon _ _ _ _ hruns hqueue rfl
        · exact effect_submitForApproval m _ _ hruns hqueue hchecked hstate

theorem effect_build (c : Config File) (m : Moment) (run : AutoDevRun) (added : Except PyError (Tree File))
    (verification : List String → Except PyError VerificationReport) :
    Effect o op (build c m o run added verification).2 := by
  unfold build
  dsimp only
  split
  · exact effect_settle _ _ _ rfl (queueKeeps_refl _) rfl
  · split
    · exact effect_abandon _ _ _ _ rfl (queueKeeps_refl _) rfl
    · split
      · exact effect_abandon _ _ _ _ rfl (queueKeeps_refl _) rfl
      · unfold verify
        dsimp only
        split
        · exact effect_abandon _ _ _ _ rfl (queueKeeps_refl _) rfl
        · exact effect_decide c m _ _ rfl (queueKeeps_refl _) rfl rfl

theorem effect_resolveApproval (h : GateInv o) (m : Moment) (runId : String) (approved : Bool)
    (actor reason : String) : Effect o op (resolveApproval m o runId approved actor reason).2 := by
  unfold resolveApproval
  split
  · exact effect_none rfl (queueKeeps_refl _)
  · next run hrun =>
    split
    · exact effect_none rfl (queueKeeps_refl _)
    · next hstate =>
      obtain ⟨hchecked, id, req, hid, hreq, hrunId⟩ := (h runId run hrun).2.awaiting (not_ne_iff.mp hstate)
      split
      · exact effect_none rfl (queueKeeps_refl _)
      · next requestId hrequestId =>
        cases hid.symm.trans hrequestId
        split
        · split
          · exact effect_none rfl (queueKeeps_refl _)
          · next approvals happrove =>
            -- The approved request is the one that the run was waiting for.
            obtain ⟨old, req', hold, -, hset, hsame, -, hstate'⟩ := ApprovalQueue.resolve_spec happrove
            cases hold.symm.trans hreq
            refine ⟨queueKeeps_resolve happrove, .inr ⟨_, rfl, ⟨fun hs => ?_, fun _ => ?_, fun hs => ?_⟩, fun hs => ?_⟩⟩
            · cases hs
            · exact ⟨⟨hchecked.report, hchecked.assessment⟩, id, req', hid,
                (congrArg (Dict.get? · id) hset).trans (Dict.get?_set_self ..), hsame.trans hrunId, .inl hstate'⟩
            · cases hs
            · cases hs
        · split
          · exact effect_none rfl (queueKeeps_refl _)
          · next approvals hreject => exact effect_settle _ _ _ rfl (queueKeeps_resolve hreject) rfl

theorem effect_finalizeMerge (h : GateInv o) (m : Moment) (runId : String) :
    Effect o (.finalizeMerge runId) (finalizeMerge m o runId).2 := by
  unfold finalizeMerge
  split
  · exact effect_none rfl (queueKeeps_refl _)
  · next run hrun =>
    obtain ⟨hid, hgated⟩ := h runId run hrun
    subst hid
    split
    · exact effect_settle _ _ _ rfl (queueKeeps_refl _) rfl
    · split
      · exact effect_none rfl (queueKeeps_refl _)
      · next hstate =>
        have hstate := not_ne_iff.mp hstate
        obtain ⟨hchecked, hgranted⟩ := hgated.approved hstate
        refine ⟨queueKeeps_refl _, .inr ⟨_, rfl, ⟨fun hs => ?_, fun hs => ?_, fun _ => ?_⟩, fun _ => ?_⟩⟩
        · cases hs
        · cases hs
        · exact ⟨⟨hchecked.report, hchecked.assessment⟩, hgranted⟩
        · exact ⟨rfl, run, hrun, hstate, rfl, rfl, rfl, rfl⟩

theorem effect_propose (m : Moment) (runId title rationale diff : String) :
    Effect o op (propose m o runId title rationale diff).2 := by
  unfold propose
  split
  · exact effect_none rfl (queueKeeps_refl _)
  · split
    · exact effect_none rfl (queueKeeps_refl _)
    · split
      · exact effect_none rfl (queueKeeps_refl _)
      · exact effect_settle _ _ _ rfl (queueKeeps_refl _) rfl

theorem effect_executeBuildAndVerify (c : Config File) (m : Moment) (runId : String)
    (added : Except PyError (Tree File)) (verification : List String → Except PyError VerificationReport) :
    Effect o op (executeBuildAndVerify c m o runId added verification).2 := by
  unfold executeBuildAndVerify
  split
  · exact effect_none rfl (queueKeeps_refl _)
  · split
    · exact effect_settle _ _ _ rfl (queueKeeps_refl _) rfl
    · split
      · exact effect_none rfl (queueKeeps_refl _)
      · exact effect_build c m _ added verification

theorem effect_cancel (runId reason : String) : Effect o op (cancel o runId reason).2 := by
  unfold cancel
  split
  · exact effect_none rfl (queueKeeps_refl _)
  · split
    · exact effect_none rfl (queueKeeps_refl _)
    · exact effect_settle _ _ _ rfl (queueKeeps_refl _) rfl

theorem effect_apply (c : Config File) (m : Moment) (op : Operation File) (h : GateInv o) :
    Effect o op (apply c m o op) := by
  cases op with
  | propose runId title rationale diff => exact effect_propose m runId title rationale diff
  | executeBuildAndVerify runId added verification => exact effect_executeBuildAndVerify c m runId added verification
  | resolveApproval runId approved actor reason => exact effect_resolveApproval h m runId approved actor reason
  | finalizeMerge runId => exact effect_finalizeMerge h m runId
  | cancel runId reason => exact effect_cancel runId reason
  | cleanupExpired => exact effect_none rfl (queueKeeps_cleanupExpired _ _)

/-! ## Every sequence of operations -/

/-- The state after the operations, each at its moment. -/
def runAll (c : Config File) (o : AutoDevOrchestrator File) (steps : List (Moment × Operation File)) :
    AutoDevOrchestrator File :=
  Lib.run (fun o step => apply c step.1 o step.2) o steps

theorem gateInv_runAll (c : Config File) (o : AutoDevOrchestrator File) (hruns : o.runs = [])
    (steps : List (Moment × Operation File)) : GateInv (runAll c o steps) := by
  refine Lib.run_invariant GateInv (fun o step h => gateInv_of_effect h (effect_apply c step.1 step.2 h)) ?_ steps
  intro id run hrun
  rw [hruns] at hrun
  cases hrun

/-- **A merged run had passed its verification, was not rejected, and had been approved by its own request
when it was merged.** -/
theorem merged_after_approval (c : Config File) (o : AutoDevOrchestrator File) (hruns : o.runs = [])
    (steps : List (Moment × Operation File)) (id : String) (run : AutoDevRun)
    (hrun : (runAll c o steps).runs.get? id = some run) (hmerged : run.state = .merged) :
    Checked run ∧ ∃ before m after approved, steps = before ++ (m, .finalizeMerge id) :: after ∧
      (runAll c o before).runs.get? id = some approved ∧ approved.state = .approved ∧ approved.runId = id ∧
      approved.verificationReport = run.verificationReport ∧ approved.riskAssessment = run.riskAssessment ∧
      Granted (runAll c o before).approvals approved := by
  refine ⟨((gateInv_runAll c o hruns steps id run hrun).2.merged hmerged).1, ?_⟩
  have hstart : ¬ o.runs.get? id = some run := by
    rw [hruns]
    exact nofun
  obtain ⟨before, ⟨m, op⟩, after, rfl, hbefore, hturn⟩ :=
    Lib.run_turn (p := fun o : AutoDevOrchestrator File => o.runs.get? id = some run) hstart hrun
  have hbefore : (runAll c o before).runs.get? id ≠ some run := hbefore
  have hturn : (apply c m (runAll c o before) op).runs.get? id = some run := hturn
  have hinv := gateInv_runAll c o hruns before
  obtain ⟨-, hsame | ⟨run', hset, -, hfrom⟩⟩ := effect_apply c m op hinv
  · exact absurd (hsame ▸ hturn) hbefore
  · rw [hset, Dict.get?_set] at hturn
    split at hturn
    · next hid =>
      cases hturn
      obtain ⟨hop, approved, happroved, hstate, hrunId, hreport, hrisk, -⟩ := hfrom hmerged
      subst hid hop
      exact ⟨before, m, after, approved, rfl, happroved, hstate, hrunId, hreport, hrisk,
        ((hinv _ approved happroved).2.approved hstate).2⟩
    · exact absurd hturn hbefore

/-- A change of the store, which a human has to approve. -/
def storeConfig : Config String where
  git :=
    { apply := fun tree _ => .ok tree
      diffHead := fun _ _ => .ok [
        { path := "store/a.py", side := .modified, extended := [], hunks := ["@@ -1 +1 @@", "-x", "+y"] }] }
  risk := { modifier := Evaluation.boundaries, repr := fun _ => "[...]" }

def reviewedMerge : List (Moment × Operation String) :=
  [({ now := 0 }, .propose "r1" "a" "b" "+y\n"),
    ({ now := 1 }, .executeBuildAndVerify "r1" (.ok []) fun _ => .ok { stages := [⟨"lint", "pass"⟩] }),
    ({ now := 2 }, .resolveApproval "r1" true "h" ""),
    ({ now := 3 }, .finalizeMerge "r1")]

theorem reviewedMerge_merges :
    ((runAll storeConfig { budget := { current := { date := 0 } } } reviewedMerge).runs.get? "r1").map (·.state) =
      some .merged := by
  decide +kernel

/-- The reviewed change is merged on the approval of its own request. -/
theorem reviewedMerge_approved :
    ∃ run before m after approved, Checked run ∧ reviewedMerge = before ++ (m, .finalizeMerge "r1") :: after ∧
      approved.verificationReport = run.verificationReport ∧
      Granted (runAll storeConfig { budget := { current := { date := 0 } } } before).approvals approved := by
  obtain ⟨run, hrun, hstate⟩ := Option.map_eq_some_iff.mp reviewedMerge_merges
  obtain ⟨hchecked, before, m, after, approved, hsplit, -, -, -, hreport, -, hgranted⟩ :=
    merged_after_approval storeConfig { budget := { current := { date := 0 } } } rfl reviewedMerge "r1" run hrun hstate
  exact ⟨run, before, m, after, approved, hchecked, hsplit, hreport, hgranted⟩

end Occp.Autodev
