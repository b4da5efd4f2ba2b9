import Occp.Autodev.MergeGate

/-!
# The daily limits

Proposals are checked against the budget before they are recorded, on readings of the clock
that may lie on two days. A low-risk merge is recorded without a check.
-/

namespace Occp.Autodev

open AutoDevOrchestrator

variable {File : Type}

/-! ## The tracker -/

structure WithinLimits (b : RateBudgetTracker) : Prop where
  runs : b.current.runsStarted ≤ b.limits.maxRunsPerDay
  lowRiskMerges : b.current.lowRiskMerges ≤ b.limits.maxLowRiskMergesPerDay
  mediumPlus : b.current.mediumPlusProposals ≤ b.limits.maxMediumPlusProposalsPerDay
  compute : b.current.computeSecondsUsed ≤ b.limits.maxComputeSecondsPerDay

namespace RateBudgetTracker

@[simp] theorem rollover_limits (b : RateBudgetTracker) (now : Int) : (b.rollover now).limits = b.limits := by
  unfold rollover
  dsimp only
  split <;> rfl

/-- After the day has changed all counters are at zero. -/
theorem rollover_cases (b : RateBudgetTracker) (now : Int) :
    b.rollover now = b ∨ (b.rollover now).current = { date := now / 86400 } := by
  unfold rollover
  dsimp only
  split
  · exact .inl rfl
  · exact .inr rfl

theorem rollover_within {b : RateBudgetTracker} (h : WithinLimits b) (hzero : 0 ≤ b.limits.maxComputeSecondsPerDay)
    (now : Int) : WithinLimits (b.rollover now) := by
  rcases b.rollover_cases now with hsame | hnew
  · rw [hsame]
    exact h
  · constructor <;> simp [hnew, hzero]

theorem checkCanStartRun_iff (b : RateBudgetTracker) (now : Int) :
    (b.checkCanStartRun now).1 = .ok () ↔ (b.rollover now).current.runsStarted < b.limits.maxRunsPerDay := by
  unfold checkCanStartRun
  dsimp only
  split <;> simp_all

theorem checkCanSubmitMediumPlus_iff (b : RateBudgetTracker) (now : Int) :
    (b.checkCanSubmitMediumPlus now).1 = .ok () ↔
      (b.rollover now).current.mediumPlusProposals < b.limits.maxMediumPlusProposalsPerDay := by
  unfold checkCanSubmitMediumPlus
  dsimp only
  split <;> simp_all

theorem checkCanAutoMergeLow_iff (b : RateBudgetTracker) (now : Int) :
    (b.checkCanAutoMergeLow now).1 = .ok () ↔
      (b.rollover now).current.lowRiskMerges < b.limits.maxLowRiskMergesPerDay := by
  unfold checkCanAutoMergeLow
  dsimp only
  split <;> simp_all

theorem checkCanStartRun_tracker (b : RateBudgetTracker) (now : Int) : (b.checkCanStartRun now).2 = b.rollover now := by
  unfold checkCanStartRun
  dsimp only
  split <;> rfl

theorem checkCanSubmitMediumPlus_tracker (b : RateBudgetTracker) (now : Int) :
    (b.checkCanSubmitMediumPlus now).2 = b.rollover now := by
  unfold checkCanSubmitMediumPlus
  dsimp only
  split <;> rfl

/-- A run that was let in fits, on the day of the check and on a later one. -/
theorem recordRunStarted_within {b : RateBudgetTracker} (h : WithinLimits b)
    (hzero : 0 ≤ b.limits.maxComputeSecondsPerDay) (hfits : b.current.runsStarted < b.limits.maxRunsPerDay) (now : Int) :
    WithinLimits (b.recordRunStarted now) := by
  unfold recordRunStarted
  dsimp only
  obtain ⟨hruns, hlow, hmedium, hcompute⟩ := h
  rcases b.rollover_cases now with hsame | hnew
  · rw [hsame]
    exact ⟨hfits, hlow, hmedium, hcompute⟩
  · constructor <;> simp [hnew, hzero]
    omega

theorem recordMediumPlusProposal_within {b : RateBudgetTracker} (h : WithinLimits b)
    (hzero : 0 ≤ b.limits.maxComputeSecondsPerDay)
    (hfits : b.current.mediumPlusProposals < b.limits.maxMediumPlusProposalsPerDay) (now : Int) :
    WithinLimits (b.recordMediumPlusProposal now) := by
  unfold recordMediumPlusProposal
  dsimp only
  obtain ⟨hruns, hlow, hmedium, hcompute⟩ := h
  rcases b.rollover_cases now with hsame | hnew
  · rw [hsame]
    exact ⟨hruns, hlow, hfits, hcompute⟩
  · constructor <;> simp [hnew, hzero]
    omega

/-- A merge keeps the limits just when the check that it lacks would let it in. -/
theorem recordLowRiskMerge_within_iff {b : RateBudgetTracker} (h : WithinLimits b)
    (hzero : 0 ≤ b.limits.maxComputeSecondsPerDay) (now : Int) :
    WithinLimits (b.recordLowRiskMerge now) ↔ (b.checkCanAutoMergeLow now).1 = .ok () := by
  rw [checkCanAutoMergeLow_iff]
  obtain ⟨hruns, -, hmedium, hcompute⟩ := rollover_within h hzero now
  rw [rollover_limits] at hruns hmedium hcompute
  have hrecorded : (b.recordLowRiskMerge now).current.lowRiskMerges = (b.rollover now).current.lowRiskMerges + 1 := rfl
  have hlimits : (b.recordLowRiskMerge now).limits = b.limits := b.rollover_limits now
  constructor
  · intro hwithin
    have hmerges := hwithin.lowRiskMerges
    rw [hrecorded, hlimits] at hmerges
    omega
  · intro hfits
    refine ⟨?_, ?_, ?_, ?_⟩ <;> rw [hlimits]
    · exact hruns
    · rw [hrecorded]
      omega
    · exact hmedium
    · exact hcompute

end RateBudgetTracker

/-! ## What an operation does to the tracker -/

def Operation.mergesLow (m : Moment) (o : AutoDevOrchestrator File) : Operation File → Bool
  | .finalizeMerge runId =>
    m.killSwitch.isNone && (o.runs.get? runId).any fun run =>
      run.state = .approved && run.riskAssessment.any (·.riskLevel = .low)
  | _ => false

/-- The tracker after an operation at this moment, when it does not merge. -/
inductive Charged (m : Moment) (b : RateBudgetTracker) : RateBudgetTracker → Prop
  | untouched : Charged m b b
  | checked : Charged m b (b.rollover m.now)
  | runStarted (h : (b.checkCanStartRun m.now).1 = .ok ()) :
      Charged m b ((b.rollover m.now).recordRunStarted m.recorded)
  | mediumPlus (h : (b.checkCanSubmitMediumPlus m.now).1 = .ok ()) :
      Charged m b ((b.rollover m.now).recordMediumPlusProposal m.recorded)

variable {m : Moment} {b b' : RateBudgetTracker} {o : AutoDevOrchestrator File}

theorem Charged.limits (h : Charged m b b') : b'.limits = b.limits := by
  cases h <;> simp [RateBudgetTracker.recordRunStarted, RateBudgetTracker.recordMediumPlusProposal]

theorem Charged.within (h : Charged m b b') (hwithin : WithinLimits b)
    (hzero : 0 ≤ b.limits.maxComputeSecondsPerDay) : WithinLimits b' := by
  have hrolled := RateBudgetTracker.rollover_within hwithin hzero m.now
  have hzero' : 0 ≤ (b.rollover m.now).limits.maxComputeSecondsPerDay := by simpa using hzero
  cases h with
  | untouched => exact hwithin
  | checked => exact hrolled
  | runStarted h =>
    rw [RateBudgetTracker.checkCanStartRun_iff] at h
    exact RateBudgetTracker.recordRunStarted_within hrolled hzero' (by simpa using h) m.recorded
  | mediumPlus h =>
    rw [RateBudgetTracker.checkCanSubmitMediumPlus_iff] at h
    exact RateBudgetTracker.recordMediumPlusProposal_within hrolled hzero' (by simpa using h) m.recorded

theorem budget_submitForApproval (run : AutoDevRun) (a : RiskAssessment) :
    (submitForApproval m o run a).2.budget = o.budget := by
  unfold submitForApproval
  dsimp only
  split
  · rfl
  · split <;> rfl

theorem charged_decide (c : Config File) (run : AutoDevRun) (report : VerificationReport) (hbudget : o.budget = b) :
    Charged m b (AutoDevOrchestrator.decide c m o run report).2.budget := by
  subst hbudget
  unfold AutoDevOrchestrator.decide
  dsimp only
  split
  · exact .untouched
  · split
    · exact .untouched
    · split
      · rw [budget_submitForApproval]
        exact .untouched
      · have htracker := o.budget.checkCanSubmitMediumPlus_tracker m.now
        split
        · next e budget hcheck =>
          rw [hcheck] at htracker
          rw [show budget = o.budget.rollover m.now from htracker]
          exact .checked
        · next budget hcheck =>
          rw [budget_submitForApproval]
          rw [hcheck] at htracker
          rw [show budget = o.budget.rollover m.now from htracker]
          exact .mediumPlus (by rw [hcheck])

theorem charged_build (c : Config File) (run : AutoDevRun) (added : Except PyError (Tree File))
    (verification : List String → Except PyError VerificationReport) :
    Charged m o.budget (build c m o run added verification).2.budget := by
  unfold build
  dsimp only
  split
  · exact .untouched
  · split
    · exact .untouched
    · split
      · exact .untouched
      · unfold verify
        dsimp only
        split
        · exact .untouched
        · exact charged_decide c _ _ rfl

theorem charged_propose (runId title rationale diff : String) :
    Charged m o.budget (propose m o runId title rationale diff).2.budget := by
  unfold propose
  split
  · exact .untouched
  · split
    · exact .untouched
    · have htracker := o.budget.checkCanStartRun_tracker m.now
      split
      · next e budget hcheck =>
        rw [hcheck] at htracker
        rw [show budget = o.budget.rollover m.now from htracker]
        exact .checked
      · next budget hcheck =>
        rw [hcheck] at htracker
        rw [show budget = o.budget.rollover m.now from htracker]
        exact .runStarted (by rw [hcheck])

theorem budget_finalizeMerge (runId : String) :
    (finalizeMerge m o runId).2.budget =
      if (Operation.finalizeMerge runId).mergesLow m o then o.budget.recordLowRiskMerge m.now else o.budget := by
  unfold finalizeMerge Operation.mergesLow
  cases hrun : o.runs.get? runId with
  | none => simp [hrun]
  | some run =>
    cases hkill : m.killSwitch with
    | some reason => simp [settle, putRun]
    | none =>
      by_cases hstate : run.state = .approved
      · simp [hrun, hstate, settle, putRun, AutoDevRun.recordTransition]
      · simp [hrun, hstate]

theorem charged_apply (c : Config File) (op : Operation File) (h : op.mergesLow m o = false) :
    Charged m o.budget (apply c m o op).budget := by
  cases op with
  | propose runId title rationale diff => exact charged_propose runId title rationale diff
  | executeBuildAndVerify runId added verification =>
    simp only [apply]
    unfold executeBuildAndVerify
    split
    · exact .untouched
    · split
      · exact .untouched
      · split
        · exact .untouched
        · exact charged_build c _ added verification
  | resolveApproval runId approved actor reason =>
    simp only [apply]
    unfold resolveApproval
    split
    · exact .untouched
    · split
      · exact .untouched
      · split
        · exact .untouched
        · split
          · split <;> exact .untouched
          · split <;> exact .untouched
  | finalizeMerge runId =>
    simp only [apply, budget_finalizeMerge, h, Bool.false_eq_true, if_false]
    exact .untouched
  | cancel runId reason =>
    simp only [apply]
    unfold cancel
    split
    · exact .untouched
    · split <;> exact .untouched
  | cleanupExpired => exact .untouched

/-! ## Every sequence of operations -/

/-- A low-risk merge passes the check of the tracker, as if it was made. -/
def Affordable (o : AutoDevOrchestrator File) (step : Moment × Operation File) : Prop :=
  step.2.mergesLow step.1 o = true → (o.budget.checkCanAutoMergeLow step.1.now).1 = .ok ()

theorem within_apply_iff (c : Config File) (m : Moment) (op : Operation File) (hwithin : WithinLimits o.budget)
    (hzero : 0 ≤ o.budget.limits.maxComputeSecondsPerDay) :
    WithinLimits (apply c m o op).budget ↔ Affordable o (m, op) := by
  cases hmerges : op.mergesLow m o with
  | false => exact iff_of_true ((charged_apply c op hmerges).within hwithin hzero) fun h => by simp [hmerges] at h
  | true =>
    cases op with
    | finalizeMerge runId =>
      simp only [apply, budget_finalizeMerge, hmerges, if_true]
      rw [RateBudgetTracker.recordLowRiskMerge_within_iff hwithin hzero]
      exact ⟨fun h _ => h, fun h => h hmerges⟩
    | _ => cases hmerges

theorem limits_apply (c : Config File) (m : Moment) (op : Operation File) :
    (apply c m o op).budget.limits = o.budget.limits := by
  cases hmerges : op.mergesLow m o with
  | false => exact (charged_apply c op hmerges).limits
  | true =>
    cases op with
    | finalizeMerge runId =>
      simp only [apply, budget_finalizeMerge, hmerges, if_true]
      exact o.budget.rollover_limits m.now
    | _ => cases hmerges

theorem within_runAll_iff (c : Config File) (steps : List (Moment × Operation File)) (hwithin : WithinLimits o.budget)
    (hzero : 0 ≤ o.budget.limits.maxComputeSecondsPerDay) :
    (∀ before, before <+: steps → WithinLimits (runAll c o before).budget) ↔
      Lib.Admitted (fun o step => apply c step.1 o step.2) Affordable o steps := by
  have hside (o : AutoDevOrchestrator File) (step : Moment × Operation File)
      (hzero : 0 ≤ o.budget.limits.maxComputeSecondsPerDay) :
      0 ≤ (apply c step.1 o step.2).budget.limits.maxComputeSecondsPerDay := by
    rw [limits_apply]
    exact hzero
  have hstep (o : AutoDevOrchestrator File) (step : Moment × Operation File)
      (hzero : 0 ≤ o.budget.limits.maxComputeSecondsPerDay) (hwithin : WithinLimits o.budget) :
      WithinLimits (apply c step.1 o step.2).budget ↔ Affordable o step :=
    within_apply_iff c step.1 step.2 hwithin hzero
  exact Lib.forall_prefix_iff_admitted hside hstep hzero hwithin steps

/-- **The daily limits are kept all along just when every low-risk merge would pass the check**, where no
limit is negative. -/
theorem daily_limits_kept_iff (c : Config File) (limits : BudgetLimits) (date : Int)
    (steps : List (Moment × Operation File)) :
    (∀ before, before <+: steps →
        WithinLimits (runAll c { budget := { limits, current := { date } } } before).budget) ↔
      0 ≤ limits.maxComputeSecondsPerDay ∧
        Lib.Admitted (fun o step => apply c step.1 o step.2) Affordable
          { budget := { limits, current := { date } } } steps := by
  by_cases hzero : 0 ≤ limits.maxComputeSecondsPerDay
  · have hwithin : WithinLimits { limits, current := { date } } :=
      ⟨Nat.zero_le _, Nat.zero_le _, Nat.zero_le _, hzero⟩
    have hkept := within_runAll_iff c steps (o := { budget := { limits, current := { date } } }) hwithin hzero
    exact hkept.trans (and_iff_right hzero).symm
  · exact iff_of_false (fun h => hzero (h [] List.nil_prefix).compute) fun h => hzero h.1

/-- A change that no stage objects to is proposed, built and merged. -/
def lowRiskRun (id : String) : List (Moment × Operation String) :=
  [({ now := 0 }, .propose id "a" "b" "+y\n"),
    ({ now := 1 }, .executeBuildAndVerify id (.ok []) fun _ => .ok { stages := [⟨"lint", "skipped"⟩] }),
    ({ now := 2 }, .finalizeMerge id)]

/-- One low-risk merge a day is allowed, and two are made. -/
theorem second_merge_exceeds_limit :
    ¬ ∀ (limits : BudgetLimits) (steps : List (Moment × Operation String)), 0 ≤ limits.maxComputeSecondsPerDay →
      ∀ before, before <+: steps →
        WithinLimits (runAll plainConfig { budget := { limits, current := { date := 0 } } } before).budget := by
  intro h
  have hmerges := (h { maxLowRiskMergesPerDay := 1 } (lowRiskRun "r1" ++ lowRiskRun "r2") (by decide) _
    (List.prefix_refl _)).lowRiskMerges
  revert hmerges
  decide +kernel

end Occp.Autodev
