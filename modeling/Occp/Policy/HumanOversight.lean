import Occp.Lib.Runs
import Occp.Policy.Models

/-!
# Human oversight (`policy_engine/guards.py`)

Some actions wait for an approval of a human. An approval is for single use, but no check takes it away.
-/

namespace Occp.Policy

structure HumanOversightGuard where
  enabled : Bool := true
  approvedActions : List String := []

namespace HumanOversightGuard

def name : String := "human_oversight_guard"

def oversightRequired : List String :=
  ["policy.update", "policy.delete", "agent.activate", "agent.register", "skill.enable_untrusted",
    "skill.enable_unsandboxed", "governance.override", "token.rotate_all"]

variable (g : HumanOversightGuard)

def requiresApproval (action : String) : Bool :=
  if !g.enabled then false else oversightRequired.contains action && !g.approvedActions.contains action

def approve (action : String) : HumanOversightGuard :=
  { g with approvedActions := if g.approvedActions.contains action then g.approvedActions else action :: g.approvedActions }

def revokeApproval (action : String) : HumanOversightGuard :=
  { g with approvedActions := g.approvedActions.filter (· ≠ action) }

def clearApprovals : HumanOversightGuard := { g with approvedActions := [] }

/-- A list or a dictionary cannot be looked up in a set. -/
def check (payload : Dict Value) : Except PyError GuardResult :=
  if !g.enabled then .ok { passed := true, guardName := name }
  else
    let action := (payload.get? "action").getD (.str "")
    if !action.truthy then .ok { passed := true, guardName := name }
    else
      match action with
      | .list _ => .error (.typeError "unhashable type: 'list'")
      | .dict _ => .error (.typeError "unhashable type: 'dict'")
      | .str action =>
        if g.requiresApproval action then
          let detail := s!"Action '{action}' requires human approval before execution"
          .ok { passed := false, guardName := name, detail }
        else .ok { passed := true, guardName := name }
      | _ => .ok { passed := true, guardName := name }

def Passes (payload : Dict Value) : Prop := ∃ result, g.check payload = .ok result ∧ result.passed = true

instance (payload : Dict Value) : Decidable (g.Passes payload) :=
  match h : g.check payload with
  | .ok result => decidable_of_iff (result.passed = true) (by simp [Passes, h])
  | .error _ => .isFalse (by simp [Passes, h])

def Oversees (action : String) : Prop := g.enabled = true ∧ action ∈ oversightRequired

variable {g} {action other : String}

@[simp] theorem mem_approve : other ∈ (g.approve action).approvedActions ↔ other = action ∨ other ∈ g.approvedActions := by
  unfold approve
  by_cases h : action ∈ g.approvedActions
  · simp only [List.contains_iff_mem, h, if_true]
    constructor
    · exact .inr
    · rintro (rfl | hother)
      · exact h
      · exact hother
  · simp [h]

@[simp] theorem mem_revokeApproval :
    other ∈ (g.revokeApproval action).approvedActions ↔ other ∈ g.approvedActions ∧ other ≠ action := by
  simp [revokeApproval]

@[simp] theorem clearApprovals_approvedActions : g.clearApprovals.approvedActions = [] := rfl

/-- An action that is overseen passes just when it stands approved. -/
theorem passes_iff {payload : Dict Value} (h : g.Oversees action) (hpayload : payload.get? "action" = some (.str action)) :
    g.Passes payload ↔ action ∈ g.approvedActions := by
  obtain ⟨henabled, hmem⟩ := h
  have hne : action ≠ "" := by
    rintro rfl
    revert hmem
    decide
  unfold Passes check
  simp [henabled, hpayload, Value.truthy, hne, requiresApproval, hmem]
  split
  · next hnot => simp [hnot]
  · next hin => simpa using hin

end HumanOversightGuard

/-! ## Sessions -/

inductive OversightCall where
  | approve (action : String)
  | revokeApproval (action : String)
  | clearApprovals
  | check (payload : Dict Value)

/-- A guard in use, with an entry for each approval and each check that passed. -/
structure OversightSession where
  guard : HumanOversightGuard
  granted : List String := []
  passed : List String := []
  /-- The actions that have passed since they were approved last. -/
  spent : List String := []

namespace OversightSession

open HumanOversightGuard

/-- The action that a payload is about. -/
def actionOf (payload : Dict Value) : Option String :=
  match payload.get? "action" with
  | some (.str action) => some action
  | _ => none

def step (s : OversightSession) : OversightCall → OversightSession
  | .approve action =>
    { s with guard := s.guard.approve action, granted := action :: s.granted, spent := s.spent.filter (· ≠ action) }
  | .revokeApproval action => { s with guard := s.guard.revokeApproval action }
  | .clearApprovals => { s with guard := s.guard.clearApprovals }
  | .check payload =>
    match actionOf payload with
    | some action =>
      if s.guard.Passes payload then { s with passed := action :: s.passed, spent := action :: s.spent } else s
    | none => s

def start (enabled : Bool) : OversightSession := { guard := { enabled } }

/-- No approval is used twice: a check of an approved action is the first since its approval. -/
def Unspent (s : OversightSession) : OversightCall → Prop
  | .check payload => ∀ action, actionOf payload = some action → s.guard.Oversees action →
      action ∈ s.guard.approvedActions → action ∉ s.spent
  | _ => True

variable {s : OversightSession} {action : String}

theorem actionOf_eq_some {payload : Dict Value} :
    actionOf payload = some action ↔ payload.get? "action" = some (.str action) := by
  unfold actionOf
  split
  · next other h => simp [h]
  · next h =>
    constructor
    · intro hnone
      cases hnone
    · intro hsome
      exact absurd hsome (h action)

/-- A check leaves the session as it is, or it passes and is noted. -/
theorem step_check (s : OversightSession) (payload : Dict Value) :
    s.step (.check payload) = s ∨ ∃ action, actionOf payload = some action ∧ s.guard.Passes payload ∧
      s.step (.check payload) = { s with passed := action :: s.passed, spent := action :: s.spent } := by
  unfold step
  cases haction : actionOf payload with
  | none => simp [haction]
  | some action => by_cases hpasses : s.guard.Passes payload <;> simp [haction, hpasses]

@[simp] theorem step_enabled (s : OversightSession) (call : OversightCall) : (s.step call).guard.enabled = s.guard.enabled := by
  cases call with
  | check payload =>
    rcases step_check s payload with h | ⟨action, -, -, h⟩
    · rw [h]
    · rw [h]
  | _ => rfl

/-- The approvals of an action cover the checks that passed, and the next one where it stands unspent. -/
def Covered (action : String) (s : OversightSession) : Prop :=
  s.passed.count action + (if action ∈ s.guard.approvedActions ∧ action ∉ s.spent then 1 else 0) ≤ s.granted.count action

theorem Covered.le (h : Covered action s) : s.passed.count action ≤ s.granted.count action := by
  unfold Covered at h
  omega

theorem covered_step {call : OversightCall} (hsees : s.guard.Oversees action) (hok : s.Unspent call)
    (h : Covered action s) : Covered action (s.step call) := by
  unfold Covered at h ⊢
  cases call with
  | approve other =>
    by_cases hother : action = other
    · subst hother
      have hle : s.passed.count action ≤ s.granted.count action := by omega
      simpa [step] using hle
    · simpa [step, hother, Ne.symm hother] using h
  | revokeApproval other =>
    simp only [step, mem_revokeApproval]
    split at h
    · split <;> omega
    · next hnot =>
      rw [if_neg fun hboth => hnot ⟨hboth.1.1, hboth.2⟩]
      exact h
  | clearApprovals =>
    simp [step]
    omega
  | check payload =>
    rcases step_check s payload with hsame | ⟨other, hother, hpasses, hnoted⟩
    · rw [hsame]
      exact h
    · rw [hnoted]
      by_cases heq : action = other
      · subst heq
        have happroved := (passes_iff hsees (actionOf_eq_some.mp hother)).mp hpasses
        have hunspent := hok action hother hsees happroved
        rw [if_pos ⟨happroved, hunspent⟩] at h
        simpa using h
      · simpa [heq, Ne.symm heq, List.count_cons] using h

/-- A revoked action stays unapproved until it is approved. -/
theorem unapproved_run {calls : List OversightCall} (h : action ∉ s.guard.approvedActions)
    (hnone : ∀ call ∈ calls, call ≠ .approve action) : action ∉ (Lib.run step s calls).guard.approvedActions := by
  induction calls generalizing s with
  | nil => exact h
  | cons call calls ih =>
    refine ih ?_ fun later hlater => hnone later (List.mem_cons_of_mem call hlater)
    have hcall := hnone call List.mem_cons_self
    cases call with
    | approve other =>
      have hne : action ≠ other := fun heq => hcall (heq ▸ rfl)
      simpa [step, hne] using h
    | revokeApproval other => simp [step, h]
    | clearApprovals => simp [step]
    | check payload =>
      rcases step_check s payload with hsame | ⟨other, -, -, hnoted⟩
      · rwa [hsame]
      · rwa [hnoted]

theorem enabled_run (s : OversightSession) (calls : List OversightCall) :
    (Lib.run step s calls).guard.enabled = s.guard.enabled :=
  Lib.run_invariant (fun t : OversightSession => t.guard.enabled = s.guard.enabled)
    (fun t call h => (step_enabled t call).trans h) rfl calls

/-- **Where no approval is used twice, checks never outnumber approvals. After a revocation none passes in any case.** -/
theorem approvals_single_use (enabled : Bool) (calls : List OversightCall)
    (h : Lib.Admitted step Unspent (start enabled) calls) (action : String)
    (hsees : (start enabled).guard.Oversees action) :
    (∀ before, before <+: calls →
      (Lib.run step (start enabled) before).passed.count action ≤ (Lib.run step (start enabled) before).granted.count action) ∧
    (∀ before mid payload after, calls = before ++ .revokeApproval action :: mid ++ .check payload :: after →
      actionOf payload = some action → (∀ call ∈ mid, call ≠ .approve action) →
        ¬ (Lib.run step (start enabled) (before ++ .revokeApproval action :: mid)).guard.Passes payload) := by
  constructor
  · rintro before ⟨after, rfl⟩
    have hbefore := (Lib.admitted_append.mp h).1
    have hinv := hbefore.invariant (fun s => s.guard.Oversees action ∧ Covered action s) ⟨hsees, by simp [Covered, start]⟩
      (fun s call hs hok => ⟨⟨(step_enabled s call).trans hs.1.1, hs.1.2⟩, covered_step hs.1 hok hs.2⟩)
    exact hinv.2.le
  · intro before mid payload after _ hpayload hmid
    have henabled := enabled_run (start enabled) (before ++ .revokeApproval action :: mid)
    rw [passes_iff ⟨henabled.trans hsees.1, hsees.2⟩ (actionOf_eq_some.mp hpayload)]
    rw [Lib.run_append, Lib.run_cons]
    exact unapproved_run (by simp [step]) hmid

/-- Approved, checked and approved again, as the guard is meant to be used. -/
def approvedTwice : List OversightCall :=
  [.approve "policy.update", .check [("action", .str "policy.update")], .approve "policy.update",
    .check [("action", .str "policy.update")], .revokeApproval "policy.update", .check [("action", .str "policy.update")]]

theorem approved_twice_passes_twice :
    (∀ before, before <+: approvedTwice →
      (Lib.run step (start true) before).passed.count "policy.update" ≤
        (Lib.run step (start true) before).granted.count "policy.update") ∧
    (∀ before mid payload after,
      approvedTwice = before ++ .revokeApproval "policy.update" :: mid ++ .check payload :: after →
      actionOf payload = some "policy.update" → (∀ call ∈ mid, call ≠ .approve "policy.update") →
        ¬ (Lib.run step (start true) (before ++ .revokeApproval "policy.update" :: mid)).guard.Passes payload) := by
  refine approvals_single_use true approvedTwice ?_ "policy.update" ⟨rfl, by decide⟩
  simp [Lib.Admitted, approvedTwice, Unspent, step, actionOf, Dict.get?]

/-- One approval lets an action through twice. -/
theorem one_approval_passes_twice :
    ¬ ∀ (enabled : Bool) (calls : List OversightCall) (action : String), (start enabled).guard.Oversees action →
      (Lib.run step (start enabled) calls).passed.count action ≤ (Lib.run step (start enabled) calls).granted.count action := by
  intro h
  have hcount := h true [.approve "policy.update", .check [("action", .str "policy.update")],
    .check [("action", .str "policy.update")]] "policy.update" ⟨rfl, by decide⟩
  revert hcount
  decide

end OversightSession

end Occp.Policy
