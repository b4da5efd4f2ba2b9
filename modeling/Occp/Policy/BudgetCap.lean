import Mathlib.Algebra.Order.BigOperators.Group.List
import Occp.Lib.Runs
import Occp.Policy.Budget

/-!
# Callers that share a budget

Each caller checks its estimate, calls the provider, and records what that cost. Nothing is
reserved in between, so the calls that are allowed together have to fit together.
-/

namespace Occp.Policy

open Lib (IsDecimal)

/-! ## The callers -/

/-- A caller that was allowed to call, and has not recorded the cost yet. -/
structure Ticket where
  caller : Nat
  taskId : String
  estimate : Rat
  deriving DecidableEq

structure Callers where
  policy : BudgetPolicy
  redis : Redis
  tickets : List Ticket := []

inductive CallerStep where
  | check (caller : Nat) (taskId : String) (estimatedTokens : Int) (model : String) (outputRatio : Rat)
  | record (caller : Nat) (model : String) (usage : CacheBreakdown)
  /-- The provider call failed. -/
  | giveUp (caller : Nat)

namespace Callers

def ticketOf (s : Callers) (caller : Nat) : Option Ticket := s.tickets.find? fun t => t.caller = caller

/-- A caller makes one call at a time, and records no more than it estimated. -/
def step (s : Callers) : CallerStep → Callers
  | .check caller taskId estimatedTokens model outputRatio =>
    match s.ticketOf caller, BudgetPolicy.estimate model estimatedTokens outputRatio with
    | none, .ok est =>
      let ((passed, _), policy) := s.policy.check s.redis false taskId estimatedTokens model outputRatio
      { s with policy, tickets := if passed then ⟨caller, taskId, est⟩ :: s.tickets else s.tickets }
    | _, _ => s
  | .record caller model usage =>
    match s.ticketOf caller, priceCall model usage with
    | some t, .ok cost =>
      if cost ≤ t.estimate then
        let (_, policy, redis) := s.policy.recordSpend s.redis false false t.taskId model (some usage) none none
        { policy, redis, tickets := s.tickets.erase t }
      else s
    | _, _ => s
  | .giveUp caller =>
    match s.ticketOf caller with
    | some t => { s with tickets := s.tickets.erase t }
    | none => s

/-- What is recorded for a task. -/
def spent (s : Callers) (taskId : String) : Rat := (s.policy.stored s.redis taskId).spentUsd

def Ticket.share (taskId : String) (t : Ticket) : Rat := if t.taskId = taskId then max 0 t.estimate else 0

/-- What the calls in flight for a task are estimated to cost. -/
def booked (s : Callers) (taskId : String) : Rat := (s.tickets.map (Ticket.share taskId)).sum

/-- A call is only allowed when it also fits beside the calls that are in flight. -/
def Fits (s : Callers) : CallerStep → Prop
  | .check caller taskId estimatedTokens model outputRatio =>
    match s.ticketOf caller, BudgetPolicy.estimate model estimatedTokens outputRatio with
    | none, .ok est =>
      0 ≤ estimatedTokens → s.spent taskId + est ≤ s.policy.getTaskBudget taskId →
        s.spent taskId + s.booked taskId + est ≤ s.policy.getTaskBudget taskId
    | _, _ => True
  | _ => True

instance (s : Callers) (e : CallerStep) : Decidable (s.Fits e) :=
  match e with
  | .check caller taskId estimatedTokens model outputRatio => by
    unfold Fits
    dsimp only
    split <;> infer_instance
  | .record .. => inferInstanceAs (Decidable True)
  | .giveUp .. => inferInstanceAs (Decidable True)

/-! ## What is booked -/

theorem share_nonneg (taskId : String) (t : Ticket) : 0 ≤ Ticket.share taskId t := by
  unfold Ticket.share
  split
  · exact le_max_left 0 _
  · exact le_rfl

theorem booked_nonneg (s : Callers) (taskId : String) : 0 ≤ s.booked taskId := by
  refine List.sum_nonneg fun x hx => ?_
  obtain ⟨t, -, rfl⟩ := List.mem_map.mp hx
  exact share_nonneg taskId t

theorem share_le_booked {tickets : List Ticket} {t : Ticket} (h : t ∈ tickets) (taskId : String) :
    (((tickets.erase t).map (Ticket.share taskId)).sum : Rat) =
      (tickets.map (Ticket.share taskId)).sum - Ticket.share taskId t := by
  rw [← List.sum_map_erase (Ticket.share taskId) h]
  ring

theorem mem_of_ticketOf {s : Callers} {caller : Nat} {t : Ticket} (h : s.ticketOf caller = some t) : t ∈ s.tickets :=
  List.mem_of_find?_eq_some h

/-! ## One step -/

/-- What is recorded and what is booked fit together. -/
structure Inv (budget : String → Rat) (s : Callers) : Prop where
  budgets : ∀ taskId, s.policy.getTaskBudget taskId = budget taskId
  ids : ∀ taskId, (s.policy.stored s.redis taskId).taskId = taskId
  spentDecimal : ∀ taskId, IsDecimal 6 (s.spent taskId)
  estimateDecimal : ∀ t ∈ s.tickets, IsDecimal 6 t.estimate
  fits : ∀ taskId, s.spent taskId + s.booked taskId ≤ budget taskId

variable {budget : String → Rat} {s : Callers}

theorem inv_check (h : Inv budget s) (caller : Nat) (taskId : String) (estimatedTokens : Int) (model : String)
    (outputRatio : Rat) (hfits : s.Fits (.check caller taskId estimatedTokens model outputRatio)) :
    Inv budget (s.step (.check caller taskId estimatedTokens model outputRatio)) := by
  unfold step
  dsimp only
  split
  · next est hidle hest =>
    have hpolicy : (s.policy.check s.redis false taskId estimatedTokens model outputRatio).2 = s.policy := by
      by_cases hcounted : 0 ≤ estimatedTokens
      · rw [(BudgetPolicy.check_spec s.policy s.redis false taskId hest hcounted).1, BudgetPolicy.safeGet_answers]
      · exact (BudgetPolicy.check_refused _ _ _ _ fun h => hcounted h.1).1
    rw [hpolicy]
    split
    · next hpassed =>
      have hcounted : 0 ≤ estimatedTokens := by
        by_contra hneg
        rw [(BudgetPolicy.check_refused _ _ _ _ fun h => hneg h.1).2] at hpassed
        cases hpassed
      have hallowed := (BudgetPolicy.check_spec s.policy s.redis false taskId hest hcounted).2.mp hpassed
      rw [BudgetPolicy.safeGet_answers] at hallowed
      simp only [Fits, hidle, hest] at hfits
      have hroom := hfits hcounted hallowed
      refine ⟨h.budgets, h.ids, h.spentDecimal, fun t ht => ?_, fun other => ?_⟩
      · rcases List.mem_cons.mp ht with rfl | ht
        · exact BudgetPolicy.isDecimal_estimate hest
        · exact h.estimateDecimal t ht
      · have hbooked : Callers.booked { s with tickets := ⟨caller, taskId, est⟩ :: s.tickets } other =
            Ticket.share other ⟨caller, taskId, est⟩ + s.booked other := by
          unfold booked
          rw [List.map_cons, List.sum_cons]
        change s.spent other + _ ≤ _
        rw [hbooked]
        have hbefore := h.fits other
        unfold Ticket.share
        split
        · next heq =>
          subst heq
          rw [h.budgets] at hroom
          rcases max_cases 0 est with hmax | hmax <;> rw [hmax.1] <;> linarith
        · linarith
    · exact ⟨h.budgets, h.ids, h.spentDecimal, h.estimateDecimal, h.fits⟩
  · exact h

theorem inv_erase (h : Inv budget s) {t : Ticket} (ht : t ∈ s.tickets) :
    Inv budget { s with tickets := s.tickets.erase t } := by
  refine ⟨h.budgets, h.ids, h.spentDecimal, fun t' ht' => h.estimateDecimal t' (List.mem_of_mem_erase ht'), ?_⟩
  intro taskId
  have hbefore := h.fits taskId
  have hshare := share_nonneg taskId t
  have hbooked := share_le_booked ht taskId
  change s.spent taskId + ((s.tickets.erase t).map (Ticket.share taskId)).sum ≤ _
  unfold booked at hbefore
  linarith

/-- The recorded cost takes no more room than its ticket held. -/
theorem inv_record (h : Inv budget s) (caller : Nat) (model : String) (usage : CacheBreakdown) :
    Inv budget (s.step (.record caller model usage)) := by
  unfold step
  dsimp only
  split
  · next t cost hticket hcost =>
    have ht := mem_of_ticketOf hticket
    split
    · next hle =>
      obtain ⟨canonical, hrecord⟩ : ∃ canonical,
          (s.policy.recordSpend s.redis false false t.taskId model (some usage) none none).2 =
            (s.policy.recordCost s.redis false false t.taskId canonical cost usage).2 := by
        rcases BudgetPolicy.recordSpend_cases s.policy s.redis false false t.taskId model usage with
          ⟨e, herror, -⟩ | ⟨canonical, cost', hcost', heq⟩
        · cases hcost.symm.trans herror
        · cases hcost.symm.trans hcost'
          exact ⟨canonical, congrArg Prod.snd heq⟩
      simp only [hrecord]
      have hstored (other : String) :=
        BudgetPolicy.stored_recordCost s.policy s.redis t.taskId canonical cost usage (h.ids t.taskId) other
      have hbudgets (other : String) :
          (s.policy.recordCost s.redis false false t.taskId canonical cost usage).2.1.getTaskBudget other =
            s.policy.getTaskBudget other := by
        unfold BudgetPolicy.recordCost
        rw [BudgetPolicy.safeGet_answers]
        exact BudgetPolicy.getTaskBudget_safeSet _ _ _ _ _
      -- The sum of what is stored and the estimate is a whole number of micro-dollars, so rounding stays below.
      have hround : round6 (s.spent t.taskId + cost) ≤ s.spent t.taskId + t.estimate :=
        Lib.roundTo_le_of_le (Lib.isDecimal_add (h.spentDecimal t.taskId) (h.estimateDecimal t ht)) (by linarith)
      refine ⟨fun other => (hbudgets other).trans (h.budgets other), fun other => ?_, fun other => ?_,
        fun t' ht' => h.estimateDecimal t' (List.mem_of_mem_erase ht'), fun other => ?_⟩
      · rw [hstored]
        split
        · next heq => exact (h.ids t.taskId).trans heq.symm
        · exact h.ids other
      · unfold spent
        rw [hstored]
        split
        · exact Lib.isDecimal_roundTo 6 _
        · exact h.spentDecimal other
      · have hbefore := h.fits other
        have hbooked := share_le_booked ht other
        unfold spent booked
        rw [hstored]
        dsimp only
        rw [hbooked]
        unfold booked at hbefore
        unfold Ticket.share at hbefore ⊢
        split
        · next heq =>
          subst heq
          rw [if_pos rfl]
          have hadd : ((s.policy.stored s.redis t.taskId).add canonical cost usage).spentUsd =
            round6 (s.spent t.taskId + cost) := rfl
          rw [hadd]
          have hmax := le_max_right 0 t.estimate
          linarith
        · next hne =>
          rw [if_neg (Ne.symm hne)]
          unfold spent at hbefore
          linarith
    · exact h
  · exact h

theorem inv_step (h : Inv budget s) (e : CallerStep) (hfits : s.Fits e) : Inv budget (s.step e) := by
  cases e with
  | check caller taskId estimatedTokens model outputRatio =>
    exact inv_check h caller taskId estimatedTokens model outputRatio hfits
  | record caller model usage => exact inv_record h caller model usage
  | giveUp caller =>
    unfold step
    dsimp only
    split
    · next t hticket => exact inv_erase h (mem_of_ticketOf hticket)
    · exact h

/-! ## Every interleaving -/

/-- **The budget is a hard cap in every interleaving in which each allowed call also fits beside the calls in flight.** -/
theorem spent_le_budget (s : Callers) (htickets : s.tickets = [])
    (hfresh : ∀ taskId, s.policy.stored s.redis taskId = { taskId })
    (hbudget : ∀ taskId, 0 ≤ s.policy.getTaskBudget taskId) (steps : List CallerStep)
    (hfits : Lib.Admitted step Fits s steps) (taskId : String) :
    (Lib.run step s steps).spent taskId ≤ (Lib.run step s steps).policy.getTaskBudget taskId := by
  have hstart : Inv s.policy.getTaskBudget s := by
    refine ⟨fun _ => rfl, fun taskId => by rw [hfresh], fun taskId => ?_, fun t ht => ?_, fun taskId => ?_⟩
    · unfold spent
      rw [hfresh]
      exact Lib.isDecimal_zero 6
    · rw [htickets] at ht
      cases ht
    · unfold spent booked
      rw [hfresh, htickets]
      simpa using hbudget taskId
  have hend := hfits.invariant (Inv s.policy.getTaskBudget) hstart fun s e h he => inv_step h e he
  rw [hend.budgets]
  have hfit := hend.fits taskId
  have hbooked := booked_nonneg (Lib.run step s steps) taskId
  linarith

/-- Two callers of one task, each of which fits alone, with a budget of three dollars. -/
def twoCallers : Callers where
  policy := { defaultBudget := 3, backend := .memory [] }
  redis := { text := fun _ => "" }

/-- One after the other: the second call is refused. -/
theorem callers_in_turn_stay_within :
    let steps : List CallerStep :=
      [.check 0 "t" 1000000 "haiku" (1 / 4), .record 0 "haiku" { inputTokens := 750000, outputTokens := 250000 },
        .check 1 "t" 1000000 "haiku" (1 / 4), .record 1 "haiku" { inputTokens := 750000, outputTokens := 250000 }]
    (Lib.run step twoCallers steps).spent "t" ≤ (Lib.run step twoCallers steps).policy.getTaskBudget "t" := by
  have hbudget (taskId : String) : 0 ≤ twoCallers.policy.getTaskBudget taskId := by
    have hthree : twoCallers.policy.getTaskBudget taskId = 3 := rfl
    rw [hthree]
    norm_num
  exact spent_le_budget twoCallers rfl (fun _ => rfl) hbudget _ (by decide +kernel) "t"

/-- Both checks come before the first record, and four dollars are spent of three. -/
theorem callers_at_once_overspend :
    let steps : List CallerStep :=
      [.check 0 "t" 1000000 "haiku" (1 / 4), .check 1 "t" 1000000 "haiku" (1 / 4),
        .record 0 "haiku" { inputTokens := 750000, outputTokens := 250000 },
        .record 1 "haiku" { inputTokens := 750000, outputTokens := 250000 }]
    (Lib.run step twoCallers steps).spent "t" = 4 ∧
      (Lib.run step twoCallers steps).policy.getTaskBudget "t" = 3 := by
  decide +kernel

end Callers

end Occp.Policy
