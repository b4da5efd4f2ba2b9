import Occp.Lib.Runs
import Occp.Policy.Budget

/-!
# Budgets while Redis fails

A failed backend call replaces the backend by an empty one, and a payload that does not
decode counts as an empty record. Either forgets what was spent.
-/

namespace Occp.Policy

open Lib (IsDecimal IsTie)

/-! ## One policy and its Redis -/

structure Ledger where
  policy : BudgetPolicy
  redis : Redis
  /-- The costs of the `record_spend` calls that returned, each to six decimals. -/
  recorded : String → Rat := fun _ => 0

inductive LedgerStep where
  | check (taskId : String) (estimatedTokens : Int) (model : String) (outputRatio : Rat) (fails : Bool)
  /-- `get_spend` or `snapshot`. -/
  | look (taskId : String) (fails : Bool)
  | record (taskId model : String) (usage : CacheBreakdown) (getFails setFails : Bool)
  | setTaskBudget (taskId : String) (budgetUsd : Rat)
  /-- The key expires, or something else writes to it. -/
  | tamper (taskId : String) (payload : Option Payload)

def Redis.tamper (r : Redis) (taskId : String) : Option Payload → Redis
  | some payload => { r with entries := r.entries.set (Redis.key taskId) payload }
  | none => { r with entries := r.entries.pop (Redis.key taskId) }

namespace Ledger

/-- The spend that `check` compares with the budget. -/
def compared (s : Ledger) (fails : Bool) (taskId : String) : Rat := (s.policy.safeGet s.redis fails taskId).1.spentUsd

def step (s : Ledger) : LedgerStep → Ledger
  | .check taskId estimatedTokens model outputRatio fails =>
    { s with policy := (s.policy.check s.redis fails taskId estimatedTokens model outputRatio).2 }
  | .look taskId fails => { s with policy := (s.policy.snapshot s.redis fails taskId).2 }
  | .record taskId model usage getFails setFails =>
    match s.policy.recordSpend s.redis getFails setFails taskId model (some usage) none none with
    | (.error _, policy, redis) => { s with policy, redis }
    | (.ok _, policy, redis) =>
      let cost := ((priceCall model usage).toOption).getD 0
      { policy, redis, recorded := Function.update s.recorded taskId (s.recorded taskId + round6 cost) }
  | .setTaskBudget taskId budgetUsd =>
    match s.policy.setTaskBudget taskId budgetUsd with
    | .ok policy => { s with policy }
    | .error _ => s
  | .tamper taskId payload => { s with redis := s.redis.tamper taskId payload }

/-- A backend that can fail. -/
def OnRedis (s : Ledger) : Prop := s.policy.backend = .redis

/-- A read of Redis only fails while nothing is recorded. -/
def ReadHolds (s : Ledger) (fails : Bool) : Prop := s.OnRedis → fails = true → ∀ taskId, s.recorded taskId ≤ 0

/-- What the step does to the backend leaves what is recorded in it. -/
def Holds (s : Ledger) : LedgerStep → Prop
  | .check _ estimatedTokens model outputRatio fails =>
    0 ≤ estimatedTokens → (∃ est, BudgetPolicy.estimate model estimatedTokens outputRatio = .ok est) →
      s.ReadHolds fails
  | .look _ fails => s.ReadHolds fails
  | .record taskId model usage getFails setFails =>
    ∀ cost, priceCall model usage = .ok cost → ¬ IsTie 6 cost ∧ s.ReadHolds getFails ∧
      (s.OnRedis → getFails = false → setFails = true → ∀ other, other ≠ taskId → s.recorded other ≤ 0)
  | .setTaskBudget _ _ => True
  | .tamper taskId payload =>
    s.OnRedis → ((s.redis.tamper taskId payload).get taskId).taskId = taskId ∧
      s.recorded taskId ≤ ((s.redis.tamper taskId payload).get taskId).spentUsd

/-! ## What is kept -/

/-- The backend has at least what was recorded. -/
structure Kept (s : Ledger) : Prop where
  decimal : ∀ taskId, IsDecimal 6 (s.recorded taskId)
  id : ∀ taskId, (s.policy.stored s.redis taskId).taskId = taskId
  kept : ∀ taskId, s.recorded taskId ≤ (s.policy.stored s.redis taskId).spentUsd

variable {s : Ledger}

/-- A read finds what is stored, or replaces the backend by an empty one. -/
theorem safeGet_cases (p : BudgetPolicy) (r : Redis) (fails : Bool) (taskId : String) :
    (p.backend = .redis → fails = false) ∧ p.safeGet r fails taskId = (p.stored r taskId, p) ∨
      p.backend = .redis ∧ fails = true ∧
        p.safeGet r fails taskId = ({ taskId }, { p with backend := .memory [] }) := by
  cases fails with
  | false => exact .inl ⟨fun _ => rfl, BudgetPolicy.safeGet_answers p r taskId⟩
  | true =>
    unfold BudgetPolicy.stored BudgetPolicy.safeGet
    cases hb : p.backend with
    | memory store => exact .inl ⟨nofun, rfl⟩
    | redis => exact .inr ⟨rfl, rfl, rfl⟩

/-- A write replaces the record, or replaces the backend by one with nothing else in it. -/
theorem safeSet_cases (p : BudgetPolicy) (r : Redis) (fails : Bool) (spend : BudgetSpend) :
    p.safeSet r fails spend = p.safeSet r false spend ∨
      p.backend = .redis ∧ fails = true ∧
        p.safeSet r fails spend = ({ p with backend := .memory (Dict.set [] spend.taskId spend) }, r) := by
  cases fails with
  | false => exact .inl rfl
  | true =>
    unfold BudgetPolicy.safeSet
    cases hb : p.backend with
    | memory store => exact .inl rfl
    | redis => exact .inr ⟨rfl, rfl, rfl⟩

theorem kept_safeGet (h : Kept s) {fails : Bool} (hread : s.ReadHolds fails) (taskId : String) :
    Kept { s with policy := (s.policy.safeGet s.redis fails taskId).2 } ∧
      (s.policy.safeGet s.redis fails taskId).1 = (s.policy.safeGet s.redis fails taskId).2.stored s.redis taskId := by
  rcases safeGet_cases s.policy s.redis fails taskId with ⟨-, heq⟩ | ⟨hredis, hfails, heq⟩
  · rw [heq]
    exact ⟨⟨h.decimal, h.id, h.kept⟩, rfl⟩
  · rw [heq]
    exact ⟨⟨h.decimal, fun _ => rfl, fun other => hread hredis hfails other⟩, rfl⟩

/-- Rounding the sum loses nothing, since the cost is no tie. -/
theorem recorded_add_le {recorded spent cost : Rat} (hdecimal : IsDecimal 6 recorded) (hle : recorded ≤ spent)
    (htie : ¬ IsTie 6 cost) : recorded + round6 cost ≤ round6 (spent + cost) := by
  have hexact : round6 (recorded + cost) = recorded + round6 cost := Lib.roundTo_add_of_isDecimal hdecimal htie
  rw [← hexact]
  exact Lib.roundTo_mono (by linarith)

/-- The record of the task grows by the cost, and the others are as they were. -/
theorem kept_of_stored (h : Kept s) {policy : BudgetPolicy} {redis : Redis} {taskId canonical : String} {cost : Rat}
    {usage : CacheBreakdown} {spend : BudgetSpend} (htie : ¬ IsTie 6 cost) (hid : spend.taskId = taskId)
    (hkept : s.recorded taskId ≤ spend.spentUsd)
    (hself : policy.stored redis taskId = spend.add canonical cost usage)
    (hother : ∀ other, other ≠ taskId →
      (policy.stored redis other).taskId = other ∧ s.recorded other ≤ (policy.stored redis other).spentUsd) :
    Kept { policy, redis, recorded := Function.update s.recorded taskId (s.recorded taskId + round6 cost) } := by
  refine ⟨fun other => ?_, fun other => ?_, fun other => ?_⟩
  all_goals by_cases hne : other = taskId
  · subst hne
    dsimp only
    rw [Function.update_self]
    exact Lib.isDecimal_add (h.decimal other) (Lib.isDecimal_roundTo 6 cost)
  · dsimp only
    rw [Function.update_of_ne hne]
    exact h.decimal other
  · subst hne
    dsimp only
    rw [hself]
    exact hid
  · exact (hother other hne).1
  · subst hne
    dsimp only
    rw [Function.update_self, hself]
    exact recorded_add_le (h.decimal other) hkept htie
  · dsimp only
    rw [Function.update_of_ne hne]
    exact (hother other hne).2

theorem kept_recordCost (h : Kept s) (taskId canonical : String) (cost : Rat) (usage : CacheBreakdown)
    (getFails setFails : Bool) (htie : ¬ IsTie 6 cost) (hread : s.ReadHolds getFails)
    (hwrite : s.OnRedis → getFails = false → setFails = true → ∀ other, other ≠ taskId → s.recorded other ≤ 0) :
    Kept {
      policy := (s.policy.recordCost s.redis getFails setFails taskId canonical cost usage).2.1
      redis := (s.policy.recordCost s.redis getFails setFails taskId canonical cost usage).2.2
      recorded := Function.update s.recorded taskId (s.recorded taskId + round6 cost) } := by
  obtain ⟨hget, hspend⟩ := kept_safeGet h hread taskId
  have hbackend : (s.policy.safeGet s.redis getFails taskId).2.backend = .redis → s.OnRedis ∧ getFails = false := by
    intro hb
    rcases safeGet_cases s.policy s.redis getFails taskId with ⟨hanswers, heq⟩ | ⟨-, -, heq⟩
    · rw [heq] at hb
      exact ⟨hb, hanswers hb⟩
    · rw [heq] at hb
      cases hb
  unfold BudgetPolicy.recordCost
  generalize s.policy.safeGet s.redis getFails taskId = got at hget hspend hbackend
  obtain ⟨spend, policy⟩ := got
  have hid : spend.taskId = taskId := by
    rw [show spend = policy.stored s.redis taskId from hspend]
    exact hget.id taskId
  have hkept : s.recorded taskId ≤ spend.spentUsd := by
    rw [show spend = policy.stored s.redis taskId from hspend]
    exact hget.kept taskId
  have hid' : (spend.add canonical cost usage).taskId = taskId := hid
  dsimp only
  rcases safeSet_cases policy s.redis setFails (spend.add canonical cost usage) with heq | ⟨hredis, hfails, heq⟩
  · have hset := BudgetPolicy.stored_safeSet policy s.redis (spend.add canonical cost usage) (Lib.isDecimal_roundTo 6 _)
    rw [hid'] at hset
    rw [heq]
    refine kept_of_stored h htie hid hkept (by rw [hset, if_pos rfl]) fun other hne => ?_
    rw [hset, if_neg hne]
    exact ⟨hget.id other, hget.kept other⟩
  · obtain ⟨hon, hanswers⟩ := hbackend hredis
    rw [heq, hid']
    have hstored (other : String) : BudgetPolicy.stored
        { policy with backend := .memory (Dict.set [] taskId (spend.add canonical cost usage)) } s.redis other =
        if other = taskId then spend.add canonical cost usage else { taskId := other } := by
      unfold BudgetPolicy.stored BudgetPolicy.safeGet
      dsimp only
      rw [Dict.get?_set]
      split <;> rfl
    refine kept_of_stored h htie hid hkept (by rw [hstored, if_pos rfl]) fun other hne => ?_
    rw [hstored, if_neg hne]
    exact ⟨rfl, hwrite hon hanswers hfails other hne⟩

theorem tamper_get_of_ne (r : Redis) {taskId other : String} (payload : Option Payload) (hne : other ≠ taskId) :
    (r.tamper taskId payload).get other = r.get other := by
  have hkey : Redis.key other ≠ Redis.key taskId := fun h => hne (Redis.key_injective h)
  unfold Redis.tamper Redis.get
  cases payload with
  | none =>
    dsimp only
    rw [Dict.get?_pop, if_neg hkey]
  | some payload =>
    dsimp only
    rw [Dict.get?_set_of_ne _ _ _ _ hkey]

theorem kept_step (h : Kept s) (e : LedgerStep) (he : s.Holds e) : Kept (s.step e) := by
  cases e with
  | check taskId estimatedTokens model outputRatio fails =>
    unfold step
    dsimp only
    by_cases hread : 0 ≤ estimatedTokens ∧ ∃ est, BudgetPolicy.estimate model estimatedTokens outputRatio = .ok est
    · obtain ⟨est, hest⟩ := hread.2
      rw [(BudgetPolicy.check_spec s.policy s.redis fails taskId hest hread.1).1]
      exact (kept_safeGet h (he hread.1 hread.2) taskId).1
    · rw [(BudgetPolicy.check_refused s.policy s.redis fails taskId hread).1]
      exact h
  | look taskId fails => exact (kept_safeGet h he taskId).1
  | record taskId model usage getFails setFails =>
    unfold step
    dsimp only
    rcases BudgetPolicy.recordSpend_cases s.policy s.redis getFails setFails taskId model usage with
      ⟨e, -, heq⟩ | ⟨canonical, cost, hcost, heq⟩
    · rw [heq]
      exact h
    · rw [heq, hcost]
      obtain ⟨htie, hread, hwrite⟩ := he cost hcost
      exact kept_recordCost h taskId canonical cost usage getFails setFails htie hread hwrite
  | setTaskBudget taskId budgetUsd =>
    unfold step BudgetPolicy.setTaskBudget
    dsimp only
    split
    · next policy hset =>
      split at hset
      · cases hset
      · cases hset
        have hsame (other : String) : s.policy.stored s.redis other = BudgetPolicy.stored
            { s.policy with perTaskBudgets := s.policy.perTaskBudgets.set taskId budgetUsd } s.redis other := by
          apply BudgetPolicy.stored_congr
          rfl
        exact ⟨h.decimal, fun other => (congrArg _ (hsame other)).symm.trans (h.id other),
          fun other => (h.kept other).trans_eq (congrArg _ (hsame other))⟩
    · exact h
  | tamper taskId payload =>
    have hother (other : String) (hne : other ≠ taskId) :
        s.policy.stored (s.redis.tamper taskId payload) other = s.policy.stored s.redis other := by
      unfold BudgetPolicy.stored BudgetPolicy.safeGet
      rw [tamper_get_of_ne s.redis payload hne]
    cases hb : s.policy.backend with
    | memory store =>
      have hmemory (r : Redis) (other : String) : s.policy.stored r other = (store.get? other).getD { taskId := other } := by
        unfold BudgetPolicy.stored BudgetPolicy.safeGet
        rw [hb]
      have hsame (other : String) :
          s.policy.stored (s.redis.tamper taskId payload) other = s.policy.stored s.redis other :=
        (hmemory _ other).trans (hmemory _ other).symm
      exact ⟨h.decimal, fun other => (congrArg _ (hsame other)).trans (h.id other),
        fun other => (h.kept other).trans_eq (congrArg _ (hsame other)).symm⟩
    | redis =>
      have hredis : s.policy.stored (s.redis.tamper taskId payload) taskId =
          (s.redis.tamper taskId payload).get taskId := by
        unfold BudgetPolicy.stored BudgetPolicy.safeGet
        rw [hb]
        rfl
      obtain ⟨hid, hkept⟩ := he hb
      refine ⟨h.decimal, fun other => ?_, fun other => ?_⟩
      all_goals by_cases hne : other = taskId
      · subst hne
        exact (congrArg BudgetSpend.taskId hredis).trans hid
      · exact (congrArg _ (hother other hne)).trans (h.id other)
      · subst hne
        exact hkept.trans_eq (congrArg BudgetSpend.spentUsd hredis).symm
      · exact (h.kept other).trans_eq (congrArg _ (hother other hne)).symm

/-! ## Every sequence of operations -/

/-- **What a check compares with the budget is at least what was recorded, in every run that keeps the records.** -/
theorem recorded_le_compared (policy : BudgetPolicy) (redis : Redis)
    (hfresh : ∀ taskId, policy.stored redis taskId = { taskId }) (steps : List LedgerStep) (taskId : String)
    (estimatedTokens : Int) (model : String) (outputRatio est : Rat) (fails : Bool)
    (hsteps : Lib.Admitted step Holds { policy, redis }
      (steps ++ [.check taskId estimatedTokens model outputRatio fails]))
    (hcount : 0 ≤ estimatedTokens) (hest : BudgetPolicy.estimate model estimatedTokens outputRatio = .ok est) :
    let s := Lib.run step { policy, redis } steps
    s.recorded taskId ≤ s.compared fails taskId ∧
      ((s.policy.check s.redis fails taskId estimatedTokens model outputRatio).1.1 = true ↔
        s.compared fails taskId + est ≤ s.policy.getTaskBudget taskId) := by
  intro s
  obtain ⟨hsteps, hcheck, -⟩ := Lib.admitted_append.mp hsteps
  have hstart : Kept { policy, redis } := by
    refine ⟨fun _ => Lib.isDecimal_zero 6, fun other => ?_, fun other => ?_⟩
    · dsimp only
      rw [hfresh]
    · dsimp only
      rw [hfresh]
  have hkept : Kept s := hsteps.invariant Kept hstart fun s e h he => kept_step h e he
  obtain ⟨hget, hspend⟩ := kept_safeGet hkept (hcheck hcount ⟨est, hest⟩) taskId
  refine ⟨?_, (BudgetPolicy.check_spec s.policy s.redis fails taskId hest hcount).2⟩
  unfold compared
  rw [hspend]
  exact hget.kept taskId

def dollarLedger : Ledger where
  policy := { defaultBudget := 1, backend := .redis }
  redis := { text := fun _ => "" }

/-- A dollar of input tokens. -/
def dollarRecord : LedgerStep := .record "t" "haiku" { inputTokens := 1000000 } false false

theorem dollarRecord_untied (cost : Rat) (h : priceCall "haiku" { inputTokens := 1000000 } = .ok cost) :
    ¬ IsTie 6 cost := by
  have hone : priceCall "haiku" { inputTokens := 1000000 } = .ok 1 := by decide +kernel
  cases hone.symm.trans h
  unfold IsTie
  decide +kernel

/-- Redis answers throughout, and the recorded dollar counts. -/
theorem dollar_counts :
    let s := Lib.run Ledger.step dollarLedger [dollarRecord]
    s.recorded "t" ≤ s.compared false "t" := by
  refine (recorded_le_compared dollarLedger.policy dollarLedger.redis (fun _ => rfl) [dollarRecord] "t" 4 "haiku" (1 / 4)
    (1 / 125000) false ⟨fun cost hcost => ⟨dollarRecord_untied cost hcost, fun _ hfails => ?_, fun _ _ hfails => ?_⟩, ?_⟩
    (by decide) (by decide +kernel)).1
  · cases hfails
  · cases hfails
  · exact ⟨fun _ _ _ hfails => absurd hfails Bool.false_ne_true, trivial⟩

/-- A failing read forgets the dollar, and so does a payload that is no JSON: the budget is open again. -/
theorem outage_reopens_budget :
    let s := Lib.run Ledger.step dollarLedger [dollarRecord]
    let corrupt := Lib.run Ledger.step dollarLedger [dollarRecord, .tamper "t" (some none)]
    s.recorded "t" = 1 ∧ s.compared true "t" = 0 ∧
      (s.policy.check s.redis true "t" 400000 "haiku").1 = (true, none) ∧
      corrupt.recorded "t" = 1 ∧ corrupt.compared false "t" = 0 ∧
      (corrupt.policy.check corrupt.redis false "t" 400000 "haiku").1 = (true, none) := by
  refine ⟨?_, ?_, ?_, ?_, ?_, ?_⟩ <;> decide +kernel

end Ledger

end Occp.Policy
