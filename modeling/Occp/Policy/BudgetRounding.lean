import Occp.Lib.Runs
import Occp.Policy.Budget

/-!
# What rounding loses

The record of a task is rounded to millionths of a dollar with each call. Redis answers throughout.
-/

namespace Occp.Policy

open Lib (IsDecimal roundTo)

/-! ## Whole millionths -/

def InMillionths (q : Rat) : Prop := (q * 10 ^ 6).den = 1

instance (q : Rat) : Decidable (InMillionths q) := inferInstanceAs (Decidable (_ = _))

theorem InMillionths.isDecimal {q : Rat} (h : InMillionths q) : IsDecimal 6 q := by
  refine ⟨(q * 10 ^ 6).num, ?_⟩
  rw [Rat.coe_int_num_of_den_eq_one h, mul_div_assoc, div_self (by norm_num), mul_one]

/-- What a call can be off by at most. -/
def slack (price : Rat) : Rat := if InMillionths price then 0 else 1 / 2 / 10 ^ 6

theorem abs_round6_sub_le {spent : Rat} (hspent : IsDecimal 6 spent) (price : Rat) :
    |round6 (spent + price) - (spent + price)| ≤ slack price := by
  unfold slack round6
  split
  · next hwhole =>
    rw [Lib.roundTo_of_isDecimal (Lib.isDecimal_add hspent hwhole.isDecimal), sub_self, abs_zero]
  · exact Lib.abs_roundTo_sub_le 6 _

/-! ## Calls -/

structure SpendCall where
  taskId : String
  model : String
  cacheBreakdown : Option CacheBreakdown := none
  inputTokens : Option Int := none
  outputTokens : Option Int := none

def SpendCall.usage (call : SpendCall) : CacheBreakdown :=
  call.cacheBreakdown.getD { inputTokens := call.inputTokens.getD 0, outputTokens := call.outputTokens.getD 0 }

/-- A policy, and the exact prices of the calls it has recorded. -/
structure Books where
  policy : BudgetPolicy
  redis : Redis
  prices : List (String × Rat) := []

namespace Books

/-- A call without a price raises, and is not recorded. -/
def step (s : Books) (call : SpendCall) : Books :=
  let (_, policy, redis) := s.policy.recordSpend s.redis false false call.taskId call.model call.cacheBreakdown
    call.inputTokens call.outputTokens
  let prices :=
    match priceCall call.model call.usage with
    | .ok price => s.prices ++ [(call.taskId, price)]
    | .error _ => s.prices
  { policy, redis, prices }

def spent (s : Books) (taskId : String) : Rat := (s.policy.stored s.redis taskId).spentUsd

def pricesOf (s : Books) (taskId : String) : List Rat := (s.prices.filter (·.1 = taskId)).map (·.2)

def Named (policy : BudgetPolicy) (redis : Redis) : Prop := ∀ taskId, (policy.stored redis taskId).taskId = taskId

variable {s : Books} {call : SpendCall}

theorem step_cases (hnamed : Named s.policy s.redis) (call : SpendCall) :
    (∃ e, priceCall call.model call.usage = .error e) ∧ s.step call = s ∨
    ∃ canonical price, priceCall call.model call.usage = .ok price ∧
      (s.step call).prices = s.prices ++ [(call.taskId, price)] ∧
      ∀ taskId, (s.step call).policy.stored (s.step call).redis taskId =
        if taskId = call.taskId then (s.policy.stored s.redis taskId).add canonical price call.usage
        else s.policy.stored s.redis taskId := by
  have hcall : s.policy.recordSpend s.redis false false call.taskId call.model call.cacheBreakdown call.inputTokens
        call.outputTokens =
      s.policy.recordSpend s.redis false false call.taskId call.model (some call.usage) none none := rfl
  unfold step
  rw [hcall]
  rcases BudgetPolicy.recordSpend_cases s.policy s.redis false false call.taskId call.model call.usage with
    ⟨e, hprice, hrecord⟩ | ⟨canonical, price, hprice, hrecord⟩
  · rw [hrecord, hprice]
    exact .inl ⟨⟨e, rfl⟩, rfl⟩
  · rw [hrecord, hprice]
    refine .inr ⟨canonical, price, rfl, rfl, fun taskId => ?_⟩
    have hstored := BudgetPolicy.stored_recordCost s.policy s.redis call.taskId canonical price call.usage
      (hnamed call.taskId) taskId
    refine hstored.trans ?_
    split
    · next heq => rw [heq]
    · rfl

/-! ## The bound -/

/-- What is recorded differs from the exact prices by the slack of the calls. -/
structure Close (taskId : String) (s : Books) : Prop where
  named : Named s.policy s.redis
  decimal : IsDecimal 6 (s.spent taskId)
  close : |s.spent taskId - (s.pricesOf taskId).sum| ≤ ((s.pricesOf taskId).map slack).sum

theorem Close.step {taskId : String} (h : Close taskId s) (call : SpendCall) : Close taskId (s.step call) := by
  rcases step_cases h.named call with ⟨-, heq⟩ | ⟨canonical, price, -, hprices, hstored⟩
  · rw [heq]
    exact h
  · have hspent := congrArg BudgetSpend.spentUsd (hstored taskId)
    have hpricesOf : (s.step call).pricesOf taskId =
        s.pricesOf taskId ++ if call.taskId = taskId then [price] else [] := by
      unfold pricesOf
      rw [hprices, List.filter_append, List.map_append]
      by_cases hid : call.taskId = taskId <;> simp [hid]
    have hnamed : Named (s.step call).policy (s.step call).redis := by
      intro other
      rw [hstored]
      split
      · exact h.named other
      · exact h.named other
    by_cases hid : taskId = call.taskId
    · rw [if_pos hid] at hspent
      have hround : (s.step call).spent taskId = round6 (s.spent taskId + price) := hspent
      refine ⟨hnamed, ?_, ?_⟩
      · rw [hround]
        exact Lib.isDecimal_roundTo 6 _
      · have hcall := abs_le.mp (abs_round6_sub_le h.decimal price)
        have hbefore := abs_le.mp h.close
        rw [hround, hpricesOf, if_pos hid.symm, List.sum_append, List.map_append, List.sum_append, abs_le]
        simp only [List.map_singleton, List.sum_singleton]
        constructor <;> linarith [hcall.1, hcall.2, hbefore.1, hbefore.2]
    · rw [if_neg hid] at hspent
      have hsame : (s.step call).spent taskId = s.spent taskId := hspent
      refine ⟨hnamed, ?_, ?_⟩
      · rw [hsame]
        exact h.decimal
      · rw [hsame, hpricesOf, if_neg (Ne.symm hid), List.append_nil]
        exact h.close

theorem sum_slack (prices : List Rat) :
    (prices.map slack).sum = (prices.countP fun price => ¬ InMillionths price) * (1 / 2 / 10 ^ 6) := by
  induction prices with
  | nil => simp
  | cons price prices ih =>
    rw [List.map_cons, List.sum_cons, ih, List.countP_cons, slack]
    by_cases hwhole : InMillionths price
    · simp [hwhole]
    · simp [hwhole]
      ring

theorem close_run {taskId : String} (h : Close taskId s) (calls : List SpendCall) :
    Close taskId (Lib.run step s calls) :=
  Lib.run_invariant (Close taskId) (fun _ call hclose => hclose.step call) h calls

theorem close_of_fresh {policy : BudgetPolicy} {redis : Redis} (hnamed : Named policy redis) {taskId : String}
    (hfresh : (policy.stored redis taskId).spentUsd = 0) : Close taskId { policy, redis } := by
  have hzero : spent { policy, redis } taskId = 0 := hfresh
  refine ⟨hnamed, ?_, ?_⟩
  · rw [hzero]
    exact Lib.isDecimal_zero 6
  · rw [hzero]
    simp [pricesOf]

/-- **The record of a task falls short of the exact prices by half a millionth of a dollar at most, for each call
whose price is no whole number of millionths.** -/
theorem spent_short_by_le {policy : BudgetPolicy} {redis : Redis} (hnamed : Named policy redis) {taskId : String}
    (hfresh : (policy.stored redis taskId).spentUsd = 0) (calls : List SpendCall) :
    let s := Lib.run step { policy, redis } calls
    (s.pricesOf taskId).sum ≤
      s.spent taskId + ((s.pricesOf taskId).countP fun price => ¬ InMillionths price) * (1 / 2 / 10 ^ 6) := by
  intro s
  have hclose := abs_le.mp (close_run (close_of_fresh hnamed hfresh) calls).close
  rw [sum_slack] at hclose
  linarith [hclose.1]

/-! ## Half a millionth, each time -/

def fresh : Books where
  policy := { defaultBudget := 5, backend := .memory [] }
  redis := { text := fun _ => "" }

def cachedCall : SpendCall where
  taskId := "t"
  model := "haiku"
  cacheBreakdown := some { cacheReadInputTokens := 5 }

theorem named_fresh : Named fresh.policy fresh.redis := fun _ => rfl

theorem cached_and_plain_call_close :
    let s := Lib.run step { policy := fresh.policy, redis := fresh.redis }
      [cachedCall, { taskId := "t", model := "haiku", inputTokens := some 3 }]
    (s.pricesOf "t").sum ≤
      s.spent "t" + ((s.pricesOf "t").countP fun price => ¬ InMillionths price) * (1 / 2 / 10 ^ 6) :=
  spent_short_by_le named_fresh rfl _

/-- However often the call is recorded, nothing is recorded for it. -/
theorem cached_calls_free (n : Nat) :
    let s := Lib.run step fresh (List.replicate n cachedCall)
    s.spent "t" = 0 ∧ s.pricesOf "t" = List.replicate n (1 / 2 / 10 ^ 6) := by
  have hprice : priceCall cachedCall.model cachedCall.usage = .ok (1 / 2 / 10 ^ 6) := by decide +kernel
  have hround : round6 (0 + 1 / 2 / 10 ^ 6) = 0 := by decide +kernel
  induction n with
  | zero => exact ⟨rfl, rfl⟩
  | succ n ih =>
    obtain ⟨hspent, hprices⟩ := ih
    have hclose : Close "t" (Lib.run step fresh (List.replicate n cachedCall)) :=
      close_run (close_of_fresh named_fresh rfl) _
    rw [List.replicate_succ', Lib.run_append]
    change (step _ cachedCall).spent "t" = 0 ∧ (step _ cachedCall).pricesOf "t" = _
    rcases step_cases hclose.named cachedCall with ⟨⟨e, he⟩, -⟩ | ⟨canonical, price, hok, hafter, hstored⟩
    · rw [hprice] at he
      cases he
    · obtain rfl : 1 / 2 / 10 ^ 6 = price := Except.ok.inj (hprice.symm.trans hok)
      have hrecord := congrArg BudgetSpend.spentUsd (hstored "t")
      rw [if_pos (show "t" = cachedCall.taskId from rfl)] at hrecord
      refine ⟨?_, ?_⟩
      · refine hrecord.trans ?_
        change round6 (spent _ "t" + 1 / 2 / 10 ^ 6) = 0
        rw [hspent, hround]
      · unfold pricesOf at hprices ⊢
        rw [hafter, List.filter_append, List.map_append, hprices, List.replicate_succ']
        rfl

/-- Three such calls cost one and a half millionths, and leave the record at nothing. -/
theorem three_cached_calls_unrecorded : ¬ ∀ (policy : BudgetPolicy) (redis : Redis), Named policy redis →
    ∀ taskId, (policy.stored redis taskId).spentUsd = 0 → ∀ calls : List SpendCall,
      let s := Lib.run step { policy, redis } calls
      (s.pricesOf taskId).sum ≤ s.spent taskId + 1 / 10 ^ 6 := by
  intro h
  have hthree := h fresh.policy fresh.redis named_fresh "t" rfl (List.replicate 3 cachedCall)
  revert hthree
  decide +kernel

end Books

end Occp.Policy
