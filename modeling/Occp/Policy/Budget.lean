import Mathlib.Tactic.NormNum
import Occp.Lib.Except
import Occp.Text

/-!
# Token budgets (`policy_engine/budget_policy.py`)

Dollars are exact here, and rounded where the code rounds them. A key of Redis holds what
`json.loads` makes of its payload, or nothing when that is no JSON. Times are left out.
-/

namespace Occp.Policy

open Lib (roundTo IsDecimal)

/-! ## Prices -/

/-- USD per million tokens. -/
structure Rates where
  input : Rat
  output : Rat
  cacheRead : Rat
  cacheWrite5m : Rat

def pricing : Dict Rates :=
  [("claude-haiku-4-5", ⟨1, 5, 1 / 10, 5 / 4⟩), ("claude-sonnet-4-6", ⟨3, 15, 3 / 10, 15 / 4⟩),
    ("claude-opus-4-7", ⟨5, 25, 1 / 2, 25 / 4⟩)]

def modelAliases : List (String × String) :=
  [("haiku", "claude-haiku-4-5"), ("sonnet", "claude-sonnet-4-6"), ("opus", "claude-opus-4-7"),
    ("claude-haiku", "claude-haiku-4-5"), ("claude-sonnet", "claude-sonnet-4-6"), ("claude-opus", "claude-opus-4-7")]

/-- `_resolve_model`: the key and its rates. -/
def resolveModel (model : String) : Except PyError String :=
  if (pricing.get? model).isSome then .ok model
  else
    let m := Text.strip (Text.lower model.toList)
    match modelAliases.find? fun a => a.1.toList.isPrefixOf m with
    | some a => .ok a.2
    | none =>
      let known := ", ".intercalate pricing.keys
      .error (.valueError s!"Unknown model '{model}'. Known: {known}")

theorem modelAliases_priced : (modelAliases.all fun a => (pricing.get? a.2).isSome) = true := by decide +kernel

theorem resolveModel_priced {model canonical : String} (h : resolveModel model = .ok canonical) :
    (pricing.get? canonical).isSome = true := by
  unfold resolveModel at h
  split at h
  · next hmodel => exact Except.ok.inj h ▸ hmodel
  · dsimp only at h
    split at h
    · next a ha =>
      have hall := List.all_eq_true.mp modelAliases_priced a (List.mem_of_find?_eq_some ha)
      exact Except.ok.inj h ▸ hall
    · cases h

/-- A resolved name is one that has a price. -/
theorem resolveModel_resolved {model canonical : String} (h : resolveModel model = .ok canonical) :
    resolveModel canonical = .ok canonical := by
  have hpriced := resolveModel_priced h
  unfold resolveModel
  rw [if_pos hpriced]

structure CacheBreakdown where
  inputTokens : Int := 0
  outputTokens : Int := 0
  cacheReadInputTokens : Int := 0
  cacheCreationInputTokens : Int := 0

def Rates.cost (r : Rates) (b : CacheBreakdown) : Rat :=
  (b.inputTokens * r.input + b.outputTokens * r.output + b.cacheReadInputTokens * r.cacheRead +
    b.cacheCreationInputTokens * r.cacheWrite5m) / 1000000

def priceCall (model : String) (b : CacheBreakdown) : Except PyError Rat := do
  let canonical ← resolveModel model
  match pricing.get? canonical with
  | some rates => return rates.cost b
  | none => .error (.other "KeyError" canonical)

theorem priceCall_resolved {model canonical : String} (h : resolveModel model = .ok canonical) (b : CacheBreakdown) :
    priceCall canonical b = priceCall model b := by
  unfold priceCall
  rw [h, resolveModel_resolved h]

/-- Input and output tokens cost whole dollars per million. -/
theorem pricing_whole {model : String} {rates : Rates} (h : pricing.get? model = some rates) :
    ∃ input output : Int, rates.input = input ∧ rates.output = output := by
  have hk := Dict.mem_of_get? h
  rw [pricing, List.mem_cons, List.mem_cons, List.mem_singleton] at hk
  rcases hk with hk | hk | hk
  · exact ⟨1, 5, by rw [(Prod.mk.inj hk).2]; norm_num, by rw [(Prod.mk.inj hk).2]; norm_num⟩
  · exact ⟨3, 15, by rw [(Prod.mk.inj hk).2]; norm_num, by rw [(Prod.mk.inj hk).2]; norm_num⟩
  · exact ⟨5, 25, by rw [(Prod.mk.inj hk).2]; norm_num, by rw [(Prod.mk.inj hk).2]; norm_num⟩

/-- Without cache tokens, a price has six decimals. -/
theorem isDecimal_priceCall {model : String} {input output : Int} {cost : Rat}
    (h : priceCall model { inputTokens := input, outputTokens := output } = .ok cost) : IsDecimal 6 cost := by
  obtain ⟨canonical, -, h⟩ := Lib.Except.bind_eq_ok.mp h
  split at h
  · next rates hrates =>
    obtain ⟨i, o, hi, ho⟩ := pricing_whole hrates
    rw [Lib.Except.pure_eq_ok] at h
    refine ⟨input * i + output * o, ?_⟩
    rw [← h, Rates.cost, hi, ho]
    push_cast
    norm_num
  · cases h

/-! ## Spend -/

structure BudgetSpend where
  taskId : String
  spentUsd : Rat := 0
  calls : Int := 0
  inputTokens : Int := 0
  outputTokens : Int := 0
  cacheReadTokens : Int := 0
  cacheWriteTokens : Int := 0
  lastModel : Value := .none

def round6 (q : Rat) : Rat := roundTo 6 q

namespace BudgetSpend

def toDict (s : BudgetSpend) : Value :=
  .dict [("task_id", .str s.taskId), ("spent_usd", .float (round6 s.spentUsd)), ("calls", .int s.calls),
    ("input_tokens", .int s.inputTokens), ("output_tokens", .int s.outputTokens),
    ("cache_read_tokens", .int s.cacheReadTokens), ("cache_write_tokens", .int s.cacheWriteTokens),
    ("last_model", s.lastModel)]

/-- `float(v)`. -/
def float : Value → Except PyError Rat
  | .float q => .ok q
  | .int n => .ok n
  | .bool b => .ok (if b then 1 else 0)
  | .str s =>
    match Text.float? s with
    | some q => .ok q
    | none => .error (.valueError s!"could not convert string to float: {reprString s}")
  | _ => .error (.typeError "float() argument must be a string or a real number")

/-- `int(v)`. -/
def int : Value → Except PyError Int
  | .int n => .ok n
  | .float q => .ok (Text.truncate q)
  | .bool b => .ok (if b then 1 else 0)
  | .str s =>
    match Text.int? s with
    | some n => .ok n
    | none => .error (.valueError s!"invalid literal for int() with base 10: {reprString s}")
  | _ => .error (.typeError "int() argument must be a string or a real number")

/-- `data["task_id"]`. An id that is no string is taken as the `text` that an f-string inserts for it. -/
def taskIdOf (text : Value → String) (data : Dict Value) : Except PyError String :=
  match data.get? "task_id" with
  | some v => .ok (Text.inserted text v)
  | none => .error (.other "KeyError" "task_id")

def fromDict (text : Value → String) : Value → Except PyError BudgetSpend
  | .dict entries => do
    let data : Dict Value := entries
    let taskId ← taskIdOf text data
    let spentUsd ← float ((data.get? "spent_usd").getD (.float 0))
    let calls ← int ((data.get? "calls").getD (.int 0))
    let inputTokens ← int ((data.get? "input_tokens").getD (.int 0))
    let outputTokens ← int ((data.get? "output_tokens").getD (.int 0))
    let cacheReadTokens ← int ((data.get? "cache_read_tokens").getD (.int 0))
    let cacheWriteTokens ← int ((data.get? "cache_write_tokens").getD (.int 0))
    let lastModel := (data.get? "last_model").getD .none
    return { taskId, spentUsd, calls, inputTokens, outputTokens, cacheReadTokens, cacheWriteTokens, lastModel }
  | _ => .error (.typeError "indices must be integers")

/-- What a call adds. -/
def add (s : BudgetSpend) (model : String) (cost : Rat) (b : CacheBreakdown) : BudgetSpend :=
  { s with
    spentUsd := round6 (s.spentUsd + cost), calls := s.calls + 1
    inputTokens := s.inputTokens + b.inputTokens, outputTokens := s.outputTokens + b.outputTokens
    cacheReadTokens := s.cacheReadTokens + b.cacheReadInputTokens
    cacheWriteTokens := s.cacheWriteTokens + b.cacheCreationInputTokens, lastModel := .str model }

/-- Writing a spend down rounds its dollars. -/
theorem fromDict_toDict (text : Value → String) (s : BudgetSpend) :
    fromDict text s.toDict = .ok { s with spentUsd := round6 s.spentUsd } := rfl

end BudgetSpend

/-! ## Backends -/

structure Redis where
  entries : Dict Payload := []
  /-- What an f-string inserts for a value that is no string. -/
  text : Value → String

namespace Redis

def key (taskId : String) : String := "occp:budget:" ++ taskId

def get (r : Redis) (taskId : String) : BudgetSpend :=
  match r.entries.get? (key taskId) with
  | none => { taskId }
  | some none => { taskId }
  | some (some data) =>
    match BudgetSpend.fromDict r.text data with
    | .ok spend => spend
    | .error _ => { taskId }

def set (r : Redis) (spend : BudgetSpend) : Redis :=
  { r with entries := r.entries.set (key spend.taskId) (some spend.toDict) }

theorem key_injective {a b : String} (h : key a = key b) : a = b := by
  unfold key at h
  exact String.append_right_inj _ |>.mp h

theorem get_set_self (r : Redis) (spend : BudgetSpend) :
    (r.set spend).get spend.taskId = { spend with spentUsd := round6 spend.spentUsd } := by
  unfold get set
  rw [Dict.get?_set_self]
  rfl

theorem get_set_decimal (r : Redis) (spend : BudgetSpend) (h : IsDecimal 6 spend.spentUsd) :
    (r.set spend).get spend.taskId = spend := by
  rw [get_set_self, round6, Lib.roundTo_of_isDecimal h]

theorem get_set_of_ne (r : Redis) (spend : BudgetSpend) {taskId : String} (h : taskId ≠ spend.taskId) :
    (r.set spend).get taskId = r.get taskId := by
  unfold get set
  rw [Dict.get?_set_of_ne _ _ _ _ fun hkey => h (key_injective hkey)]

end Redis

/-- Redis, or the process-local fallback. -/
inductive Backend where
  | memory (store : Dict BudgetSpend)
  | redis

/-! ## The policy -/

structure BudgetPolicy where
  defaultBudget : Rat
  perTaskBudgets : Dict Rat := []
  backend : Backend

namespace BudgetPolicy

def setTaskBudget (p : BudgetPolicy) (taskId : String) (budgetUsd : Rat) : Except PyError BudgetPolicy :=
  if budgetUsd < 0 then .error (.valueError "budget_usd must be non-negative")
  else .ok { p with perTaskBudgets := p.perTaskBudgets.set taskId budgetUsd }

def getTaskBudget (p : BudgetPolicy) (taskId : String) : Rat :=
  (p.perTaskBudgets.get? taskId).getD p.defaultBudget

/-- `_safe_get`, where Redis `fails` or not. -/
def safeGet (p : BudgetPolicy) (r : Redis) (fails : Bool) (taskId : String) : BudgetSpend × BudgetPolicy :=
  match p.backend with
  | .memory store => ((store.get? taskId).getD { taskId }, p)
  | .redis => if fails then ({ taskId }, { p with backend := .memory [] }) else (r.get taskId, p)

def safeSet (p : BudgetPolicy) (r : Redis) (fails : Bool) (spend : BudgetSpend) : BudgetPolicy × Redis :=
  match p.backend with
  | .memory store => ({ p with backend := .memory (store.set spend.taskId spend) }, r)
  | .redis =>
    if fails then ({ p with backend := .memory (Dict.set [] spend.taskId spend) }, r) else (p, r.set spend)

/-- What the policy has on a task while Redis answers. -/
def stored (p : BudgetPolicy) (r : Redis) (taskId : String) : BudgetSpend := (p.safeGet r false taskId).1

theorem stored_congr {p p' : BudgetPolicy} (h : p.backend = p'.backend) (r : Redis) (taskId : String) :
    p.stored r taskId = p'.stored r taskId := by
  unfold stored safeGet
  rw [h]
  split <;> rfl

@[simp] theorem safeGet_answers (p : BudgetPolicy) (r : Redis) (taskId : String) :
    p.safeGet r false taskId = (p.stored r taskId, p) := by
  unfold stored safeGet
  split <;> rfl

/-- A write of rounded dollars is read back, and nothing else changes. -/
theorem stored_safeSet (p : BudgetPolicy) (r : Redis) (spend : BudgetSpend) (h : IsDecimal 6 spend.spentUsd)
    (taskId : String) :
    (p.safeSet r false spend).1.stored (p.safeSet r false spend).2 taskId =
      if taskId = spend.taskId then spend else p.stored r taskId := by
  unfold stored safeSet safeGet
  cases hb : p.backend with
  | memory store =>
    simp only [Dict.get?_set]
    split
    · rfl
    · rfl
  | redis =>
    simp only [hb, Bool.false_eq_true, if_false]
    split
    · next heq =>
      rw [heq]
      exact Redis.get_set_decimal r spend h
    · next hne => exact Redis.get_set_of_ne r spend hne

/-- What a call is estimated to cost, of which `outputRatio` are output tokens. -/
def estimate (model : String) (estimatedTokens : Int) (outputRatio : Rat) : Except PyError Rat :=
  let outputTokens := Text.truncate (estimatedTokens * outputRatio)
  priceCall model { inputTokens := max 0 (estimatedTokens - outputTokens), outputTokens }

theorem isDecimal_estimate {model : String} {estimatedTokens : Int} {outputRatio est : Rat}
    (h : estimate model estimatedTokens outputRatio = .ok est) : IsDecimal 6 est := isDecimal_priceCall h

/-- `check`; by default a quarter of the tokens is output. -/
def check (p : BudgetPolicy) (r : Redis) (fails : Bool) (taskId : String) (estimatedTokens : Int) (model : String)
    (outputRatio : Rat := 1 / 4) : (Bool × Option String) × BudgetPolicy :=
  if estimatedTokens < 0 then ((false, some "estimated_tokens must be non-negative"), p)
  else
    match estimate model estimatedTokens outputRatio with
    | .error e => ((false, some e.str), p)
    | .ok est =>
      let (spend, p) := p.safeGet r fails taskId
      let spent := spend.spentUsd
      let budget := p.getTaskBudget taskId
      if budget < spent + est then
        let spent := Text.fixed 4 spent
        let est := Text.fixed 4 est
        let budget := Text.fixed 4 budget
        ((false, some s!"pre-flight budget exceeded: spent=${spent} + est=${est} > budget=${budget}"), p)
      else ((true, none), p)

@[simp] theorem getTaskBudget_safeSet (p : BudgetPolicy) (r : Redis) (fails : Bool) (spend : BudgetSpend)
    (taskId : String) : (p.safeSet r fails spend).1.getTaskBudget taskId = p.getTaskBudget taskId := by
  unfold safeSet
  split
  · rfl
  · split <;> rfl

@[simp] theorem getTaskBudget_safeGet (p : BudgetPolicy) (r : Redis) (fails : Bool) (task taskId : String) :
    (p.safeGet r fails task).2.getTaskBudget taskId = p.getTaskBudget taskId := by
  unfold safeGet
  split
  · rfl
  · split <;> rfl

/-- A check passes when the estimate still fits. -/
theorem check_spec (p : BudgetPolicy) (r : Redis) (fails : Bool) (taskId : String) {estimatedTokens : Int}
    {model : String} {outputRatio est : Rat} (hest : estimate model estimatedTokens outputRatio = .ok est)
    (hcount : 0 ≤ estimatedTokens) :
    (p.check r fails taskId estimatedTokens model outputRatio).2 = (p.safeGet r fails taskId).2 ∧
      ((p.check r fails taskId estimatedTokens model outputRatio).1.1 = true ↔
        (p.safeGet r fails taskId).1.spentUsd + est ≤ p.getTaskBudget taskId) := by
  have hbudget := getTaskBudget_safeGet p r fails taskId taskId
  unfold check
  rw [if_neg (not_lt.mpr hcount), hest]
  generalize p.safeGet r fails taskId = got at hbudget ⊢
  obtain ⟨spend, policy⟩ := got
  dsimp only at hbudget ⊢
  rw [hbudget]
  split
  · next hlt => exact ⟨rfl, iff_of_false Bool.false_ne_true (not_le.mpr hlt)⟩
  · next hle => exact ⟨rfl, iff_of_true rfl (not_lt.mp hle)⟩

/-- A check that is refused before it reads. -/
theorem check_refused (p : BudgetPolicy) (r : Redis) (fails : Bool) (taskId : String) {estimatedTokens : Int}
    {model : String} {outputRatio : Rat}
    (h : ¬ (0 ≤ estimatedTokens ∧ ∃ est, estimate model estimatedTokens outputRatio = .ok est)) :
    (p.check r fails taskId estimatedTokens model outputRatio).2 = p ∧
      (p.check r fails taskId estimatedTokens model outputRatio).1.1 = false := by
  unfold check
  split
  · exact ⟨rfl, rfl⟩
  · next hcount =>
    split
    · exact ⟨rfl, rfl⟩
    · next est hest => exact absurd ⟨not_lt.mp hcount, est, hest⟩ h

/-- `record_spend` of a call whose model is known: the read, then the write. -/
def recordCost (p : BudgetPolicy) (r : Redis) (getFails setFails : Bool) (taskId model : String) (cost : Rat)
    (b : CacheBreakdown) : BudgetSpend × BudgetPolicy × Redis :=
  let (spend, p) := p.safeGet r getFails taskId
  let spend := spend.add model cost b
  (spend, p.safeSet r setFails spend)

/-- While Redis answers, a recorded cost changes the record of its task, and no other. -/
theorem stored_recordCost (p : BudgetPolicy) (r : Redis) (taskId model : String) (cost : Rat) (b : CacheBreakdown)
    (h : (p.stored r taskId).taskId = taskId) (other : String) :
    let after := (p.recordCost r false false taskId model cost b).2
    after.1.stored after.2 other =
      if other = taskId then (p.stored r taskId).add model cost b else p.stored r other := by
  intro after
  have hset := stored_safeSet p r ((p.stored r taskId).add model cost b) (Lib.isDecimal_roundTo 6 _) other
  have hid : ((p.stored r taskId).add model cost b).taskId = taskId := h
  rw [hid] at hset
  rw [← hset]
  unfold after recordCost
  rw [safeGet_answers]

def recordSpend (p : BudgetPolicy) (r : Redis) (getFails setFails : Bool) (taskId model : String)
    (cacheBreakdown : Option CacheBreakdown) (inputTokens outputTokens : Option Int) :
    Except PyError BudgetSpend × BudgetPolicy × Redis :=
  let b := cacheBreakdown.getD { inputTokens := inputTokens.getD 0, outputTokens := outputTokens.getD 0 }
  match resolveModel model with
  | .error e => (.error e, p, r)
  | .ok canonical =>
    match priceCall canonical b with
    | .error e => (.error e, p, r)
    | .ok cost =>
      let (spend, after) := p.recordCost r getFails setFails taskId canonical cost b
      (.ok spend, after)

/-- A call without a price raises, and one with a price is recorded under the resolved name of its model. -/
theorem recordSpend_cases (p : BudgetPolicy) (r : Redis) (getFails setFails : Bool) (taskId model : String)
    (b : CacheBreakdown) :
    (∃ e, priceCall model b = .error e ∧
      p.recordSpend r getFails setFails taskId model (some b) none none = (.error e, p, r)) ∨
    ∃ canonical cost, priceCall model b = .ok cost ∧
      p.recordSpend r getFails setFails taskId model (some b) none none =
        (.ok (p.recordCost r getFails setFails taskId canonical cost b).1,
          (p.recordCost r getFails setFails taskId canonical cost b).2) := by
  unfold recordSpend
  rw [Option.getD_some]
  cases hmodel : resolveModel model with
  | error e =>
    refine .inl ⟨e, ?_, rfl⟩
    unfold priceCall
    rw [hmodel]
    rfl
  | ok canonical =>
    dsimp only
    rw [priceCall_resolved hmodel]
    cases hcost : priceCall model b with
    | error e => exact .inl ⟨e, rfl, rfl⟩
    | ok cost => exact .inr ⟨canonical, cost, rfl, rfl⟩

def snapshot (p : BudgetPolicy) (r : Redis) (fails : Bool) (taskId : String) : Value × BudgetPolicy :=
  let (spend, p) := p.safeGet r fails taskId
  let backend := match p.backend with
    | .memory _ => "memory"
    | .redis => "redis"
  let budget := p.getTaskBudget taskId
  (.dict ([("backend", .str backend), ("budget_usd", .float budget),
    ("remaining_usd", .float (max 0 (budget - spend.spentUsd)))] ++
    match spend.toDict with
    | .dict entries => entries
    | _ => []), p)

end BudgetPolicy

end Occp.Policy
